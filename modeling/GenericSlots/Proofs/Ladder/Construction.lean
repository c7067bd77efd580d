import GenericSlots.Hierarchy.Ladder
import GenericSlots.Proofs.Hierarchy.Effects
set_option autoImplicit false

/-!
# The classes of a ladder

A ladder is built level by level, from the bottom up, and every level refers only to what is below
it. So a ladder is described by induction on its levels, the highest first: every class is given by
the join below and by the classes below, which are its ancestors.

## Main definitions

* `GenericSlots.ClassDef.rung`: the classes that ladders consist of.
* `GenericSlots.Ladder.top`, `GenericSlots.Ladder.members`: the highest join and all classes of some
  levels.
* `GenericSlots.Hierarchy.IsLadder`: the classes of a hierarchy that form a ladder.
* `GenericSlots.Hierarchy.KeptBy`: a hierarchy whose classes another has too, as they are.
* `GenericSlots.Hierarchy.AddsLadder`: a hierarchy that is another one with a ladder.

## Main results

* `GenericSlots.Hierarchy.IsLadder.of_append`: the lower levels of a ladder form a ladder.
* `GenericSlots.Hierarchy.IsLadder.exists_rung`: the bases of a class of a ladder belong to it.
* `GenericSlots.Edit.exists_ladder`: a ladder can be added if there are identifiers for its classes.
-/

namespace GenericSlots

/-- A class with one type parameter, which it passes on to all its bases. The classes of a ladder
are all of this form; they differ in what they extend and list. -/
def ClassDef.rung (name : String) (c : ClassId) (onto ancestors : List ClassId) : ClassDef where
  name := name
  isAbstract := false
  params := [⟨"T", ⟨1⟩⟩]
  bases := onto.map (⟨·, [.var ⟨1⟩]⟩)
  ancestors := c :: ancestors

namespace Ladder

/-- The join at the top of some levels, of which the highest comes first. Without any levels it is
the bottom. -/
def top (bottom : ClassId) : List Level → ClassId
  | [] => bottom
  | level :: _ => level.join

/-- The classes of some levels, of which the highest comes first, and the bottom. They are in the
order in which the join at the top lists them as its ancestors. -/
def members (bottom : ClassId) : List Level → List ClassId
  | [] => [bottom]
  | level :: below => level.join :: level.left :: level.right :: members bottom below

/-- The join at the top of some levels is one of their classes. -/
lemma top_mem_members (bottom : ClassId) (levels : List Level) :
    top bottom levels ∈ members bottom levels := by
  cases levels <;> exact List.mem_cons_self

/-- The bottom is one of the classes of any levels above it. -/
lemma bottom_mem_members (bottom : ClassId) (levels : List Level) :
    bottom ∈ members bottom levels := by
  induction levels with
  | nil => exact List.mem_cons_self
  | cons level below ih => simp [members, ih]

end Ladder

open Ladder (Level top members top_mem_members bottom_mem_members)

namespace Hierarchy

/-- A class extends some classes in the way of a ladder and lists some ancestors. Its name does not
matter. -/
def IsRung (h : Hierarchy) (c : ClassId) (onto ancestors : List ClassId) : Prop :=
  ∃ name, h.find? c = some (.rung name c onto ancestors)

/-- The classes of some levels, of which the highest comes first, form a ladder. The levels are put
on top of each other one by one, so facts about a ladder are proved by induction on it, from the
bottom up. -/
inductive IsLadder (h : Hierarchy) (bottom : ClassId) : List Level → Prop
  /-- The bottom extends no class. -/
  | bottom (join : h.IsRung bottom [] []) : IsLadder h bottom []
  /-- Both sides of a level extend the join below, and the join of the level extends both sides. -/
  | level {level : Level} {below : List Level} (lower : IsLadder h bottom below)
      (left : h.IsRung level.left [top bottom below] (members bottom below))
      (right : h.IsRung level.right [top bottom below] (members bottom below))
      (join : h.IsRung level.join [level.left, level.right]
        (level.left :: level.right :: members bottom below))
      (nodup : (members bottom (level :: below)).Nodup) : IsLadder h bottom (level :: below)

/-- All classes of a hierarchy are classes of another, as they are. The other one may have more
classes. -/
def KeptBy (h h' : Hierarchy) : Prop :=
  ∀ c d, h.find? c = some d → h'.find? c = some d

variable {h h' : Hierarchy} {bottom c : ClassId} {onto ancestors : List ClassId}
  {levels : List Level}

/-- A class keeps its place in a ladder where it is kept as it is. -/
lemma IsRung.of_keptBy (hc : h.IsRung c onto ancestors) (hh : h.KeptBy h') :
    h'.IsRung c onto ancestors :=
  hc.imp fun _ hd => hh _ _ hd

namespace IsLadder

/-- No class of a ladder is part of it twice. -/
lemma nodup (hl : h.IsLadder bottom levels) : (members bottom levels).Nodup := by
  cases hl with
  | bottom _ => simp [members]
  | level _ _ _ _ hnodup => exact hnodup

/-- The join at the top lists all classes of the ladder as its ancestors, itself first. -/
lemma exists_top (hl : h.IsLadder bottom levels) :
    ∃ d, h.find? (top bottom levels) = some d ∧ d.ancestors = members bottom levels := by
  cases hl with
  | bottom join | level _ _ _ join _ =>
    obtain ⟨name, hd⟩ := join
    exact ⟨_, hd, rfl⟩

/-- The lower levels of a ladder form a ladder, since no level refers to what is above it. -/
theorem of_append {above : List Level} (hl : h.IsLadder bottom (above ++ levels)) :
    h.IsLadder bottom levels := by
  induction above with
  | nil => exact hl
  | cons level above ih =>
    cases hl with
    | level lower _ _ _ _ => exact ih lower

/-- A ladder stays one if its classes stay as they are. -/
lemma of_keptBy (hl : h.IsLadder bottom levels) (hh : h.KeptBy h') :
    h'.IsLadder bottom levels := by
  induction hl with
  | bottom join => exact .bottom (join.of_keptBy hh)
  | level _ left right join hnodup ih =>
    exact .level ih (left.of_keptBy hh) (right.of_keptBy hh) (join.of_keptBy hh) hnodup

/-- Every class of a ladder extends classes of the ladder.

**Proof sketch.** Induction on the ladder. The sides of a level extend the join below, and the join
of the level extends both sides. What the classes below extend is below as well. -/
theorem exists_rung (hl : h.IsLadder bottom levels) (hc : c ∈ members bottom levels) :
    ∃ onto ancestors, h.IsRung c onto ancestors ∧ ∀ b ∈ onto, b ∈ members bottom levels := by
  induction hl with
  | bottom join =>
    obtain rfl := List.mem_singleton.1 hc
    exact ⟨[], [], join, fun _ hb => nomatch hb⟩
  | @level level below lower left right join _ ih =>
    have htop : ∀ b ∈ [top bottom below], b ∈ members bottom (level :: below) := by
      simp [members, top_mem_members]
    rw [members, List.mem_cons, List.mem_cons, List.mem_cons] at hc
    rcases hc with rfl | rfl | rfl | hc
    · exact ⟨_, _, join, by simp [members]⟩
    · exact ⟨_, _, left, htop⟩
    · exact ⟨_, _, right, htop⟩
    · obtain ⟨onto, ancestors, hrung, hbelow⟩ := ih hc
      exact ⟨onto, ancestors, hrung, fun b hb => by simp [members, hbelow b hb]⟩

/-- The classes of a ladder are defined. -/
lemma isDefined (hl : h.IsLadder bottom levels) (hc : c ∈ members bottom levels) :
    h.IsDefined c := by
  obtain ⟨onto, ancestors, ⟨name, hd⟩, -⟩ := hl.exists_rung hc
  exact isDefined_iff.2 ⟨_, hd⟩

end IsLadder

/-- A level takes the next three identifiers of a hierarchy, its sides the first two. -/
structure NextLevel (h : Hierarchy) (level : Level) : Prop where
  /-- The left side comes first. -/
  left : level.left.index = h.size
  /-- The right side comes next. -/
  right : level.right.index = h.size + 1
  /-- The join comes last. -/
  join : level.join.index = h.size + 2

/-- Classes at different positions differ. -/
private lemma ne_of_index_lt {b c : ClassId} (hlt : b.index < c.index) : b ≠ c :=
  ne_of_apply_ne ClassId.index (Nat.ne_of_lt hlt)

/-- The classes of a level that takes the next identifiers differ. -/
lemma NextLevel.ne {level : Level} (hl : h.NextLevel level) :
    level.left ≠ level.right ∧ level.left ≠ level.join ∧ level.right ≠ level.join := by
  obtain ⟨hleft, hright, hjoin⟩ := hl
  exact ⟨ne_of_index_lt (by omega), ne_of_index_lt (by omega), ne_of_index_lt (by omega)⟩

/-- A class that is defined is none of a level that takes the next identifiers, whose positions are
all free. -/
lemma NextLevel.ne_of_isDefined {level : Level} (hl : h.NextLevel level) (hc : h.IsDefined c) :
    c ≠ level.left ∧ c ≠ level.right ∧ c ≠ level.join := by
  obtain ⟨hleft, hright, hjoin⟩ := hl
  have hlt : c.index < h.size := hc
  exact ⟨ne_of_index_lt (by omega), ne_of_index_lt (by omega), ne_of_index_lt (by omega)⟩

/-- A hierarchy is another one to which the classes of a ladder are added. Adding levels one by one
goes through such hierarchies. -/
structure AddsLadder (h : Hierarchy) (bottom : ClassId) (levels : List Level) (h' : Hierarchy) :
    Prop where
  /-- The classes form a ladder. -/
  isLadder : h'.IsLadder bottom levels
  /-- The other classes are as before. -/
  kept : h.KeptBy h'
  /-- There are no more classes. -/
  cases : ∀ c, h'.IsDefined c → h.IsDefined c ∨ c ∈ members bottom levels
  /-- Every level adds three classes. -/
  size : h'.size = h.size + 1 + 3 * levels.length

end Hierarchy

/-! ## Adding a ladder -/

namespace Edit

open Hierarchy

variable {h h' : Hierarchy} {bottom below : ClassId} {d : ClassDef} {levels : List Level}

/-- A class with one type parameter can be added unless all identifiers are in use. It takes the
next one, and the classes that there are stay as they are. -/
private lemma exists_defineRung {n : Nat} (hsize : h.size = n) (hs : n < ClassId.limit)
    (name : String) :
    ∃ h', defineGeneric name ["T"] h = .ok (.ofIndex n, h') ∧ h'.size = n + 1 ∧
      h'.find? (.ofIndex n) = some (.rung name (.ofIndex n) [] []) ∧ h.KeptBy h' := by
  subst hsize
  obtain ⟨h', hok, hh⟩ := exists_defineGeneric hs name ["T"]
  exact ⟨h', hok, hh.size, hh.self, fun _ _ => hh.of_find? hs⟩

/-- Two classes without bases are made to extend a third one, whose ancestors they take over. No
other class changes.

**Proof sketch.** The two classes are extended one after the other. The first extension leaves the
second class and the base as they are, because they are different classes, so the second one can be
made in the same way. -/
private lemma exists_extendSides {left right : ClassId} {l r : String}
    (hleft : h.find? left = some (.rung l left [] []))
    (hright : h.find? right = some (.rung r right [] [])) (hlr : left ≠ right)
    (hd : h.find? below = some d) (hbl : below ≠ left) :
    ∃ h₁ h₂, extend left ⟨below, [.var ⟨1⟩]⟩ h = .ok ((), h₁) ∧
      extend right ⟨below, [.var ⟨1⟩]⟩ h₁ = .ok ((), h₂) ∧ h₂.size = h.size ∧
      h₂.IsRung left [below] d.ancestors ∧ h₂.IsRung right [below] d.ancestors ∧
      ∀ c, c ≠ left → c ≠ right → h₂.find? c = h.find? c := by
  obtain ⟨h₁, hok₁, hh₁⟩ := exists_extend (b := ⟨below, [.var ⟨1⟩]⟩) hleft hd
  obtain ⟨h₂, hok₂, hh₂⟩ := exists_extend (b := ⟨below, [.var ⟨1⟩]⟩)
    ((hh₁.of_ne hlr.symm).trans hright) ((hh₁.of_ne hbl).trans hd)
  exact ⟨h₁, h₂, hok₁, hok₂, hh₂.size.trans hh₁.size, ⟨l, (hh₂.of_ne hlr).trans hh₁.self⟩,
    ⟨r, hh₂.self⟩, fun c hcl hcr => (hh₂.of_ne hcr).trans (hh₁.of_ne hcl)⟩

/-- A class without bases is made the join of two sides, whatever is done next.

**Proof sketch.** The class is replaced three times, of which the last counts. The class below is
read in between; it is none of those replaced, so it is as it was. -/
private lemma exists_joinSides {name : String} {join : ClassId}
    (hjoin : h.find? join = some (.rung name join [] [])) (hd : h.find? below = some d)
    (hbj : below ≠ join) (left right : ClassId) :
    ∃ h', (∀ {α : Type} (a : α), (do
      addBase join ⟨left, [.var ⟨1⟩]⟩
      addBase join ⟨right, [.var ⟨1⟩]⟩
      setAncestors join ([left, right] ++ (← get below).ancestors)
      return a) h = .ok (a, h')) ∧
      h.Replaced join (.rung name join [left, right] (left :: right :: d.ancestors)) h' := by
  obtain ⟨h₁, hok₁, hh₁⟩ := exists_update hjoin fun d =>
    { d with bases := d.bases ++ [⟨left, [.var ⟨1⟩]⟩] }
  obtain ⟨h₂, hok₂, hh₂⟩ := exists_update hh₁.self fun d =>
    { d with bases := d.bases ++ [⟨right, [.var ⟨1⟩]⟩] }
  have hget : get below h₂ = .ok (d, h₂) :=
    bind_eq_ok_iff.2 ⟨d, get_eq_ok_iff.2 (((hh₁.trans hh₂).of_ne hbj).trans hd), rfl⟩
  obtain ⟨h₃, hok₃, hh₃⟩ := exists_update hh₂.self fun e =>
    { e with ancestors := join :: ([left, right] ++ d.ancestors) }
  refine ⟨h₃, fun a => ?_, (hh₁.trans hh₂).trans hh₃⟩
  exact bind_eq_ok_iff.2 ⟨_, hok₁, bind_eq_ok_iff.2 ⟨_, hok₂, bind_eq_ok_iff.2 ⟨_, hget,
    bind_eq_ok_iff.2 ⟨_, hok₃, rfl⟩⟩⟩⟩

/-- A level that is added above a class takes the next three identifiers. Its sides take over the
ancestors of the class, and its join those and both sides.

**Proof sketch.** The three classes are added, the sides are made to extend the class below, and the
join to extend both sides. Each step leaves the classes of the other steps as they are, because the
three classes differ from each other and from those that there were. -/
private lemma exists_ladderLevel (hs : h.size + 3 ≤ ClassId.limit) (hd : h.find? below = some d)
    (number : Nat) :
    ∃ level h', ladderLevel number below h = .ok (level, h') ∧ h.NextLevel level ∧
      h'.size = h.size + 3 ∧ h.KeptBy h' ∧ h'.IsRung level.left [below] d.ancestors ∧
      h'.IsRung level.right [below] d.ancestors ∧
      h'.IsRung level.join [level.left, level.right]
        (level.left :: level.right :: d.ancestors) := by
  let level : Level := ⟨.ofIndex h.size, .ofIndex (h.size + 1), .ofIndex (h.size + 2)⟩
  have hnext : h.NextLevel level := ⟨ClassId.index_ofIndex (by omega),
    ClassId.index_ofIndex (by omega), ClassId.index_ofIndex (by omega)⟩
  obtain ⟨hlr, hlj, hrj⟩ := hnext.ne
  have hold : ∀ {c e}, h.find? c = some e → c ≠ level.left ∧ c ≠ level.right ∧ c ≠ level.join :=
    fun he => hnext.ne_of_isDefined (isDefined_iff.2 ⟨_, he⟩)
  obtain ⟨hbl, hbr, hbj⟩ := hold hd
  -- the three classes, and that none of them disturbs those before it
  obtain ⟨h₁, hok₁, hsize₁, hleft₁, hkept₁⟩ :=
    exists_defineRung (h := h) rfl (by omega) s!"L{number}"
  obtain ⟨h₂, hok₂, hsize₂, hright₂, hkept₂⟩ := exists_defineRung hsize₁ (by omega) s!"R{number}"
  obtain ⟨h₃, hok₃, hsize₃, hjoin₃, hkept₃⟩ := exists_defineRung hsize₂ (by omega) s!"D{number}"
  have hold₃ : h.KeptBy h₃ := fun c e he => hkept₃ c e (hkept₂ c e (hkept₁ c e he))
  obtain ⟨h₄, h₅, hok₄, hok₅, hsize₅, hleft₅, hright₅, hother₅⟩ := exists_extendSides
    (hkept₃ level.left _ (hkept₂ _ _ hleft₁)) (hkept₃ level.right _ hright₂) hlr
    (hold₃ below d hd) hbl
  have hjoin₅ := (hother₅ level.join hlj.symm hrj.symm).trans hjoin₃
  have hbelow₅ := (hother₅ below hbl hbr).trans (hold₃ below d hd)
  obtain ⟨h₆, hok₆, hh⟩ := exists_joinSides hjoin₅ hbelow₅ hbj level.left level.right
  refine ⟨level, h₆, ?_, hnext, by rw [hh.size, hsize₅, hsize₃], fun c e he => ?_,
    hleft₅.imp fun _ => (hh.of_ne hlj).trans, hright₅.imp fun _ => (hh.of_ne hrj).trans,
    ⟨_, hh.self⟩⟩
  · rw [ladderLevel]
    exact bind_eq_ok_iff.2 ⟨_, hok₁, bind_eq_ok_iff.2 ⟨_, hok₂, bind_eq_ok_iff.2 ⟨_, hok₃,
      bind_eq_ok_iff.2 ⟨_, hok₄, bind_eq_ok_iff.2 ⟨_, hok₅, hok₆ _⟩⟩⟩⟩⟩
  · obtain ⟨hcl, hcr, hcj⟩ := hold he
    exact (hh.of_ne hcj).trans ((hother₅ c hcl hcr).trans (hold₃ c e he))

/-- One more level can be added to a ladder if there are identifiers for its classes.

**Proof sketch.** The new level extends the join at the top, which lists all classes of the ladder.
The classes below are kept, and none of them is one of the level, so none occurs twice. -/
private lemma exists_level (hh : h.AddsLadder bottom levels h')
    (hs : h'.size + 3 ≤ ClassId.limit) (number : Nat) :
    ∃ level h'', ladderLevel number (top bottom levels) h' = .ok (level, h'') ∧
      h.AddsLadder bottom (level :: levels) h'' := by
  obtain ⟨d, hd, hancestors⟩ := hh.isLadder.exists_top
  obtain ⟨level, h'', hok, hnext, hsize, hkept, hrungs⟩ := exists_ladderLevel hs hd number
  rw [hancestors] at hrungs
  have hnew : ∀ c ∈ members bottom levels, c ≠ level.left ∧ c ≠ level.right ∧ c ≠ level.join :=
    fun c hc => hnext.ne_of_isDefined (hh.isLadder.isDefined hc)
  have hnodup : (members bottom (level :: levels)).Nodup := by
    obtain ⟨hlr, hlj, hrj⟩ := hnext.ne
    simp only [members, List.nodup_cons, List.mem_cons, not_or]
    exact ⟨⟨hlj.symm, hrj.symm, fun hc => (hnew _ hc).2.2 rfl⟩,
      ⟨hlr, fun hc => (hnew _ hc).1 rfl⟩, fun hc => (hnew _ hc).2.1 rfl, hh.isLadder.nodup⟩
  refine ⟨level, h'', hok, .level (hh.isLadder.of_keptBy hkept) hrungs.1 hrungs.2.1 hrungs.2.2
    hnodup, fun c e he => hkept c e (hh.kept c e he), fun c hc => ?_, ?_⟩
  · obtain ⟨hleft, hright, hjoin⟩ := hnext
    rw [IsDefined, hsize] at hc
    have hcases : c.index < h'.size ∨ c.index = level.left.index ∨
        c.index = level.right.index ∨ c.index = level.join.index := by omega
    simp only [members, List.mem_cons, ClassId.index_inj] at hcases ⊢
    rcases hcases with hc | rfl | rfl | rfl
    · exact (hh.cases c hc).imp_right fun hc => Or.inr (Or.inr (Or.inr hc))
    all_goals simp
  · rw [hsize, hh.size, List.length_cons]
    omega

/-- As many levels as asked for can be added to a ladder if there are identifiers for them.

**Proof sketch.** Induction on the number of levels. The level that is added first becomes the
highest, so it counts among those below for the others. -/
private lemma exists_ladderLevels {height : Nat} (hh : h.AddsLadder bottom levels h')
    (hs : h'.size + 3 * height ≤ ClassId.limit) (number : Nat) :
    ∃ added h'', ladderLevels number (top bottom levels) height h' = .ok (added, h'') ∧
      added.length = height ∧ h.AddsLadder bottom (added.reverse ++ levels) h'' := by
  induction height generalizing h' levels number with
  | zero => exact ⟨[], h', rfl, rfl, hh⟩
  | succ height ih =>
    obtain ⟨level, h₁, hok₁, hh₁⟩ := exists_level hh (by omega) number
    have hsize : h₁.size = h'.size + 3 := by
      rw [hh₁.size, hh.size, List.length_cons]
      omega
    obtain ⟨added, h₂, hok₂, hlen, hh₂⟩ := ih hh₁ (by omega) (number + 1)
    refine ⟨level :: added, h₂, ?_, by rw [List.length_cons, hlen], ?_⟩
    · exact bind_eq_ok_iff.2 ⟨_, hok₁, bind_eq_ok_iff.2 ⟨_, hok₂, rfl⟩⟩
    · rwa [List.reverse_cons, List.append_assoc]

/-- A ladder of any height can be added if there are identifiers for its classes. The hierarchy has
no other new classes.

**Proof sketch.** The bottom is a ladder without levels, and `exists_ladderLevels` adds levels to
it. -/
theorem exists_ladder {height : Nat} (hs : h.size + 1 + 3 * height ≤ ClassId.limit) :
    ∃ l h', ladder height h = .ok (l, h') ∧ l.levels.length = height ∧
      h.AddsLadder l.bottom l.levels.reverse h' := by
  obtain ⟨h₁, hok₁, hsize, hbottom, hkept⟩ :=
    exists_defineRung (h := h) rfl (by omega) "D0"
  have hh₁ : h.AddsLadder (.ofIndex h.size) [] h₁ := by
    refine ⟨.bottom ⟨_, hbottom⟩, hkept, fun c hc => ?_, hsize⟩
    rw [IsDefined, hsize] at hc
    rcases Nat.lt_succ_iff_lt_or_eq.1 hc with hc | hc
    · exact Or.inl hc
    · exact Or.inr (by simp [members, ← hc])
  obtain ⟨added, h₂, hok₂, hlen, hh₂⟩ := exists_ladderLevels hh₁ (hsize ▸ hs) 1
  refine ⟨⟨_, added⟩, h₂, ?_, hlen, by rwa [List.append_nil] at hh₂⟩
  exact bind_eq_ok_iff.2 ⟨_, hok₁, bind_eq_ok_iff.2 ⟨_, hok₂, rfl⟩⟩

end Edit

end GenericSlots
