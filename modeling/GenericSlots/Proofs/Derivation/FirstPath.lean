import GenericSlots.Derivation
import GenericSlots.Proofs.Failure
set_option autoImplicit false

/-!
# The search for the first path

The search for the first path enters each class at most once, while the enumeration of all paths
enters a class again on every path that does not pass it yet. The search still finds the first path
of the enumeration, even if bases form cycles.

A class that was left without success may have failed only because of the classes that were being
visited at that time. What is left unexplored in this way leads to the target through one of those
classes or not at all. The classes being visited are explored to the end themselves, so entering the
class once more finds nothing.

## Main definitions

* `GenericSlots.Hierarchy.LeadsTo`: some walk of declared bases leads to the target and avoids given
  classes on its way.
* `GenericSlots.Hierarchy.Explored`: classes were entered, and those that were left again lead to
  the target only through classes being visited.

## Main results

* `GenericSlots.Hierarchy.exists_mem_pathsFrom_iff`: the enumeration has a path if there is a walk.
* `GenericSlots.Hierarchy.firstPath_trailsFrom`: what the search makes of the bases of a class.
* `GenericSlots.Hierarchy.path_eq_head?_paths`: the search finds the first path of the enumeration.
-/

namespace GenericSlots

namespace Hierarchy

/-! ## Walks -/

/-- Some walk of declared bases leads from a class to the target. On its way it passes only classes
that are defined and not to be avoided. Where it starts and ends is free, and it may pass a class
more than once, which makes walks easier to put together than paths. -/
inductive LeadsTo (h : Hierarchy) (target : ClassId) (avoid : List ClassId) : ClassId → Prop
  /-- The class declares the target as a base. -/
  | direct {c : ClassId} {b : Instance} (declared : b ∈ h.basesOf c) (reached : b.cls = target) :
      LeadsTo h target avoid c
  /-- The class declares a base that leads to the target. -/
  | step {c : ClassId} {b : Instance} (declared : b ∈ h.basesOf c) (defined : h.IsDefined b.cls)
      (passable : b.cls ∉ avoid) (onward : LeadsTo h target avoid b.cls) :
      LeadsTo h target avoid c

variable {h : Hierarchy} {target c : ClassId} {avoid visiting seen : List ClassId}

/-- A walk that avoids more classes avoids fewer. -/
lemma LeadsTo.mono {avoid' : List ClassId} (hsub : ∀ a ∈ avoid, a ∈ avoid')
    (hw : h.LeadsTo target avoid' c) : h.LeadsTo target avoid c := by
  induction hw with
  | direct hb ht => exact .direct hb ht
  | step hb hd ha _ ih => exact .step hb hd (fun hmem => ha (hsub _ hmem)) ih

/-- A walk avoids one more class, or else the walk that is left from that class on does.

**Proof sketch.** Induction on the walk. If what is left after its first base avoids the class, so
does the whole walk, unless that base is the class itself; and then what is left is a walk from that
class on. -/
lemma LeadsTo.avoid_or (hw : h.LeadsTo target avoid c) (a : ClassId) :
    h.LeadsTo target (a :: avoid) c ∨ h.LeadsTo target (a :: avoid) a := by
  induction hw with
  | direct hb ht => exact Or.inl (.direct hb ht)
  | @step c b hb hd ha _ ih =>
    rcases ih with hrest | hrest
    · by_cases hba : b.cls = a
      · exact Or.inr (hba ▸ hrest)
      · exact Or.inl (.step hb hd (by simp [hba, ha]) hrest)
    · exact Or.inr hrest

/-- A walk need not come back to where it starts: what is left from the last time that it does is a
walk as well. -/
lemma leadsTo_cons_self_iff : h.LeadsTo target (c :: avoid) c ↔ h.LeadsTo target avoid c := by
  constructor
  · exact LeadsTo.mono fun a ha => List.mem_cons_of_mem _ ha
  · intro hw
    rcases hw.avoid_or c with hw | hw
    · exact hw
    · exact hw

/-! ## All paths -/

/-- The paths that start with a given base. The enumeration of all paths is put together from these,
one base after another. -/
def pathsVia (h : Hierarchy) (target : ClassId) (visiting : List ClassId) (b : Instance) :
    List (List ClassId) :=
  if b.cls = target then
    [[target]]
  else if h.IsDefined b.cls ∧ b.cls ∉ visiting then
    (h.pathsFrom target (b.cls :: visiting) b.cls).map (b.cls :: ·)
  else
    []

/-- All paths are those that start with each base in turn, in the order of declarations. -/
lemma pathsFrom_eq_flatMap (h : Hierarchy) (target : ClassId) (visiting : List ClassId)
    (c : ClassId) :
    h.pathsFrom target visiting c = (h.basesOf c).flatMap (h.pathsVia target visiting) := by
  rw [pathsFrom]
  rfl

/-- There is a path that avoids the classes being visited exactly if there is a walk that does.

**Proof sketch.** Induction on the enumeration. A walk goes on from its first base without coming
back to that base, so the enumeration below the base has a path. -/
theorem exists_mem_pathsFrom_iff :
    (∃ p, p ∈ h.pathsFrom target visiting c) ↔ h.LeadsTo target visiting c := by
  induction visiting, c using pathsFrom.induct h with
  | case1 visiting c ih =>
    have hvia : ∀ b, b.cls ≠ target → h.IsDefined b.cls ∧ b.cls ∉ visiting →
        ((∃ p, p ∈ h.pathsVia target visiting b) ↔ h.LeadsTo target visiting b.cls) := by
      intro b hne hb
      rw [← leadsTo_cons_self_iff, ← ih b hb, pathsVia, if_neg hne, if_pos hb]
      constructor
      · rintro ⟨p, hp⟩
        obtain ⟨rest, hrest, -⟩ := List.mem_map.1 hp
        exact ⟨rest, hrest⟩
      · rintro ⟨rest, hrest⟩
        exact ⟨b.cls :: rest, List.mem_map_of_mem hrest⟩
    simp only [pathsFrom_eq_flatMap, List.mem_flatMap]
    constructor
    · rintro ⟨p, b, hdeclared, hp⟩
      by_cases ht : b.cls = target
      · exact .direct hdeclared ht
      · by_cases hb : h.IsDefined b.cls ∧ b.cls ∉ visiting
        · exact .step hdeclared hb.1 hb.2 ((hvia b ht hb).1 ⟨p, hp⟩)
        · rw [pathsVia, if_neg ht, if_neg hb] at hp
          cases hp
    · intro hw
      cases hw with
      | @direct _ b hdeclared ht => exact ⟨[target], b, hdeclared, by simp [pathsVia, ht]⟩
      | @step _ b hdeclared hd ha onward =>
        by_cases ht : b.cls = target
        · exact ⟨[target], b, hdeclared, by simp [pathsVia, ht]⟩
        · obtain ⟨p, hp⟩ := (hvia b ht ⟨hd, ha⟩).2 onward
          exact ⟨p, b, hdeclared, hp⟩

/-- The enumeration is empty exactly if there is no walk to the target that avoids the classes being
visited. -/
lemma pathsFrom_eq_nil_iff :
    h.pathsFrom target visiting c = [] ↔ ¬h.LeadsTo target visiting c := by
  rw [← exists_mem_pathsFrom_iff, List.eq_nil_iff_forall_not_mem, not_exists]

/-! ## Explored classes -/

/-- The classes seen by a search include those being visited, and the others lead to the target only
through classes being visited. This is the invariant of the search: it says that skipping a class
that was seen misses nothing. -/
structure Explored (h : Hierarchy) (target : ClassId) (visiting seen : List ClassId) : Prop where
  /-- The classes being visited are seen. -/
  visited : ∀ a ∈ visiting, a ∈ seen
  /-- The classes that were left again lead nowhere else. -/
  spent : ∀ a ∈ seen, a ∉ visiting → ¬h.LeadsTo target visiting a

/-- Nothing is spent at the start of a search, when all classes seen are being visited. -/
lemma explored_self (h : Hierarchy) (target : ClassId) (visiting : List ClassId) :
    h.Explored target visiting visiting where
  visited _ ha := ha
  spent _ ha hnot := absurd ha hnot

/-- Entering a class spends no class. It is seen and being visited from now on, and what led nowhere
before leads nowhere while more classes are to be avoided. -/
lemma Explored.enter (he : h.Explored target visiting seen) (c : ClassId) :
    h.Explored target (c :: visiting) (c :: seen) where
  visited a ha := by
    rcases List.mem_cons.1 ha with rfl | ha
    · exact List.mem_cons_self
    · exact List.mem_cons_of_mem _ (he.visited a ha)
  spent a ha hnot hw := by
    rw [List.mem_cons, not_or] at hnot
    have ha' : a ∈ seen := (List.mem_cons.1 ha).resolve_left hnot.1
    exact he.spent a ha' hnot.2 (hw.mono fun b hb => List.mem_cons_of_mem _ hb)

/-- Leaving a class that leads nowhere spends it and unblocks no class.

**Proof sketch.** A class that leads to the target only through the class left behind would make
that class lead there. -/
lemma Explored.leave (he : h.Explored target (c :: visiting) seen)
    (hc : ¬h.LeadsTo target visiting c) : h.Explored target visiting seen where
  visited a ha := he.visited a (List.mem_cons_of_mem _ ha)
  spent a ha hnot hw := by
    by_cases hac : a = c
    · exact hc (hac ▸ hw)
    · rcases hw.avoid_or c with hw | hw
      · exact he.spent a ha (by simp [hac, hnot]) hw
      · exact hc (leadsTo_cons_self_iff.1 hw)

/-! ## The search -/

/-- What the search makes of one base, given what it makes of the bases of that base: it finds the
first of the paths that start with the base, or goes on without having missed any.

**Proof sketch.** If the base is the target, the path ends there. If it may be entered, the search
works off its bases by assumption, and if they lead nowhere it leaves the base and goes on. A base
that was seen before is either being visited, so no path may pass it, or spent, so no path is
missed. -/
private lemma firstPath_cons (he : h.Explored target visiting seen) (b : Instance)
    (ih : h.IsDefined b.cls ∧ b.cls ∉ visiting →
      ∀ seen way rest, h.Explored target (b.cls :: visiting) seen →
        ∃ seen', h.Explored target (b.cls :: visiting) seen' ∧
          h.firstPath target seen (h.trailsFrom b.cls way ++ rest) =
            ((h.pathsFrom target (b.cls :: visiting) b.cls).head?.map (way.reverse ++ ·)).or
              (h.firstPath target seen' rest))
    (way : List ClassId) (rest : List Trail) :
    ∃ seen', h.Explored target visiting seen' ∧
      h.firstPath target seen (⟨b.cls, way⟩ :: rest) =
        ((h.pathsVia target visiting b).head?.map (way.reverse ++ ·)).or
          (h.firstPath target seen' rest) := by
  rw [firstPath]
  by_cases ht : b.cls = target
  · -- the base ends a path, whether it was seen or not
    refine ⟨seen, he, ?_⟩
    simp [pathsVia, Trail.path, ht]
  rw [if_neg ht]
  by_cases hfresh : h.IsDefined b.cls ∧ b.cls ∉ seen
  · have hb : h.IsDefined b.cls ∧ b.cls ∉ visiting :=
      ⟨hfresh.1, fun hmem => hfresh.2 (he.visited _ hmem)⟩
    obtain ⟨seen', he', hfirst⟩ :=
      ih hb (b.cls :: seen) (b.cls :: way) rest (he.enter b.cls)
    rw [dif_pos hfresh, hfirst, pathsVia, if_neg ht, if_pos hb, List.head?_map]
    cases hpaths : h.pathsFrom target (b.cls :: visiting) b.cls with
    | nil =>
      -- the base is left without success, and spent from here on
      have hdead : ¬h.LeadsTo target visiting b.cls := by
        rw [← leadsTo_cons_self_iff, ← pathsFrom_eq_nil_iff, hpaths]
      exact ⟨seen', he'.leave hdead, rfl⟩
    | cons p ps => exact ⟨seen, he, by simp⟩
  · -- a class that is skipped starts no path: it is undefined, being visited or spent
    have hnone : h.pathsVia target visiting b = [] := by
      rw [pathsVia, if_neg ht]
      by_cases hb : h.IsDefined b.cls ∧ b.cls ∉ visiting
      · have hseen : b.cls ∈ seen := Decidable.not_not.1 fun hnot => hfresh ⟨hb.1, hnot⟩
        rw [if_pos hb, List.map_eq_nil_iff, pathsFrom_eq_nil_iff, leadsTo_cons_self_iff]
        exact he.spent _ hseen hb.2
      · rw [if_neg hb]
    refine ⟨seen, he, ?_⟩
    rw [dif_neg hfresh, hnone]
    rfl

/-- What the search makes of the bases of a class: it finds the first of the paths from the class
that avoid the classes being visited, or goes on without having missed any.

**Proof sketch.** Induction on the enumeration of paths, and within it on the bases of the class.
The classes explored so far are those for one base after the other. -/
theorem firstPath_trailsFrom (he : h.Explored target visiting seen) (way : List ClassId)
    (rest : List Trail) :
    ∃ seen', h.Explored target visiting seen' ∧
      h.firstPath target seen (h.trailsFrom c way ++ rest) =
        ((h.pathsFrom target visiting c).head?.map (way.reverse ++ ·)).or
          (h.firstPath target seen' rest) := by
  induction visiting, c using pathsFrom.induct h generalizing seen way rest with
  | case1 visiting c ih =>
    rw [pathsFrom_eq_flatMap, trailsFrom]
    induction h.basesOf c generalizing seen with
    | nil => exact ⟨seen, he, rfl⟩
    | cons b bs ihbs =>
      obtain ⟨seen₁, he₁, hfirst⟩ := firstPath_cons he b
        (fun hb _ way rest he => ih b hb he way rest) way
        (bs.map (fun b => ⟨b.cls, way⟩) ++ rest)
      obtain ⟨seen₂, he₂, hrest⟩ := ihbs he₁
      refine ⟨seen₂, he₂, ?_⟩
      rw [List.map_cons, List.cons_append, hfirst, hrest, List.flatMap_cons, List.head?_append,
        Option.map_or, Option.or_assoc]

/-- The path that is found from a class to another is the first of all paths that pass no class
twice, and no path is found exactly if there are none. So although the search enters each class at
most once, it does not depend on where else it has been.

**Proof sketch.** This is `firstPath_trailsFrom` at the start of the search, where only the class
itself was seen and no other trails are left. -/
theorem path_eq_head?_paths (hc : h.IsDefined c) (target : ClassId) :
    ∃ paths, h.paths c target = .ok paths ∧ h.path c target = .ok paths.head? ∧
      (h.path c target = .ok none ↔ paths = []) := by
  obtain ⟨d, hd⟩ := isDefined_iff.1 hc
  have hget : h.get c = .ok d := get_eq_ok_iff.2 hd
  obtain ⟨seen, -, hfirst⟩ := firstPath_trailsFrom (c := c) (h.explored_self target [c]) [] []
  have hpath : h.path c target = .ok (h.pathsFrom target [c] c).head? := by
    rw [path, hget, ok_bind, ← List.append_nil (h.trailsFrom c []), hfirst]
    simp [firstPath]
    rfl
  refine ⟨h.pathsFrom target [c] c, ?_, hpath, ?_⟩
  · rw [paths, hget]
    rfl
  · rw [hpath, Except.ok.injEq, List.head?_eq_none_iff]

/-- Four classes below the class that every hierarchy starts with. The hub extends the loop twice, a
class that does not exist and the end, in this order. The loop leads back to the hub. -/
def knot : Hierarchy where
  classes := #[
    .fresh "object" .object,
    { ClassDef.fresh "entry" ⟨1⟩ with bases := [⟨⟨2⟩, []⟩] },
    { ClassDef.fresh "hub" ⟨2⟩ with
      bases := [⟨⟨3⟩, []⟩, ⟨⟨9⟩, []⟩, ⟨⟨3⟩, []⟩, ⟨⟨4⟩, []⟩] },
    { ClassDef.fresh "loop" ⟨3⟩ with bases := [⟨⟨2⟩, []⟩] },
    .fresh "end" ⟨4⟩]
  names := ∅

/-- The loop is left without success on the way from the entry to the end, and skipped
afterwards. -/
theorem path_eq_head?_paths_knot :
    ∃ paths, knot.paths ⟨1⟩ ⟨4⟩ = .ok paths ∧ knot.path ⟨1⟩ ⟨4⟩ = .ok paths.head? ∧
      (knot.path ⟨1⟩ ⟨4⟩ = .ok none ↔ paths = []) :=
  path_eq_head?_paths (by decide) ⟨4⟩

end Hierarchy

end GenericSlots
