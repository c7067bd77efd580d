import GenericSlots.Slot.Construction
import GenericSlots.Proofs.Slot.Queries
set_option autoImplicit false

/-!
# Laying out a hierarchy is recursion

The layouts of a hierarchy are computed class by class, in the order of identifiers, where each
climb may start anywhere in a primary chain and stops at a class that is laid out already. Whatever
the order, each layout is the one that recursion along the primary bases gives.

## Main definitions

* `GenericSlots.Layouts.Sound`: layouts computed so far that are all as recursion gives them.
* `GenericSlots.Twisted.hierarchy`, `GenericSlots.Twisted.table`: a small hierarchy with its slots.

## Main results

* `GenericSlots.Hierarchy.layOut_eq_ok_iff`: what it takes for a class to be laid out.
* `GenericSlots.Hierarchy.layOutAll_sound`, `GenericSlots.Hierarchy.layOutChains_sound`: laying out
  classes keeps the layouts sound and covers all classes given.
* `GenericSlots.SlotTable.describes_of_build`: the table of a hierarchy holds the layouts of all its
  classes.

## Implementation notes

The order in which classes are laid out plays no part: a class is laid out only if its primary base
is, and the layout of the base is then the only one that it can have.
-/

namespace GenericSlots

/-- The check of type parameters passes if their identifiers are positive, differ from each other
and were not seen before.

**Proof sketch.** By induction on the type parameters, with those seen before kept general. If the
first one is valid, its identifier is added to those seen, and the others have to differ from it. If
it is not, the check fails, and so does the condition. -/
lemma TypeParam.firstInvalid?_eq_none_iff {seen : List VarId} {ps : List TypeParam} :
    TypeParam.firstInvalid? seen ps = none ↔ (∀ p ∈ ps, p.id.isClassParameter = true) ∧
      (ps.map TypeParam.id).Nodup ∧ ∀ p ∈ ps, p.id ∉ seen := by
  induction ps generalizing seen with
  | nil => simp [TypeParam.firstInvalid?]
  | cons p ps ih =>
    rw [TypeParam.firstInvalid?]
    by_cases hp : p.id.isClassParameter = true ∧ p.id ∉ seen
    · rw [if_pos hp, ih]
      simp only [List.mem_cons, List.map_cons, List.nodup_cons, List.mem_map]
      grind
    · rw [if_neg hp]
      simp only [List.mem_cons, reduceCtorEq, false_iff]
      grind

namespace Layouts

/-- The layouts computed so far are those of their classes, and there is a place for each class.
This is the invariant of laying out a hierarchy: it holds at first and is kept by each class that is
laid out. -/
structure Sound (h : Hierarchy) (policy : SlotPolicy) (ls : Layouts) : Prop where
  /-- There is a place for each class. -/
  size_eq : ls.size = h.size
  /-- Each layout is the one that recursion gives. -/
  hasLayout : ∀ c l, ls.of? c = some l → h.HasLayout policy c l

/-- Nothing is laid out at first, and there is a place for each class. -/
lemma sound_replicate (h : Hierarchy) (policy : SlotPolicy) :
    Sound h policy (Array.replicate h.size none) where
  size_eq := Array.size_replicate
  hasLayout c l hl := by
    rw [of?, Array.getElem?_replicate] at hl
    split at hl <;> cases hl

/-- Setting the layout of a class leaves those of the others as they are. -/
lemma of?_set {ls : Layouts} {c : ClassId} (hc : c.index < ls.size) (d : ClassId) (l : Layout) :
    of? (ls.setIfInBounds c.index (some l)) d = if c = d then some l else ls.of? d := by
  rw [of?, Array.getElem?_setIfInBounds]
  by_cases hcd : c = d
  · subst hcd
    simp [hc]
  · have hne : c.index ≠ d.index := fun heq => hcd (ClassId.index_inj.1 heq)
    rw [if_neg hne, if_neg hcd, of?]

variable {h : Hierarchy} {policy : SlotPolicy} {ls : Layouts} {c : ClassId} {l : Layout}

/-- A class with a layout has a place for it, since it is defined and there are as many places as
classes. -/
lemma Sound.index_lt (hls : ls.Sound h policy) (hl : h.HasLayout policy c l) :
    c.index < ls.size := by
  obtain ⟨d, hd⟩ := hl.checked
  rw [hls.size_eq]
  exact Hierarchy.isDefined_iff.2 ⟨d, hd.find⟩

/-- Laying out one more class keeps the layouts sound, if the class is given its layout. -/
lemma Sound.set (hls : ls.Sound h policy) (hl : h.HasLayout policy c l) :
    Sound h policy (ls.setIfInBounds c.index (some l)) where
  size_eq := by rw [Array.size_setIfInBounds, hls.size_eq]
  hasLayout d l' hd := by
    rw [of?_set (hls.index_lt hl)] at hd
    by_cases hcd : c = d
    · rw [if_pos hcd] at hd
      rwa [← hcd, ← Option.some.inj hd]
    · rw [if_neg hcd] at hd
      exact hls.hasLayout d l' hd

end Layouts

namespace Hierarchy

variable {h : Hierarchy} {policy : SlotPolicy} {ls : Layouts} {c : ClassId} {l : Layout}

/-- A class that is laid out passes its checks. Each of the first three steps would have refused it
otherwise.

**Proof sketch.** The computation is opened step by step. If the class were not defined, had an
invalid type parameter or were not the first of its ancestors, it would not have succeeded. -/
lemma checked_of_layOut (hok : h.layOut policy ls c = .ok l) : ∃ d, h.Checked c d := by
  unfold layOut at hok
  obtain ⟨d, hd, hok⟩ := bind_eq_ok_iff.1 hok
  rw [liftM_eq_ok_iff, get_eq_ok_iff] at hd
  cases hp : TypeParam.firstInvalid? [] d.params with
  | some p =>
    rw [hp] at hok
    cases hok
  | none =>
    by_cases hhead : d.ancestors.head? = some c
    · obtain ⟨hpos, hnodup, -⟩ := TypeParam.firstInvalid?_eq_none_iff.1 hp
      exact ⟨d, hd, hpos, hnodup, hhead⟩
    · rw [hp] at hok
      simp only [hhead, ne_eq, not_false_eq_true, if_true] at hok
      cases hok

/-- What is left to do once a class has passed its checks: nothing for a class without bases, and
the checks on the primary base otherwise. -/
private lemma layOut_of_checked {d : ClassDef} (hd : h.Checked c d) :
    h.layOut policy ls c =
      match d.primaryBase? with
      | none => .ok (.root c d.arity)
      | some base => do
        let b ← h.get base.cls
        if base.args.length ≠ b.arity then
          refuse (.invalidBase d.name b.name b.arity base.args.length)
        match ls.of? base.cls with
        | none => refuse (.cyclicHierarchy d.name)
        | some lb =>
          unless lb.chain.all fun a => a ∈ d.ancestors do
            refuse (.invalidAncestors d.name)
          return lb.extend c (d.params.map TypeParam.id)
            (policy.reusedSlot? base.args lb.paramSlots) := by
  have hp : TypeParam.firstInvalid? [] d.params = none :=
    TypeParam.firstInvalid?_eq_none_iff.2 ⟨hd.positive, hd.nodup, by simp⟩
  have hget : h.get c = .ok d := get_eq_ok_iff.2 hd.find
  simp only [layOut, hget, liftM_ok, ok_bind, hp, hd.head, ne_eq, not_true_eq_false, if_false]
  cases d.primaryBase? <;> rfl

/-- A class is laid out exactly if it passes its checks, and its primary base is laid out, has as
many arguments as it needs and brings a chain that is listed among the ancestors.

**Proof sketch.** From left to right, a class that is laid out passes its checks. What is left of
the computation is opened by cases on the primary base, its arity check, its layout and the check of
ancestors. All cases in which a check fails contradict the success. From right to left, every check
is known to pass. -/
theorem layOut_eq_ok_iff :
    h.layOut policy ls c = .ok l ↔ ∃ d, h.Checked c d ∧
      (d.primaryBase? = none ∧ l = .root c d.arity ∨
        ∃ base b lb, d.primaryBase? = some base ∧ h.find? base.cls = some b ∧
          base.args.length = b.arity ∧ ls.of? base.cls = some lb ∧
          (∀ a ∈ lb.chain, a ∈ d.ancestors) ∧
          l = lb.extend c (d.params.map TypeParam.id)
            (policy.reusedSlot? base.args lb.paramSlots)) := by
  constructor
  · intro hok
    obtain ⟨d, hd⟩ := checked_of_layOut hok
    refine ⟨d, hd, ?_⟩
    rw [layOut_of_checked hd] at hok
    cases hb : d.primaryBase? with
    | none =>
      rw [hb] at hok
      exact Or.inl ⟨rfl, (Except.ok.inj hok).symm⟩
    | some base =>
      simp only [hb] at hok
      obtain ⟨b, hfind, hok⟩ := bind_eq_ok_iff.1 hok
      rw [liftM_eq_ok_iff, get_eq_ok_iff] at hfind
      by_cases harity : base.args.length = b.arity
      · simp only [harity, not_true_eq_false, if_false, ne_eq] at hok
        cases hlb : ls.of? base.cls with
        | none =>
          rw [hlb] at hok
          cases hok
        | some lb =>
          simp only [hlb] at hok
          by_cases hall : lb.chain.all (fun a => a ∈ d.ancestors) = true
          · rw [if_pos hall] at hok
            exact Or.inr ⟨base, b, lb, rfl, hfind, harity, hlb, by simpa using hall,
              (Except.ok.inj hok).symm⟩
          · rw [if_neg hall] at hok
            cases hok
      · rw [if_pos harity] at hok
        cases hok
  · rintro ⟨d, hd, hbase⟩
    rw [layOut_of_checked hd]
    rcases hbase with ⟨hb, rfl⟩ | ⟨base, b, lb, hb, hfind, harity, hlb, hlisted, rfl⟩
    · rw [hb]
    · have hget : h.get base.cls = .ok b := get_eq_ok_iff.2 hfind
      have hall : lb.chain.all (fun a => a ∈ d.ancestors) = true := by simpa using hlisted
      simp only [hb, hget, liftM_ok, ok_bind, harity, hlb, hall, ne_eq, not_true_eq_false, if_false,
        if_true]
      rfl

/-- Where the layouts computed so far are sound, a class is given the layout that recursion
gives. -/
lemma hasLayout_of_layOut (hls : ls.Sound h policy) (hok : h.layOut policy ls c = .ok l) :
    h.HasLayout policy c l := by
  obtain ⟨d, hd, ⟨hb, rfl⟩ | ⟨base, b, lb, hb, hfind, harity, hlb, hlisted, rfl⟩⟩ :=
    layOut_eq_ok_iff.1 hok
  · exact .root hd hb
  · exact .extend hd hb hfind harity (hls.hasLayout _ _ hlb) hlisted

/-- Laying out classes keeps the layouts sound and those there are, and covers the classes given.

**Proof sketch.** By induction on the classes, with the layouts kept general. Each is given the
layout that recursion gives, so the layouts are sound for those that follow. No layout is taken away
again, so the classes laid out before stay covered. -/
theorem layOutAll_sound {ls' : Layouts} {cs : List ClassId} (hls : ls.Sound h policy)
    (hok : (h.layOutAll policy ls cs).result = .ok ls') :
    ls'.Sound h policy ∧ ∀ c, c ∈ cs ∨ (ls.of? c).isSome → (ls'.of? c).isSome := by
  induction cs generalizing ls with
  | nil =>
    obtain rfl : ls = ls' := Except.ok.inj hok
    exact ⟨hls, by simp⟩
  | cons c cs ih =>
    rw [layOutAll, Run.result_bind, bind_eq_ok_iff] at hok
    obtain ⟨l, hl, hok⟩ := hok
    rw [Run.result_bind, Run.result_report, ok_bind] at hok
    have hlayout := hasLayout_of_layOut hls hl
    obtain ⟨hsound, hcover⟩ := ih (hls.set hlayout) hok
    refine ⟨hsound, fun a ha => hcover a ?_⟩
    rw [Layouts.of?_set (hls.index_lt hlayout)]
    by_cases hca : c = a
    · simp [hca]
    · rw [if_neg hca]
      rcases ha with ha | ha
      · exact Or.inl ((List.mem_cons.1 ha).resolve_left (Ne.symm hca))
      · exact Or.inr ha

/-- A climb passes its class, unless the class is laid out. It also keeps the classes passed before.

**Proof sketch.** By the recursion of the climb. It ends at a class that is laid out or has no
primary base, and passes each class before it goes on. If it fails there is nothing to show. -/
lemma mem_of_climb {walk w : List ClassId} (hok : h.climb ls walk c = .ok w) :
    (∀ a ∈ walk, a ∈ w) ∧ ((ls.of? c).isSome ∨ c ∈ w) := by
  fun_induction climb h ls walk c with
  | case1 walk c hsome =>
    obtain rfl : walk = w := Except.ok.inj hok
    exact ⟨fun _ ha => ha, Or.inl hsome⟩
  | case2 walk c hnone hc ih =>
    obtain ⟨d, -, hok⟩ := bind_eq_ok_iff.1 hok
    cases hb : d.primaryBase? with
    | none =>
      simp only [hb] at hok
      obtain rfl : c :: walk = w := Except.ok.inj hok
      exact ⟨fun _ ha => List.mem_cons_of_mem _ ha, Or.inr List.mem_cons_self⟩
    | some base =>
      simp only [hb] at hok
      by_cases hdef : h.IsDefined base.cls
      · rw [if_pos hdef] at hok
        obtain ⟨hwalk, -⟩ := ih base hok
        exact ⟨fun a ha => hwalk a (List.mem_cons_of_mem _ ha), Or.inr (hwalk c List.mem_cons_self)⟩
      · rw [if_neg hdef] at hok
        cases hok
  | case3 walk c hnone hc =>
    obtain ⟨name, -, hok⟩ := bind_eq_ok_iff.1 hok
    cases hok

/-- Laying out classes with their primary chains keeps the layouts sound and those there are, and
covers the classes given.

**Proof sketch.** By induction on the classes, with the layouts kept general. The climb passes the
first class or finds it laid out. In both cases it is covered once the classes of the climb are laid
out, and it stays covered. -/
theorem layOutChains_sound {ls' : Layouts} {cs : List ClassId} (hls : ls.Sound h policy)
    (hok : (h.layOutChains policy ls cs).result = .ok ls') :
    ls'.Sound h policy ∧ ∀ c, c ∈ cs ∨ (ls.of? c).isSome → (ls'.of? c).isSome := by
  induction cs generalizing ls with
  | nil =>
    obtain rfl : ls = ls' := Except.ok.inj hok
    exact ⟨hls, by simp⟩
  | cons c cs ih =>
    rw [layOutChains, Run.result_bind, bind_eq_ok_iff] at hok
    obtain ⟨walk, hwalk, hok⟩ := hok
    rw [Run.result_bind, bind_eq_ok_iff] at hok
    obtain ⟨ls₁, hls₁, hok⟩ := hok
    obtain ⟨hsound₁, hcover₁⟩ := layOutAll_sound hls hls₁
    obtain ⟨hsound, hcover⟩ := ih hsound₁ hok
    refine ⟨hsound, fun a ha => hcover a ?_⟩
    rcases ha with ha | ha
    · rcases List.mem_cons.1 ha with rfl | ha
      · exact Or.inr (hcover₁ a (mem_of_climb hwalk).2.symm)
      · exact Or.inl ha
    · exact Or.inr (hcover₁ a (Or.inr ha))

end Hierarchy

namespace SlotTable

variable {h : Hierarchy} {policy : SlotPolicy} {t : SlotTable}

/-- Dropping places that are not taken changes nothing if all are taken. So the layouts stand in the
table at the places of their classes.

**Proof sketch.** By induction on the places. The first one is taken, so it stays in front, and the
others are counted on from there. -/
private lemma getElem?_filterMap_id {ls : Layouts} (hall : ∀ x ∈ ls, x.isSome = true) (n : Nat) :
    (ls.filterMap id)[n]? = ls[n]?.join := by
  obtain ⟨xs⟩ := ls
  simp only [List.mem_toArray, List.filterMap_toArray, List.getElem?_toArray] at hall ⊢
  induction xs generalizing n with
  | nil => rfl
  | cons x xs ih =>
    obtain ⟨l, rfl⟩ := Option.isSome_iff_exists.1 (hall x (by simp))
    have hcons : (some l :: xs).filterMap id = l :: xs.filterMap id := rfl
    rw [hcons]
    cases n with
    | zero => rfl
    | succ n => simpa using ih n fun y hy => hall y (by simp [hy])

/-- The table of a hierarchy below the limit of identifiers holds the layouts of all its classes.

**Proof sketch.** All identifiers of classes are enumerated, so each class is laid out, and the
layout is the one that recursion gives. As no place is left free, the places of the table are those
of the classes. -/
theorem describes_of_build (hs : h.size < ClassId.limit) (ht : (build h policy).result = .ok t) :
    t.policy = policy ∧ t.Describes h := by
  rw [build, Run.result_bind, bind_eq_ok_iff] at ht
  obtain ⟨ls, hls, ht⟩ := ht
  rw [Run.result_bind, Run.result_report, ok_bind] at ht
  obtain rfl : SlotTable.mk policy (ls.filterMap id) = t := Except.ok.inj ht
  obtain ⟨hsound, hcover⟩ := Hierarchy.layOutChains_sound (Layouts.sound_replicate h policy) hls
  have hlaid : ∀ c, h.IsDefined c → (ls.of? c).isSome := fun c hc =>
    hcover c (Or.inl ((Hierarchy.mem_classIds hs).2 hc))
  have hall : ∀ x ∈ ls, x.isSome = true := by
    intro x hx
    obtain ⟨n, hn, rfl⟩ := Array.mem_iff_getElem.1 hx
    have hlt : n < h.size := hsound.size_eq ▸ hn
    have hindex : (ClassId.ofIndex n).index = n :=
      ClassId.index_ofIndex (Nat.lt_trans hlt hs)
    have hsome := hlaid (.ofIndex n) (by rwa [Hierarchy.IsDefined, hindex])
    rw [Layouts.of?, hindex, Array.getElem?_eq_getElem hn] at hsome
    exact hsome
  refine ⟨rfl, ?_⟩
  intro c hc
  obtain ⟨l, hl⟩ := Option.isSome_iff_exists.1 (hlaid c hc)
  refine ⟨l, ?_, hsound.hasLayout c l hl⟩
  rw [getElem?_filterMap_id hall]
  exact hl

/-- At the limit of identifiers the number of classes wraps around, so no class is enumerated and
none is laid out. The table that is made is empty, and no check is carried out on the way. -/
lemma build_of_size_eq_limit (hs : h.size = ClassId.limit) (policy : SlotPolicy) :
    (build h policy).result = .ok ⟨policy, #[]⟩ := by
  have hempty : (Array.replicate h.size (none : Option Layout)).filterMap id = #[] :=
    Array.filterMap_replicate_of_none rfl
  rw [build, Hierarchy.classIds_of_size_eq_limit hs, ← hempty]
  rfl

/-- A hierarchy that has a layout is below the limit of identifiers, since the table at the limit is
empty. -/
lemma size_lt_of_layout (hs : h.size ≤ ClassId.limit) (ht : (build h policy).result = .ok t)
    {c : ClassId} {l : Layout} (hl : t.layout h c = .ok l) : h.size < ClassId.limit := by
  refine Nat.lt_of_le_of_ne hs fun heq => ?_
  rw [build_of_size_eq_limit heq] at ht
  obtain rfl : SlotTable.mk policy #[] = t := Except.ok.inj ht
  simp [layout, refuse] at hl

/-- The table of a hierarchy that holds the layout of some class holds those of all classes. One
answer is enough to know that the limit has not been reached. -/
lemma describes_of_layout (hs : h.size ≤ ClassId.limit) (ht : (build h policy).result = .ok t)
    {c : ClassId} {l : Layout} (hl : t.layout h c = .ok l) : t.policy = policy ∧ t.Describes h :=
  describes_of_build (size_lt_of_layout hs ht hl) ht

end SlotTable

/-! ## An example

All classes take the identifiers of their type parameters from the same two, so an identifier stands
for another type parameter in each class. -/

namespace Twisted

/-- A class without bases and with two type parameters. -/
def pair : ClassDef :=
  ⟨"Pair", false, [⟨"A", ⟨1⟩⟩, ⟨"B", ⟨2⟩⟩], [], [⟨1⟩]⟩

/-- A class that swaps the type parameters of `pair`, with a base that closes a cycle. The cycle
does not count, because this base is not the primary one. -/
def flip : ClassDef :=
  ⟨"Flip", false, [⟨"A", ⟨2⟩⟩, ⟨"B", ⟨1⟩⟩], [⟨⟨1⟩, [.var ⟨1⟩, .var ⟨2⟩]⟩, ⟨⟨4⟩, [.any]⟩],
    [⟨2⟩, ⟨1⟩]⟩

/-- A class that passes one type parameter to both of those of `flip` and the other to none, with a
base that is not defined and one without arguments. So one of its type parameters shares a slot and
the other opens one. -/
def twin : ClassDef :=
  ⟨"Twin", false, [⟨"T", ⟨2⟩⟩, ⟨"U", ⟨1⟩⟩],
    [⟨⟨2⟩, [.var ⟨2⟩, .var ⟨2⟩]⟩, ⟨⟨9⟩, []⟩, ⟨⟨1⟩, []⟩], [⟨3⟩, ⟨2⟩, ⟨1⟩]⟩

/-- A class that passes its type parameter to `twin`, once inside another type and once alone. Only
the second position counts for sharing. -/
def leaf : ClassDef :=
  ⟨"Leaf", false, [⟨"V", ⟨1⟩⟩], [⟨⟨3⟩, [.inst ⟨1⟩ [.var ⟨1⟩, .any], .var ⟨1⟩]⟩],
    [⟨4⟩, ⟨3⟩, ⟨2⟩, ⟨1⟩]⟩

/-- The four classes below the class that every hierarchy starts with. They are valid, although some
of their bases are not defined or lead in a circle. -/
def hierarchy : Hierarchy where
  classes := #[.fresh "object" .object, pair, flip, twin, leaf]
  names := ∅

/-- The slots of the classes, where type parameters share them. -/
def table : SlotTable where
  policy := .shared
  layouts := #[
    ⟨#[⟨⟨0⟩, 0⟩], []⟩,
    ⟨#[⟨⟨1⟩, 2⟩], [0, 1]⟩,
    ⟨#[⟨⟨1⟩, 2⟩, ⟨⟨2⟩, 2⟩], [1, 0]⟩,
    ⟨#[⟨⟨1⟩, 2⟩, ⟨⟨2⟩, 2⟩, ⟨⟨3⟩, 3⟩], [1, 2]⟩,
    ⟨#[⟨⟨1⟩, 2⟩, ⟨⟨2⟩, 2⟩, ⟨⟨3⟩, 3⟩, ⟨⟨4⟩, 3⟩], [2]⟩]

/-- The table is the one that laying out the hierarchy gives, by evaluation. -/
lemma build_hierarchy : (SlotTable.build hierarchy .shared).result = .ok table := by
  decide +kernel

/-- The chain of the class at the bottom passes all classes but the first, by evaluation. -/
lemma chain_leaf : table.chain hierarchy ⟨4⟩ = .ok [⟨1⟩, ⟨2⟩, ⟨3⟩, ⟨4⟩] := by
  decide +kernel

end Twisted

end GenericSlots
