import GenericSlots.Slot.Construction
import GenericSlots.Proofs.Failure
import GenericSlots.Proofs.Slot.Placement
set_option autoImplicit false

/-!
# What decides whether a hierarchy is accepted

Laying out a hierarchy reads its primary bases, its type parameters and its ancestors, and follows a
policy. Whether it succeeds, and which error it ends with, hangs on less: of a primary base only the
class and the number of arguments count, and neither the other bases nor the policy do. For the
layouts computed on the way, only their chains count.

## Main definitions

* `GenericSlots.ClassDef.outline`: the parts of a class that count.
* `GenericSlots.Hierarchy.outlines`: the parts of all classes that count.
* `GenericSlots.SlotTable.verdict`: whether a hierarchy is accepted, and if not, why.

## Main results

* `GenericSlots.Hierarchy.climb_congr`, `GenericSlots.Hierarchy.layOut_congr`: the steps of laying
  out two hierarchies of the same outlines.
* `GenericSlots.SlotTable.verdict_congr`: hierarchies of the same outlines have the same verdict
  under all policies.
-/

namespace GenericSlots

/-! ## Outlines -/

/-- The parts of a class that decide whether it can be laid out. The name counts because errors
mention it. The bases other than the first are left out, and so are the arguments of the first
one. -/
structure ClassDef.Outline where
  /-- The name. -/
  name : String
  /-- The type parameters. -/
  params : List TypeParam
  /-- The class of the primary base and the number of its arguments. -/
  base? : Option (ClassId × Nat)
  /-- The ancestors. -/
  ancestors : List ClassId
  deriving DecidableEq

/-- The parts of a class that decide whether it can be laid out. Two classes may have the same
outline and be laid out differently, since the arguments of the primary base decide which slots are
shared. -/
def ClassDef.outline (d : ClassDef) : Outline where
  name := d.name
  params := d.params
  base? := d.primaryBase?.map fun base => (base.cls, base.args.length)
  ancestors := d.ancestors

/-- The parts of all classes that decide whether they can be laid out, in the order of
identifiers. -/
def Hierarchy.outlines (h : Hierarchy) : Array ClassDef.Outline :=
  h.classes.map ClassDef.outline

/-- The chains of the layouts computed so far. This is all of them that checks look at. -/
def Layouts.outline (ls : Layouts) : Array (Option (List ClassId)) :=
  ls.map (Option.map Layout.chain)

/-- Whether all classes of a hierarchy can be laid out, and the error if not. The table itself is
left out, since it depends on more than outlines. -/
def SlotTable.verdict (h : Hierarchy) (policy : SlotPolicy) : Except (Failure SlotError) Unit :=
  (build h policy).result.map fun _ => ()

/-! ## Reading outlines -/

namespace ClassDef

variable {d d' : ClassDef}

/-- Classes of the same outline have primary bases of the same class with as many arguments, or none
at all. Nothing more is known of the arguments.

**Proof sketch.** By cases on the primary base of the first class. The outlines agree in what they
say of the bases, so the other class has a base exactly if the first one does, of the same class and
with as many arguments. -/
lemma primaryBase?_of_outline (ho : d.outline = d'.outline) :
    d.primaryBase? = none ∧ d'.primaryBase? = none ∨
      ∃ base base', d.primaryBase? = some base ∧ d'.primaryBase? = some base' ∧
        base.cls = base'.cls ∧ base.args.length = base'.args.length := by
  have hb : d.primaryBase?.map (fun base => (base.cls, base.args.length)) =
      d'.primaryBase?.map (fun base => (base.cls, base.args.length)) := congrArg Outline.base? ho
  cases hd : d.primaryBase? with
  | none =>
    rw [hd, Option.map_none, eq_comm, Option.map_eq_none_iff] at hb
    exact Or.inl ⟨rfl, hb⟩
  | some base =>
    rw [hd, Option.map_some, eq_comm, Option.map_eq_some_iff] at hb
    obtain ⟨base', hd', heq⟩ := hb
    obtain ⟨hcls, hlen⟩ := Prod.mk.inj heq
    exact Or.inr ⟨base, base', rfl, hd', hcls.symm, hlen.symm⟩

end ClassDef

/-- Layouts of the same chains are there for the same classes, and have the same chain for each of
them. -/
lemma Layouts.map_chain_of? {ls ls' : Layouts} (hls : ls.outline = ls'.outline) (c : ClassId) :
    (ls.of? c).map Layout.chain = (ls'.of? c).map Layout.chain := by
  have hget : ∀ ls : Layouts, (ls.of? c).map Layout.chain = (ls.outline[c.index]?).join := by
    intro ls
    rw [of?, outline, Array.getElem?_map]
    cases ls[c.index]? <;> rfl
  rw [hget, hget, hls]

namespace Hierarchy

/-! ## Checks in order -/

/-- What is left to do for a class once its own checks are passed: its primary base is checked, and
the layout of the base is extended. The checks are written one inside the other here, so that a
proof can go through them by cases. -/
def extendBase (h : Hierarchy) (policy : SlotPolicy) (ls : Layouts) (c : ClassId) (d : ClassDef)
    (base : Instance) : Except (Failure SlotError) Layout :=
  match h.find? base.cls with
  | none => .error (.fault (.undefinedClass base.cls))
  | some b =>
    if base.args.length = b.arity then
      match ls.of? base.cls with
      | none => refuse (.cyclicHierarchy d.name)
      | some l =>
        if ∀ a ∈ l.chain, a ∈ d.ancestors then
          .ok (l.extend c (d.params.map TypeParam.id) (policy.reusedSlot? base.args l.paramSlots))
        else
          refuse (.invalidAncestors d.name)
    else
      refuse (.invalidBase d.name b.name b.arity base.args.length)

/-- Laying out a class makes its checks one after another, and stops at the first that fails. The
steps of the computation are turned into nested cases, in the same order.

**Proof sketch.** Each check is decided in turn, and both sides come to the same branch. -/
lemma layOut_eq_checks {h : Hierarchy} {policy : SlotPolicy} {ls : Layouts} {c : ClassId}
    {d : ClassDef} (hd : h.find? c = some d) :
    h.layOut policy ls c =
      match TypeParam.firstInvalid? [] d.params with
      | some p => refuse (.invalidTypeParameter d.name p.name p.id)
      | none =>
        if d.ancestors.head? = some c then
          match d.primaryBase? with
          | none => .ok (.root c d.arity)
          | some base => h.extendBase policy ls c d base
        else
          refuse (.invalidAncestors d.name) := by
  rw [layOut, get_eq_ok_iff.2 hd]
  simp only [liftM_ok, ok_bind]
  cases TypeParam.firstInvalid? [] d.params with
  | some p => rfl
  | none =>
    by_cases hhead : d.ancestors.head? = some c
    · simp only [hhead, ne_eq, not_true_eq_false, if_false, if_true]
      cases d.primaryBase? with
      | none => rfl
      | some base =>
        simp only [extendBase, get]
        cases h.find? base.cls with
        | none => rfl
        | some b =>
          simp only [liftM_ok, ok_bind]
          by_cases harity : base.args.length = b.arity
          · simp only [harity, not_true_eq_false, if_false, if_true]
            cases ls.of? base.cls with
            | none => rfl
            | some l =>
              simp only [List.all_eq_true, decide_eq_true_eq]
              split <;> rfl
          · simp only [harity, not_false_eq_true, if_false, if_true]
            rfl
    · simp only [hhead, ne_eq, not_false_eq_true, if_false, if_true]
      rfl

variable {h h' : Hierarchy} (ho : h.outlines = h'.outlines)

include ho

/-- Hierarchies of the same outlines have as many classes. -/
lemma size_eq_of_outlines : h.size = h'.size := by
  simpa [outlines, size] using congrArg Array.size ho

/-- The same identifiers are those of classes, since this depends on the number of classes only. -/
lemma isDefined_iff_of_outlines (c : ClassId) : h.IsDefined c ↔ h'.IsDefined c := by
  rw [IsDefined, IsDefined, size_eq_of_outlines ho]

/-- A class is defined in both hierarchies, with the same outline, or in none. The two definitions
may differ in everything else. -/
lemma find?_of_outlines (c : ClassId) :
    h.find? c = none ∧ h'.find? c = none ∨
      ∃ d d', h.find? c = some d ∧ h'.find? c = some d' ∧ d.outline = d'.outline :=
  find?_of_map_eq ho c

/-- Errors name a class alike in both hierarchies, and reading the name is at fault in both or in
none. -/
lemma nameOf_of_outlines (c : ClassId) : h.nameOf c = h'.nameOf c := by
  rw [nameOf, nameOf, get, get]
  rcases find?_of_outlines ho c with ⟨hd, hd'⟩ | ⟨d, d', hd, hd', heq⟩
  · rw [hd, hd']
  · rw [hd, hd', ok_bind, ok_bind]
    exact congrArg (fun o : ClassDef.Outline => Except.ok o.name) heq

/-! ## The steps -/

variable {policy policy' : SlotPolicy} {ls ls' : Layouts} (hls : ls.outline = ls'.outline)

include hls

/-- Climbs through hierarchies of the same outlines pass the same classes or fail alike. The next
class of a climb is that of the primary base, which the outline has.

**Proof sketch.** By the recursion of the climb. It stops at the same classes, because layouts are
there for the same ones. Where it goes on, the classes have primary bases of the same class or none
at all. The errors name the class, and its name is part of the outline. -/
theorem climb_congr (walk : List ClassId) (c : ClassId) :
    h.climb ls walk c = h'.climb ls' walk c := by
  have hsome : ∀ c, (ls.of? c).isSome = (ls'.of? c).isSome := by
    intro c
    rw [← Option.isSome_map, Layouts.map_chain_of? hls c, Option.isSome_map]
  fun_induction climb h ls walk c with
  | case1 walk c hc => rw [climb, if_pos (hsome c ▸ hc)]
  | case2 walk c hc hfresh ih =>
    have hfresh' := hfresh
    rw [isDefined_iff_of_outlines ho] at hfresh'
    rw [climb, if_neg (hsome c ▸ hc), dif_pos hfresh']
    rcases find?_of_outlines ho c with ⟨hd, hd'⟩ | ⟨d, d', hd, hd', heq⟩
    · rw [get, get, hd, hd']
      rfl
    · simp only [get, hd, hd', liftM_ok, ok_bind]
      rcases ClassDef.primaryBase?_of_outline heq with ⟨hb, hb'⟩ | ⟨base, base', hb, hb', hcls, -⟩
      · simp only [hb, hb']
      · have hname : d.name = d'.name := congrArg ClassDef.Outline.name heq
        simp only [hb, hb', hname, ← hcls, ← isDefined_iff_of_outlines ho, ih base]
  | case3 walk c hc hfresh =>
    rw [isDefined_iff_of_outlines ho] at hfresh
    rw [climb, if_neg (hsome c ▸ hc), dif_neg hfresh, nameOf_of_outlines ho]

/-- Primary bases of the same class with as many arguments are extended to layouts of the same chain
or fail alike.

**Proof sketch.** The checks are gone through in order. The arity check compares numbers that are
the same. The layouts of the base are both there and have the same chain, or none is there. So the
ancestors list the one chain exactly if they list the other, and the extended chains are the
same. -/
private lemma extendBase_congr (c : ClassId) {d d' : ClassDef} {base base' : Instance}
    (hname : d.name = d'.name) (hancestors : d.ancestors = d'.ancestors)
    (hcls : base.cls = base'.cls) (hlen : base.args.length = base'.args.length) :
    (h.extendBase policy ls c d base).map Layout.chain =
      (h'.extendBase policy' ls' c d' base').map Layout.chain := by
  have hchain := Layouts.map_chain_of? hls base.cls
  rw [extendBase, extendBase, hname, hancestors, ← hcls, ← hlen]
  rcases find?_of_outlines ho base.cls with ⟨hb, hb'⟩ | ⟨b, b', hb, hb', heq⟩
  · rw [hb, hb']
  have hbname : b.name = b'.name := congrArg ClassDef.Outline.name heq
  have hbarity : b.arity = b'.arity :=
    congrArg (fun o : ClassDef.Outline => o.params.length) heq
  simp only [hb, hb', hbname, hbarity]
  by_cases harity : base.args.length = b'.arity
  · simp only [if_pos harity]
    cases hl : ls.of? base.cls with
    | none =>
      rw [hl, Option.map_none, eq_comm, Option.map_eq_none_iff] at hchain
      rw [hchain]
    | some l =>
      rw [hl, Option.map_some, eq_comm, Option.map_eq_some_iff] at hchain
      obtain ⟨l', hl', hchain⟩ := hchain
      simp only [hl', hchain]
      by_cases hlisted : ∀ a ∈ l.chain, a ∈ d'.ancestors
      · simp only [if_pos hlisted, Except.map, Layout.chain_extend, hchain]
      · simp only [if_neg hlisted]
  · simp only [if_neg harity]

/-- Classes of the same outline are given layouts of the same chain or fail alike. The policies may
differ, since they only decide which slots are shared.

**Proof sketch.** The class is defined in both hierarchies or in none. If it is, name, type
parameters and ancestors are the same, so its own checks have the same outcome. Its primary base is
settled by `extendBase_congr`. -/
theorem layOut_congr (c : ClassId) :
    (h.layOut policy ls c).map Layout.chain = (h'.layOut policy' ls' c).map Layout.chain := by
  rcases find?_of_outlines ho c with ⟨hd, hd'⟩ | ⟨d, d', hd, hd', heq⟩
  · rw [layOut, layOut, get, get, hd, hd']
    rfl
  have hname : d.name = d'.name := congrArg ClassDef.Outline.name heq
  have hparams : d.params = d'.params := congrArg ClassDef.Outline.params heq
  have hancestors : d.ancestors = d'.ancestors := congrArg ClassDef.Outline.ancestors heq
  rw [layOut_eq_checks hd, layOut_eq_checks hd', hname, hparams, hancestors]
  cases TypeParam.firstInvalid? [] d'.params with
  | some p => rfl
  | none =>
    by_cases hhead : d'.ancestors.head? = some c
    · simp only [if_pos hhead]
      rcases ClassDef.primaryBase?_of_outline heq with
        ⟨hb, hb'⟩ | ⟨base, base', hb, hb', hcls, hlen⟩
      · rw [hb, hb']
        rfl
      · rw [hb, hb']
        exact extendBase_congr ho hls c hname hancestors hcls hlen
    · simp only [if_neg hhead]

omit ho hls in
/-- Setting the layout of a class sets its chain, and leaves the chains of the others. -/
private lemma outline_set (ls : Layouts) (n : Nat) (l : Layout) :
    Layouts.outline (ls.setIfInBounds n (some l)) =
      ls.outline.setIfInBounds n (some l.chain) := by
  rw [Layouts.outline, Array.map_setIfInBounds]
  rfl

/-- Laying out the same classes one after another gives layouts of the same chains or fails alike.

**Proof sketch.** By induction on the classes, with both layouts kept general. The first class is
given layouts of the same chain, and setting them keeps the chains of all layouts the same. -/
lemma layOutAll_congr (cs : List ClassId) :
    (h.layOutAll policy ls cs).result.map Layouts.outline =
      (h'.layOutAll policy' ls' cs).result.map Layouts.outline := by
  induction cs generalizing ls ls' with
  | nil => exact congrArg Except.ok hls
  | cons c cs ih =>
    rw [layOutAll, layOutAll, Run.result_bind, Run.result_bind]
    refine map_bind_congr (layOut_congr ho hls c) fun l l' _ _ hchain => ?_
    rw [Run.result_bind, Run.result_bind]
    apply ih
    rw [outline_set, outline_set, hls, hchain]

/-- Laying out the same classes with their primary chains gives layouts of the same chains or fails
alike.

**Proof sketch.** By induction on the classes, with both layouts kept general. The climbs pass the
same classes, and laying these out keeps the chains the same. -/
lemma layOutChains_congr (cs : List ClassId) :
    (h.layOutChains policy ls cs).result.map Layouts.outline =
      (h'.layOutChains policy' ls' cs).result.map Layouts.outline := by
  induction cs generalizing ls ls' with
  | nil => exact congrArg Except.ok hls
  | cons c cs ih =>
    rw [layOutChains, layOutChains, Run.result_bind, Run.result_bind, climb_congr ho hls]
    refine map_bind_congr (f := id) rfl fun walk walk' _ _ hwalk => ?_
    obtain rfl : walk = walk' := hwalk
    rw [Run.result_bind, Run.result_bind]
    exact map_bind_congr (layOutAll_congr ho hls walk) fun _ _ _ _ hls => ih hls

end Hierarchy

namespace SlotTable

/-- Hierarchies of the same outlines are both accepted, or both refused with the same error,
whatever policies they are laid out by. So validation depends neither on the arguments of bases nor
on any base but the first. -/
theorem verdict_congr {h h' : Hierarchy} (ho : h.outlines = h'.outlines)
    (policy policy' : SlotPolicy) : verdict h policy = verdict h' policy' := by
  have hids : h.classIds = h'.classIds := by
    rw [Hierarchy.classIds, Hierarchy.classIds, Hierarchy.size_eq_of_outlines ho]
  rw [verdict, verdict, build, build, Run.result_bind, Run.result_bind, hids,
    Hierarchy.size_eq_of_outlines ho]
  exact map_bind_congr (Hierarchy.layOutChains_congr ho rfl _) fun _ _ _ _ _ => rfl

/-- A hierarchy that has a table under one policy has one under every policy, since a hierarchy has
the outlines of itself.

**Proof sketch.** The verdict under the other policy is the same, and it says that the hierarchy is
accepted. -/
lemma exists_build_of_build {h : Hierarchy} {policy : SlotPolicy} {t : SlotTable}
    (ht : (build h policy).result = .ok t) (policy' : SlotPolicy) :
    ∃ t', (build h policy').result = .ok t' := by
  have hverdict : verdict h policy' = .ok () := by
    rw [verdict_congr rfl policy' policy, verdict, ht]
    rfl
  cases hbuild : (build h policy').result with
  | ok t' => exact ⟨t', rfl⟩
  | error e =>
    rw [verdict, hbuild] at hverdict
    cases hverdict

end SlotTable

end GenericSlots
