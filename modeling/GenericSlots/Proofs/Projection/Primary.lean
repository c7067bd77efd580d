import GenericSlots.Projection
import GenericSlots.Proofs.Derivation.PrimaryPath
import GenericSlots.Proofs.Ty.Expansion
import Mathlib.Logic.Function.Iterate
set_option autoImplicit false

/-!
# Projections along primary chains

The search for a path to an ancestor goes through all declared bases, depth first. If the ancestor
is on the primary chain of a class that has a layout, the search follows the chain and never turns
back, whatever other bases the classes on the way declare. So the projection onto the ancestor is
made of projections onto primary bases.

Classes of a chain are counted upwards here: position `0` is the class itself, position `1` its
primary base, and so on.

## Main definitions

* `GenericSlots.Hierarchy.primarySupertype`: the projection of an instance onto the primary base of
  its class.
* `GenericSlots.ClassDef.ClosedBase`: a class whose primary base is in terms of its type parameters.

## Main results

* `GenericSlots.Hierarchy.forall_args_iterate_primarySupertype`: what the arguments of projections
  have in common.
* `GenericSlots.Hierarchy.path_of_chain`: the first path to a class of the primary chain is the
  primary chain.
* `GenericSlots.Hierarchy.supertype_of_chain`: the projection onto a class of the primary chain is
  the projection onto primary bases, as often as the class is away.
* `GenericSlots.Hierarchy.iterate_primarySupertype_expand`: expanding an instance and projecting it
  may be done in either order.
-/

namespace GenericSlots

/-- A class whose primary base mentions no type parameters other than those of the class. Only
variables that can be type parameters of a class count, so a base may mention variables of
functions. -/
def ClassDef.ClosedBase (d : ClassDef) : Prop :=
  ∀ base ∈ d.primaryBase?, ∀ v ∈ base.vars, v.isClassParameter = true →
    v ∈ d.params.map TypeParam.id

/-- Whether the primary base is closed can be decided, because its variables are a finite list. -/
instance (d : ClassDef) : Decidable d.ClosedBase :=
  inferInstanceAs (Decidable (∀ base ∈ d.primaryBase?, ∀ v ∈ base.vars,
    v.isClassParameter = true → v ∈ d.params.map TypeParam.id))

namespace Hierarchy

/-- The projection of an instance onto the primary base of its class. An instance of a class without
bases stays, and so does one of a class that is not defined. -/
def primarySupertype (h : Hierarchy) (i : Instance) : Instance :=
  match h.find? i.cls with
  | none => i
  | some d =>
    match d.primaryBase? with
    | none => i
    | some base => base.expand (d.assignArgs i.args)

variable {h : Hierarchy} {policy : SlotPolicy} {c : ClassId} {d : ClassDef} {base i : Instance}
  {l : Layout}

/-! ## One step -/

/-- One step expands the primary base by the arguments of the instance. -/
lemma primarySupertype_eq (hd : h.find? i.cls = some d) (hb : d.primaryBase? = some base) :
    h.primarySupertype i = base.expand (d.assignArgs i.args) := by
  simp only [primarySupertype, hd, hb]

/-- An instance of a class without bases is where the way up ends. -/
lemma primarySupertype_eq_self (hd : h.find? i.cls = some d) (hb : d.primaryBase? = none) :
    h.primarySupertype i = i := by
  simp only [primarySupertype, hd, hb]

/-- One step leads to an instance of the class of the primary base, whatever the arguments are. -/
lemma cls_primarySupertype (hd : h.find? i.cls = some d) (hb : d.primaryBase? = some base) :
    (h.primarySupertype i).cls = base.cls := by
  rw [primarySupertype_eq hd hb, Instance.cls_expand]

/-- The primary base is the first declared base of its class, so it is what the class of the primary
base is resolved to, even if this class is declared again further on. -/
lemma baseOf?_of_primaryBase? (hb : d.primaryBase? = some base) :
    d.baseOf? base.cls = some base := by
  obtain ⟨bs, hbs⟩ := List.head?_eq_some_iff.1 hb
  simp [ClassDef.baseOf?, hbs]

/-- The projection onto a declared base is the one onto the primary base, if it is asked for the
class of the primary base. So a step along the chain does not depend on the other bases. -/
lemma directSupertype_of_primaryBase? (hd : h.find? i.cls = some d)
    (hb : d.primaryBase? = some base) :
    h.directSupertype i base.cls = .ok (h.primarySupertype i) := by
  simp only [directSupertype, get_eq_ok_iff.2 hd, ok_bind, baseOf?_of_primaryBase? hb,
    primarySupertype_eq hd hb]
  rfl

/-! ## Along the chain -/

/-- The projection onto primary bases leads up the chain: after `n` steps it has arrived at the
class in position `n`.

**Proof sketch.** By induction on the layout. The reversed chain of an extension starts with the
class itself and goes on with the reversed chain of the base, and one step leads to an instance of
the base. -/
lemma cls_iterate_primarySupertype (hl : h.HasLayout policy c l) (hi : i.cls = c) {n : Nat}
    {o : ClassId} (hn : l.chain.reverse[n]? = some o) : (h.primarySupertype^[n] i).cls = o := by
  induction hl generalizing i n with
  | root _ _ =>
    cases n with
    | zero => simpa [hi] using hn
    | succ n => simp at hn
  | extend hd hb _ _ _ _ ih =>
    rw [Layout.reverse_chain_extend] at hn
    cases n with
    | zero => simpa [hi] using hn
    | succ n =>
      rw [List.getElem?_cons_succ] at hn
      rw [Function.iterate_succ_apply]
      exact ih (cls_primarySupertype (hi ▸ hd.find) hb) hn

/-- An instance with as many arguments as its class has type parameters keeps this on the way up.
The layout says that each primary base has the right number of arguments, and a step does not change
this number.

**Proof sketch.** By induction on the layout. At position `0` the instance is the given one. After
the first step it has as many arguments as the primary base, which are as many as the class of the
base has type parameters, and the induction hypothesis takes over. -/
lemma length_args_iterate_primarySupertype (hl : h.HasLayout policy c l) (hi : i.cls = c)
    (hd : h.find? c = some d) (harity : i.args.length = d.arity) {n : Nat} {o : ClassId}
    {e : ClassDef} (hn : l.chain.reverse[n]? = some o) (he : h.find? o = some e) :
    (h.primarySupertype^[n] i).args.length = e.arity := by
  induction hl generalizing i n d with
  | root hd' _ =>
    cases n with
    | zero =>
      obtain rfl : _ = o := by simpa using hn
      obtain rfl := Option.some.inj (hd.symm.trans he)
      exact harity
    | succ n => simp at hn
  | @extend c' d' b base l hd' hb hfind hargs _ _ ih =>
    rw [Layout.reverse_chain_extend] at hn
    cases n with
    | zero =>
      obtain rfl : c' = o := by simpa using hn
      obtain rfl := Option.some.inj (hd.symm.trans he)
      exact harity
    | succ n =>
      rw [List.getElem?_cons_succ] at hn
      rw [Function.iterate_succ_apply]
      refine ih (cls_primarySupertype (hi ▸ hd'.find) hb) hfind ?_ hn
      rw [primarySupertype_eq (hi ▸ hd'.find) hb, Instance.args_expand, List.length_map, hargs]

/-- What holds of the arguments of an instance, and is passed on by the primary bases of the chain,
holds of the arguments of all projections along the chain. It is an invariant of the way up: `hstep`
is the step, and the number of steps is arbitrary.

**Proof sketch.** By induction on the layout. The first step expands the primary base of the class
at the bottom, and `hstep` for this class gives the property for its arguments. The chain of the
base is part of the chain, so `hstep` holds of the classes that remain. -/
theorem forall_args_iterate_primarySupertype {P : Ty → Prop} (hl : h.HasLayout policy c l)
    (hi : i.cls = c) (hd : h.find? c = some d) (hlen : i.args.length = d.arity)
    (hargs : ∀ a ∈ i.args, P a)
    (hstep : ∀ o ∈ l.chain, ∀ e, h.Checked o e → ∀ base ∈ e.primaryBase?, ∀ args : List Ty,
      args.length = e.arity → (∀ a ∈ args, P a) → ∀ a ∈ base.args, P (a.expand (e.assignArgs args)))
    {n : Nat} {o : ClassId} (hn : l.chain.reverse[n]? = some o) :
    ∀ a ∈ (h.primarySupertype^[n] i).args, P a := by
  induction hl generalizing i n d with
  | root _ _ =>
    cases n with
    | zero => exact hargs
    | succ n => simp at hn
  | @extend c d' b base l hd' hb hfind harity _ _ ih =>
    rw [Layout.chain_extend] at hstep
    obtain rfl := Option.some.inj (hd'.find.symm.trans hd)
    cases n with
    | zero => exact hargs
    | succ n =>
      have hi' := hi ▸ hd
      rw [Layout.reverse_chain_extend, List.getElem?_cons_succ] at hn
      rw [Function.iterate_succ_apply]
      refine ih (cls_primarySupertype hi' hb) hfind ?_ ?_
        (fun o ho => hstep o (List.mem_append_left _ ho)) hn
      · rw [primarySupertype_eq hi' hb, Instance.args_expand, List.length_map, harity]
      · rw [primarySupertype_eq hi' hb, Instance.args_expand]
        intro _ hmem
        obtain ⟨a, ha, rfl⟩ := List.mem_map.1 hmem
        exact hstep c (by simp) d' hd' base hb i.args hlen hargs a ha

/-- The first path to a class of the primary chain is the primary chain. The search tries primary
bases first and comes to the ancestor before it would have to turn back. -/
theorem path_of_chain (hl : h.HasLayout policy c l) {o : ClassId} {n : Nat}
    (hn : l.chain.reverse[n + 1]? = some o) :
    h.path c o = .ok (some (l.chain.reverse.tail.take (n + 1))) := by
  have hp := hl.isPrimaryPath_take hn
  exact hp.path_eq (hp.nodup_cons hl)

/-- Following the primary chain is projecting onto primary bases, as often as the path is long.

**Proof sketch.** By induction on the layout. A path of at least one class starts with the class of
the primary base, and the step along it is the step onto the primary base. The rest of the path is
the beginning of the chain above the base. -/
lemma followPath_of_chain (hl : h.HasLayout policy c l) (hi : i.cls = c) {n : Nat}
    (hn : n < l.chain.length) :
    h.followPath i (l.chain.reverse.tail.take n) = .ok (h.primarySupertype^[n] i) := by
  induction hl generalizing i n with
  | root _ _ =>
    obtain rfl : n = 0 := by simpa using hn
    rfl
  | extend hd hb _ _ hbl _ ih =>
    cases n with
    | zero => rfl
    | succ n =>
      have hi' := hi ▸ hd.find
      rw [Layout.chain_extend, List.length_append, List.length_singleton] at hn
      rw [Layout.reverse_chain_extend, List.tail_cons, hbl.reverse_chain, List.take_succ_cons,
        followPath, List.foldlM_cons, directSupertype_of_primaryBase? hi' hb, ok_bind,
        Function.iterate_succ_apply]
      exact ih (cls_primarySupertype hi' hb) (by omega)

/-- The projection onto a class of the primary chain is the projection onto primary bases, as often
as the class is away. Nothing is reported.

**Proof sketch.** The class itself is away by nothing, and the instance stays. A class further up is
a different one, since no class is on the chain twice, and it is listed as an ancestor, since a
layout lists its chain. So a path is searched for, the chain is found, and it is followed. -/
theorem supertype_of_chain (hl : h.HasLayout policy c l) (hi : i.cls = c) {o : ClassId} {n : Nat}
    (hn : l.chain.reverse[n]? = some o) :
    h.supertype i o = pure (h.primarySupertype^[n] i) := by
  cases n with
  | zero =>
    rw [hl.reverse_chain] at hn
    obtain rfl : c = o := by simpa using hn
    rw [supertype, if_pos hi]
    rfl
  | succ n =>
    obtain ⟨d, hd⟩ := hl.checked
    have ho : o ∈ l.chain := List.mem_reverse.1 (List.mem_of_getElem? hn)
    have hne : i.cls ≠ o := by
      rw [hi]
      rintro rfl
      cases hl.getElem?_reverse_chain_eq_self_iff.1 hn
    have hlen : n + 1 < l.chain.length := by
      rw [← List.length_reverse]
      exact (List.getElem?_eq_some_iff.1 hn).1
    have hancestor : h.hasAncestor i.cls o = .ok true := by
      rw [hi, hasAncestor_eq hd.find, decide_eq_true (hl.mem_ancestors hd.find ho)]
    have hpath := path_of_chain hl hn
    rw [← hi] at hpath
    simp only [supertype, if_neg hne, hancestor, hpath, Run.liftM_fault_ok_bind, if_true,
      followPath_of_chain hl hi hlen]
    rfl

/-! ## Expanding instances -/

variable {r : Subst}

/-- An instance may be expanded before or after it is projected onto the primary base, if it has an
argument for each type parameter. The base is closed, so the step replaces all its type parameters
by arguments, and only these are touched by the expansion.

**Proof sketch.** Without a primary base both sides are the expanded instance. Otherwise the base is
expanded by arguments that have been expanded, which may be done afterwards, because a variable of
the base is a type parameter of the class or is left alone. -/
lemma primarySupertype_expand (hd : h.find? i.cls = some d) (hlen : i.args.length = d.arity)
    (hclosed : d.ClosedBase) (hr : ∀ v, v.isClassParameter = false → r.get? v = none) :
    h.primarySupertype (i.expand r) = (h.primarySupertype i).expand r := by
  cases hb : d.primaryBase? with
  | none => rw [primarySupertype_eq_self hd hb, primarySupertype_eq_self (i := i.expand r) hd hb]
  | some base =>
    rw [primarySupertype_eq hd hb, primarySupertype_eq (i := i.expand r) hd hb,
      Instance.args_expand]
    apply ClassDef.expand_assignArgs_map (Nat.le_of_eq hlen.symm)
    intro v hv
    cases hpos : v.isClassParameter with
    | true => exact Or.inl (hclosed base hb v hv hpos)
    | false => exact Or.inr (hr v hpos)

/-- An instance may be expanded before or after it is projected along the chain, if the primary
bases on the way are closed and only variables that can be type parameters are assigned.

**Proof sketch.** By induction on the layout. At the root both sides stay where they are. At an
extension the expansion is moved past the first step by `primarySupertype_expand`, the result is an
instance of the base with the right number of arguments, and the induction hypothesis moves it past
the others. -/
theorem iterate_primarySupertype_expand (hl : h.HasLayout policy c l) (hi : i.cls = c)
    (hd : h.find? c = some d) (hlen : i.args.length = d.arity)
    (hclosed : ∀ o ∈ l.chain, ∀ e ∈ h.find? o, e.ClosedBase)
    (hr : ∀ v, v.isClassParameter = false → r.get? v = none) (n : Nat) :
    h.primarySupertype^[n] (i.expand r) = (h.primarySupertype^[n] i).expand r := by
  induction hl generalizing i n d with
  | root hd' hb =>
    have hfixed : ∀ j : Instance, j.cls = _ → h.primarySupertype j = j := fun j hj =>
      primarySupertype_eq_self (hj ▸ hd'.find) hb
    rw [Function.iterate_fixed (hfixed (i.expand r) hi), Function.iterate_fixed (hfixed i hi)]
  | @extend c d' b base l hd' hb hfind harity hbl _ ih =>
    obtain rfl := Option.some.inj (hd'.find.symm.trans hd)
    have hi' := hi ▸ hd
    cases n with
    | zero => rfl
    | succ n =>
      rw [Layout.chain_extend] at hclosed
      rw [Function.iterate_succ_apply, Function.iterate_succ_apply,
        primarySupertype_expand hi' hlen (hclosed c (by simp) d' hd) hr]
      refine ih (cls_primarySupertype hi' hb) hfind ?_
        (fun o ho => hclosed o (List.mem_append_left _ ho)) n
      rw [primarySupertype_eq hi' hb, Instance.args_expand, List.length_map, harity]

end Hierarchy

end GenericSlots
