import GenericSlots.Slot.Error
import GenericSlots.Proofs.Hierarchy.Reachable
import GenericSlots.Proofs.Slot.Recursion
import Mathlib.Logic.Relation
set_option autoImplicit false

/-!
# Valid classes

What a hierarchy has to look like for its slots to be laid out, and what can be wrong with it, in
terms of the primary bases alone. The classes that are met by following primary bases are those of
the primary chain, wherever a class has a layout.

## Main definitions

* `GenericSlots.Hierarchy.PrimaryBase`: the step from a class to the class of its primary base.
* `GenericSlots.Hierarchy.Valid`: a class that meets all requirements.
* `GenericSlots.Hierarchy.Defect`: what an error says to be wrong.

## Main results

* `GenericSlots.Hierarchy.HasLayout.mem_chain_iff`: a primary chain consists of the classes met by
  following primary bases.
* `GenericSlots.Hierarchy.HasLayout.valid`: a class that has a layout is valid.
* `GenericSlots.Hierarchy.Defect.exists_not_valid`: where something is wrong, a class is not valid.
-/

namespace GenericSlots

namespace Hierarchy

open Relation (ReflTransGen TransGen)

/-- The primary base of the first class is an instance of the second. The step is taken by a class
that is defined, and may lead to one that is not. -/
def PrimaryBase (h : Hierarchy) (c b : ClassId) : Prop :=
  ∃ d base, h.find? c = some d ∧ d.primaryBase? = some base ∧ base.cls = b

/-- A class that meets all requirements for laying out its slots. Only its type parameters and
ancestors count, and the classes that are met by following primary bases. Nothing refers to layouts
or to the order in which classes are checked. -/
structure Valid (h : Hierarchy) (c : ClassId) (d : ClassDef) : Prop where
  /-- The type parameters have positive identifiers. -/
  positive : ∀ p ∈ d.params, p.id.isClassParameter = true
  /-- No two type parameters have the same identifier. -/
  nodup : (d.params.map TypeParam.id).Nodup
  /-- Following primary bases meets no class that is not defined. -/
  defined : ∀ a, ReflTransGen h.PrimaryBase c a → h.IsDefined a
  /-- Following primary bases returns to no class met before. -/
  acyclic : ∀ a, ReflTransGen h.PrimaryBase c a → ¬TransGen h.PrimaryBase a a
  /-- The primary base has as many arguments as its class has type parameters. -/
  arity : ∀ base, d.primaryBase? = some base →
    ∃ b, h.find? base.cls = some b ∧ base.args.length = b.arity
  /-- The classes met by following primary bases are listed among the ancestors. -/
  listed : ∀ a, ReflTransGen h.PrimaryBase c a → a ∈ d.ancestors

/-- What an error says to be wrong with a hierarchy. Each error names a class, and the parts of the
error are those of this class and its primary base. -/
inductive Defect (h : Hierarchy) : SlotError → Prop
  /-- The primary base of a class refers to no class. -/
  | undefinedBase {c : ClassId} {d : ClassDef} {base : Instance} (find : h.find? c = some d)
      (hasBase : d.primaryBase? = some base) (undefined : ¬h.IsDefined base.cls) :
      Defect h (.undefinedBase d.name base.cls)
  /-- Following primary bases from a class leads back to it. -/
  | cyclicHierarchy {c : ClassId} {d : ClassDef} (find : h.find? c = some d)
      (cyclic : TransGen h.PrimaryBase c c) : Defect h (.cyclicHierarchy d.name)
  /-- The primary base of a class has too few or too many arguments. -/
  | invalidBase {c : ClassId} {d b : ClassDef} {base : Instance} (find : h.find? c = some d)
      (hasBase : d.primaryBase? = some base) (findBase : h.find? base.cls = some b)
      (arity : base.args.length ≠ b.arity) :
      Defect h (.invalidBase d.name b.name b.arity base.args.length)
  /-- A class is not the first of its ancestors. -/
  | notFirst {c : ClassId} {d : ClassDef} (find : h.find? c = some d)
      (head : d.ancestors.head? ≠ some c) : Defect h (.invalidAncestors d.name)
  /-- A class that is met by following primary bases is not listed among the ancestors. -/
  | unlisted {c a : ClassId} {d : ClassDef} (find : h.find? c = some d)
      (met : ReflTransGen h.PrimaryBase c a) (defined : h.IsDefined a) (missing : a ∉ d.ancestors) :
      Defect h (.invalidAncestors d.name)
  /-- A type parameter has an identifier that is not positive or belongs to one before it. -/
  | invalidTypeParameter {c : ClassId} {d : ClassDef} {p : TypeParam}
      {before after : List TypeParam} (find : h.find? c = some d)
      (declared : d.params = before ++ p :: after)
      (invalid : p.id.isClassParameter = false ∨ p.id ∈ before.map TypeParam.id) :
      Defect h (.invalidTypeParameter d.name p.name p.id)

variable {h : Hierarchy} {policy : SlotPolicy} {c : ClassId} {d : ClassDef} {l : Layout}

namespace HasLayout

/-- The primary base of a class that has a layout has a layout too, which the class continues. -/
lemma of_primaryBase (hl : h.HasLayout policy c l) {b : ClassId} (hb : h.PrimaryBase c b) :
    ∃ lb, h.HasLayout policy b lb ∧ l.chain = lb.chain ++ [c] := by
  obtain ⟨d, base, hd, hbase, rfl⟩ := hb
  obtain ⟨-, lb, -, -, hlb, -, rfl⟩ := hl.eq_extend hd hbase
  exact ⟨lb, hlb, Layout.chain_extend _ _ _ _⟩

/-- The classes of a primary chain are those met by following primary bases.

**Proof sketch.** By induction on the layout. From a class without bases no step is taken. From a
class with a primary base, a class is met if it is the class itself or is met from the class of the
base, which is the only class that a step leads to. -/
theorem mem_chain_iff (hl : h.HasLayout policy c l) {a : ClassId} :
    a ∈ l.chain ↔ ReflTransGen h.PrimaryBase c a := by
  induction hl with
  | @root c d hd hb =>
    rw [Layout.chain_root, List.mem_singleton]
    constructor
    · rintro rfl
      exact .refl
    · intro hmet
      rcases hmet.cases_head with rfl | ⟨b, ⟨d', base, hd', hbase, -⟩, -⟩
      · rfl
      · obtain rfl := Option.some.inj (hd.find.symm.trans hd')
        cases hb.symm.trans hbase
  | @extend c d b base lb hd hb hfind harity hbl hlisted ih =>
    have hstep : h.PrimaryBase c base.cls := ⟨d, base, hd.find, hb, rfl⟩
    rw [Layout.chain_extend, List.mem_append, List.mem_singleton, ih]
    constructor
    · rintro (hmet | rfl)
      · exact .head hstep hmet
      · exact .refl
    · intro hmet
      rcases hmet.cases_head with rfl | ⟨b', ⟨d', base', hd', hbase', rfl⟩, hmet⟩
      · exact Or.inr rfl
      · obtain rfl := Option.some.inj (hd.find.symm.trans hd')
        obtain rfl := Option.some.inj (hb.symm.trans hbase')
        exact Or.inl hmet

/-- Following primary bases leads to shorter chains. So it cannot go on for ever.

**Proof sketch.** By induction on the steps. Each step leads to a class with a layout, whose chain
lacks the class that the step was taken from. -/
lemma length_chain_lt (hl : h.HasLayout policy c l) {a : ClassId}
    (hmet : TransGen h.PrimaryBase c a) :
    ∃ la, h.HasLayout policy a la ∧ la.chain.length < l.chain.length := by
  induction hmet with
  | single hstep =>
    obtain ⟨la, hla, hchain⟩ := hl.of_primaryBase hstep
    exact ⟨la, hla, by simp [hchain]⟩
  | tail _ hstep ih =>
    obtain ⟨lb, hlb, hlt⟩ := ih
    obtain ⟨la, hla, hchain⟩ := hlb.of_primaryBase hstep
    refine ⟨la, hla, Nat.lt_trans ?_ hlt⟩
    simp [hchain]

/-- Following primary bases from a class that has a layout does not lead back to it, because its
chain would be shorter than itself. -/
lemma not_transGen_self (hl : h.HasLayout policy c l) : ¬TransGen h.PrimaryBase c c := by
  intro hmet
  obtain ⟨l', hl', hlt⟩ := hl.length_chain_lt hmet
  rw [hl'.unique hl] at hlt
  exact Nat.lt_irrefl _ hlt

/-- A class that has a layout is valid.

**Proof sketch.** The checks of the class give the conditions on its type parameters. The classes
that are met are those of the chain. They have layouts, so they are defined, do not lead back to
themselves and are listed. -/
theorem valid (hl : h.HasLayout policy c l) (hd : h.find? c = some d) : h.Valid c d := by
  have hchecked := hl.checked_of_find? hd
  exact
    { positive := hchecked.positive
      nodup := hchecked.nodup
      defined := fun a hmet => by
        obtain ⟨la, hla, -⟩ := hl.of_mem_chain (hl.mem_chain_iff.2 hmet)
        obtain ⟨e, he⟩ := hla.checked
        exact isDefined_iff.2 ⟨e, he.find⟩
      acyclic := fun a hmet => by
        obtain ⟨la, hla, -⟩ := hl.of_mem_chain (hl.mem_chain_iff.2 hmet)
        exact hla.not_transGen_self
      arity := fun base hb => by
        obtain ⟨b, -, hfind, harity, -⟩ := hl.eq_extend hd hb
        exact ⟨b, hfind, harity⟩
      listed := fun a hmet => hl.mem_ancestors hd (hl.mem_chain_iff.2 hmet) }

end HasLayout

/-- Where something is wrong, a class is not valid, as long as every class is the first of its
ancestors. This last condition holds of every hierarchy that can be reached.

**Proof sketch.** By the kinds of defects. Each of them contradicts one of the requirements of the
class that it names, and the requirement on ancestors is contradicted by the assumption. -/
theorem Defect.exists_not_valid {e : SlotError} (he : h.Defect e) (hself : h.SelfFirst) :
    ∃ c d, h.find? c = some d ∧ ¬h.Valid c d := by
  cases he with
  | undefinedBase hd hb hundefined =>
    refine ⟨_, _, hd, fun hvalid => ?_⟩
    obtain ⟨b, hfind, -⟩ := hvalid.arity _ hb
    exact hundefined (isDefined_iff.2 ⟨b, hfind⟩)
  | cyclicHierarchy hd hcyclic => exact ⟨_, _, hd, fun hvalid => hvalid.acyclic _ .refl hcyclic⟩
  | invalidBase hd hb hfind harity =>
    refine ⟨_, _, hd, fun hvalid => ?_⟩
    obtain ⟨b, hfind', harity'⟩ := hvalid.arity _ hb
    obtain rfl := Option.some.inj (hfind.symm.trans hfind')
    exact harity harity'
  | notFirst hd hhead => exact absurd (hself _ _ hd) hhead
  | unlisted hd hmet _ hmissing => exact ⟨_, _, hd, fun hvalid => hmissing (hvalid.listed _ hmet)⟩
  | @invalidTypeParameter c d p before after hd hdeclared hinvalid =>
    refine ⟨_, _, hd, fun hvalid => ?_⟩
    have hp : p ∈ d.params := by simp [hdeclared]
    have hnodup := hvalid.nodup
    rw [hdeclared, List.map_append, List.map_cons] at hnodup
    rcases hinvalid with hnegative | hseen
    · cases hnegative.symm.trans (hvalid.positive p hp)
    · exact (List.nodup_append.1 hnodup).2.2 _ hseen _ List.mem_cons_self rfl

end Hierarchy

end GenericSlots
