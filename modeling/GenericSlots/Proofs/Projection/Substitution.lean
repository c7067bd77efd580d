import GenericSlots.Projection
import GenericSlots.Proofs.Failure
import GenericSlots.Proofs.Ty.Expansion
import Mathlib.Data.List.Basic
set_option autoImplicit false

/-!
# Projections of expanded instances

An instance may be expanded before or after it is projected. Each step of a projection replaces the
type parameters of a class by the arguments that the instance has at that point, so nothing is left
of the class for the expansion to replace. This needs that bases mention no other variables and that
there is an argument for each type parameter. The steps keep the latter, because bases have as many
arguments as their class has type parameters.

## Main definitions

* `GenericSlots.Hierarchy.WellBased`: all declared bases are well formed and in terms of the type
  parameters of the class that declares them.

## Main results

* `GenericSlots.Hierarchy.directSupertype_expand`, `GenericSlots.Hierarchy.followPath_expand`: one
  step of a projection and all steps.
* `GenericSlots.Hierarchy.supertype_expand`: all projections, with what they report.
-/

namespace GenericSlots

section Monad

variable {α β γ : Type}

/-- The results of a computation on all elements of a list may be mapped one by one or all at
once. -/
lemma mapM_functor_map {m : Type → Type} [Monad m] [LawfulMonad m] (f : α → m β) (g : β → γ)
    (as : List α) : as.mapM (fun a => g <$> f a) = List.map g <$> as.mapM f := by
  induction as with
  | nil => simp
  | cons a as ih => simp [List.mapM_cons, ih]

/-- The value of a computation may be mapped before a run takes it up or afterwards. -/
lemma Run.map_liftM_fault {ω ε : Type} (f : α → β) (x : Except Fault α) :
    f <$> (liftM x : Run ω ε α) = liftM (f <$> x) := by
  cases x <;> rfl

end Monad

/-- A class whose declared bases have as many arguments as their classes, which are defined, have
type parameters, and mention only its own type parameters. This is asked of all bases, the primary
one and the others. -/
structure ClassDef.WellBased (d : ClassDef) (h : Hierarchy) : Prop where
  /-- The bases are well formed. -/
  wellFormed : ∀ b ∈ d.bases, h.isWellFormed b = .ok true
  /-- The bases mention only type parameters of the class. -/
  closed : ∀ b ∈ d.bases, ∀ v ∈ b.vars, v ∈ d.params.map TypeParam.id

/-- Whether a class is well based can be decided, because both conditions range over finite
lists. -/
instance (d : ClassDef) (h : Hierarchy) : Decidable (d.WellBased h) :=
  decidable_of_iff ((∀ b ∈ d.bases, h.isWellFormed b = .ok true) ∧
      ∀ b ∈ d.bases, ∀ v ∈ b.vars, v ∈ d.params.map TypeParam.id)
    ⟨fun hd => ⟨hd.1, hd.2⟩, fun hd => ⟨hd.wellFormed, hd.closed⟩⟩

namespace Hierarchy

/-- A hierarchy in which all declared bases are well formed and in terms of the type parameters of
the class that declares them. Nothing is said about ancestors, which may be listed or not, or about
circles. -/
def WellBased (h : Hierarchy) : Prop :=
  ∀ c, ∀ d ∈ h.find? c, d.WellBased h

variable {h : Hierarchy} {i j : Instance} {a : ClassId}

/-- A hierarchy is well based if all its classes are, since every class that is found is one of
them. -/
lemma wellBased_of_forall_mem (hall : ∀ d ∈ h.classes, d.WellBased h) : h.WellBased :=
  fun _ d hd => hall d (Array.mem_of_getElem? hd)

/-- An instance is well formed if its class is defined and it has as many arguments as the class has
type parameters. -/
lemma isWellFormed_eq_ok_true_iff :
    h.isWellFormed i = .ok true ↔ ∃ d, h.find? i.cls = some d ∧ i.args.length = d.arity := by
  rw [isWellFormed, bind_eq_ok_iff]
  simp [get_eq_ok_iff, pure, Except.pure]

/-! ## One step -/

/-- Types that could be anything have no variables to expand, so an instance that is made up for an
ancestor stays as it is. -/
lemma filled_any_expand (h : Hierarchy) (a : ClassId) (s : Subst) :
    Instance.expand s <$> h.filled a .any = h.filled a .any := by
  rw [filled]
  cases h.get a with
  | error f => rfl
  | ok d =>
    show Except.ok _ = Except.ok _
    simp [Instance.expand]

/-- An instance may be expanded before or after it is projected onto a declared base. If the base is
not declared, the instance is made up and has no variables.

**Proof sketch.** Expanding the instance maps its arguments, and the base is expanded by the mapped
arguments. Since the base mentions type parameters of the class only and each of them has an
argument, this is the base expanded by the arguments and then by the assignment. -/
theorem directSupertype_expand (hh : h.WellBased) (hi : h.isWellFormed i = .ok true) (a : ClassId)
    (s : Subst) :
    h.directSupertype (i.expand s) a = Instance.expand s <$> h.directSupertype i a := by
  obtain ⟨d, hd, hlen⟩ := isWellFormed_eq_ok_true_iff.1 hi
  have hget : h.get i.cls = .ok d := get_eq_ok_iff.2 hd
  rw [directSupertype, directSupertype, Instance.cls_expand, hget, ok_bind, ok_bind]
  cases hbase : d.baseOf? a with
  | none => exact (h.filled_any_expand a s).symm
  | some b =>
    have hb : b ∈ d.bases := List.mem_of_find?_eq_some hbase
    have hexpand := ClassDef.expand_assignArgs_map (r := s) (Nat.le_of_eq hlen.symm) fun v hv =>
      Or.inl ((hh i.cls d hd).closed b hb v hv)
    exact congrArg Except.ok hexpand

/-- The projection onto a declared base has as many arguments as its class has type parameters. So
the next step meets the condition that the first one did.

**Proof sketch.** A declared base is well formed, and expanding it keeps its class and the number of
its arguments. A made-up instance has an argument for each type parameter. -/
lemma isWellFormed_of_directSupertype (hh : h.WellBased) (hj : h.directSupertype i a = .ok j) :
    h.isWellFormed j = .ok true := by
  obtain ⟨d, hd, hj⟩ := bind_eq_ok_iff.1 hj
  rw [isWellFormed_eq_ok_true_iff]
  cases hbase : d.baseOf? a with
  | none =>
    rw [hbase] at hj
    obtain ⟨e, he, hj⟩ := bind_eq_ok_iff.1 hj
    obtain rfl := Except.ok.inj hj
    exact ⟨e, get_eq_ok_iff.1 he, by simp⟩
  | some b =>
    rw [hbase] at hj
    obtain rfl := Except.ok.inj hj
    have hb := (hh i.cls d (get_eq_ok_iff.1 hd)).wellFormed b (List.mem_of_find?_eq_some hbase)
    obtain ⟨e, he, hlen⟩ := isWellFormed_eq_ok_true_iff.1 hb
    exact ⟨e, he, by simpa using hlen⟩

/-! ## All steps -/

/-- An instance may be expanded before or after it is projected along a path.

**Proof sketch.** By induction on the path, with the instance kept general. The first step may be
taken before or after the expansion, and where it does not fail it gives a well-formed instance, to
which the induction hypothesis applies. -/
theorem followPath_expand (hh : h.WellBased) (hi : h.isWellFormed i = .ok true) (p : List ClassId)
    (s : Subst) : h.followPath (i.expand s) p = Instance.expand s <$> h.followPath i p := by
  induction p generalizing i with
  | nil => rfl
  | cons k p ih =>
    rw [followPath, followPath, List.foldlM_cons, List.foldlM_cons, directSupertype_expand hh hi]
    cases hj : h.directSupertype i k with
    | error f => rfl
    | ok j => exact ih (isWellFormed_of_directSupertype hh hj)

/-- An instance may be expanded before or after it is projected along the first path. The two sides
agree in what they report and in their errors too.

**Proof sketch.** An expansion keeps the class of the instance, so both sides take the same path or
meet the same error. If a path is found, it is followed, and `followPath_expand` applies. If none is
found, the instance is made up and has no variables. -/
theorem supertype_expand (hh : h.WellBased) (hi : h.isWellFormed i = .ok true) (a : ClassId)
    (s : Subst) : h.supertype (i.expand s) a = Instance.expand s <$> h.supertype i a := by
  by_cases hcls : i.cls = a
  · rw [supertype, supertype, Instance.cls_expand, if_pos hcls, if_pos hcls, map_pure]
  have hcls' : (i.expand s).cls ≠ a := hcls
  rw [supertype, supertype, if_neg hcls', if_neg hcls, map_bind]
  refine bind_congr fun listed => ?_
  cases listed with
  | false =>
    simp only [Bool.false_eq_true, if_false, map_bind]
    rfl
  | true =>
    simp only [if_true, map_bind]
    refine bind_congr fun path? => ?_
    cases path? with
    | none =>
      dsimp only
      rw [map_bind]
      refine bind_congr fun _ => ?_
      rw [Run.map_liftM_fault, filled_any_expand]
    | some p =>
      dsimp only
      rw [followPath_expand hh hi, Run.map_liftM_fault]

/-- An instance may be expanded before or after it is projected along all paths. The paths depend on
its class only, so there is one projection for each path on both sides, in the same order. -/
lemma supertypes_expand (hh : h.WellBased) (hi : h.isWellFormed i = .ok true) (a : ClassId)
    (s : Subst) :
    h.supertypes (i.expand s) a = List.map (Instance.expand s) <$> h.supertypes i a := by
  rw [supertypes, supertypes, Instance.cls_expand, map_bind]
  refine bind_congr fun ps => ?_
  have hfollow : h.followPath (i.expand s) = fun p => Instance.expand s <$> h.followPath i p :=
    funext fun p => followPath_expand hh hi p s
  rw [hfollow, mapM_functor_map]

/-- An instance may be expanded before or after it is projected, whether along the first path, along
all paths or onto a declared base. A projection along the first path reports the same. -/
theorem projections_expand (hh : h.WellBased) (hi : h.isWellFormed i = .ok true) (a : ClassId)
    (s : Subst) :
    h.supertype (i.expand s) a = Instance.expand s <$> h.supertype i a ∧
      h.supertypes (i.expand s) a = List.map (Instance.expand s) <$> h.supertypes i a ∧
      h.directSupertype (i.expand s) a = Instance.expand s <$> h.directSupertype i a :=
  ⟨supertype_expand hh hi a s, supertypes_expand hh hi a s, directSupertype_expand hh hi a s⟩

/-- Three classes below the class that every hierarchy starts with. A pair is a box of its second
component. A stack is a pair of a callable and its type parameter, and also a box. All of them use
the same variables, so a variable that was not replaced would be taken for one of another class. -/
def stacked : Hierarchy where
  classes := #[
    .fresh "object" .object,
    { ClassDef.fresh "Box" ⟨1⟩ with params := [⟨"T", ⟨1⟩⟩] },
    { ClassDef.fresh "Pair" ⟨2⟩ with
      params := [⟨"S", ⟨1⟩⟩, ⟨"T", ⟨2⟩⟩]
      bases := [⟨⟨1⟩, [.var ⟨2⟩]⟩]
      ancestors := [⟨2⟩, ⟨1⟩] },
    { ClassDef.fresh "Stack" ⟨3⟩ with
      params := [⟨"T", ⟨2⟩⟩]
      bases := [⟨⟨2⟩, [.callable [⟨.rest, none, .var ⟨2⟩⟩] .void false, .inst ⟨1⟩ [.var ⟨2⟩]]⟩,
        ⟨⟨1⟩, [.var ⟨2⟩]⟩]
      ancestors := [⟨3⟩, ⟨2⟩, ⟨1⟩] }]
  names := ∅

/-- A stack whose argument mentions variables of the classes that it is projected through. It is
well formed in a well-based hierarchy, so it may be expanded first or last. -/
theorem projections_expand_stacked :
    stacked.WellBased ∧ stacked.isWellFormed ⟨⟨3⟩, [.inst ⟨2⟩ [.var ⟨1⟩, .var ⟨2⟩]]⟩ = .ok true ∧
      ∀ a s, let i : Instance := ⟨⟨3⟩, [.inst ⟨2⟩ [.var ⟨1⟩, .var ⟨2⟩]]⟩
        stacked.supertype (i.expand s) a = Instance.expand s <$> stacked.supertype i a ∧
        stacked.supertypes (i.expand s) a =
          List.map (Instance.expand s) <$> stacked.supertypes i a ∧
        stacked.directSupertype (i.expand s) a =
          Instance.expand s <$> stacked.directSupertype i a := by
  have hh : stacked.WellBased := wellBased_of_forall_mem (by decide +kernel)
  have hi : stacked.isWellFormed ⟨⟨3⟩, [.inst ⟨2⟩ [.var ⟨1⟩, .var ⟨2⟩]]⟩ = .ok true := by
    decide +kernel
  exact ⟨hh, hi, fun a s => projections_expand hh hi a s⟩

end Hierarchy

end GenericSlots
