import GenericSlots.Proofs.Projection.Outcome
import GenericSlots.Proofs.Projection.Substitution
set_option autoImplicit false

/-!
# The variables of projections

A projection is meant to be in terms of the variables of the instance that is projected. The classes
on the way have variables of their own, with the same identifiers, so a variable that was left over
from one of them could not be told from one of the instance. None is left over: each step replaces
all variables of a base by arguments, because the base mentions type parameters of its class only
and there is an argument for each of them. What this takes is kept by the step, so it holds along
paths of any length.

## Main definitions

* `GenericSlots.Hierarchy.Restates`: a well-formed instance in terms of the variables of another.

## Main results

* `GenericSlots.Hierarchy.restates_of_directSupertype`,
  `GenericSlots.Hierarchy.restates_of_followPath`: one step of a projection and all steps.
* `GenericSlots.Hierarchy.restates_projections`: all projections onto a class that is defined.
-/

namespace GenericSlots

namespace Hierarchy

/-- An instance that has as many arguments as its class has type parameters and mentions no
variables but those of another instance. The first half makes the relation something that a further
step can start from. -/
structure Restates (h : Hierarchy) (i j : Instance) : Prop where
  /-- There is an argument for each type parameter. -/
  wellFormed : h.isWellFormed j = .ok true
  /-- All variables are those of the other instance. -/
  vars_subset : j.vars ⊆ i.vars

variable {h : Hierarchy} {i j k : Instance} {a : ClassId}

/-- A well-formed instance mentions no variables but its own. -/
lemma Restates.refl (hi : h.isWellFormed i = .ok true) : h.Restates i i :=
  ⟨hi, List.Subset.refl _⟩

/-- The relation is passed on along a path, step by step. -/
lemma Restates.trans (hij : h.Restates i j) (hjk : h.Restates j k) : h.Restates i k :=
  ⟨hjk.wellFormed, List.Subset.trans hjk.vars_subset hij.vars_subset⟩

/-- An instance whose arguments could be anything mentions no variables, and has one argument for
each type parameter of its class. -/
lemma restates_of_filled (hj : h.filled a .any = .ok j) : j.cls = a ∧ h.Restates i j := by
  obtain ⟨e, he, hj⟩ := bind_eq_ok_iff.1 hj
  obtain rfl := Except.ok.inj hj
  refine ⟨rfl, ?_, ?_⟩
  · exact isWellFormed_eq_ok_true_iff.2 ⟨e, get_eq_ok_iff.1 he, List.length_replicate⟩
  · intro v hv
    obtain ⟨t, ht, hv⟩ := List.mem_flatMap.1 hv
    obtain rfl := List.eq_of_mem_replicate ht
    cases hv

/-! ## Steps -/

/-- The projection onto a declared base mentions the variables of the arguments, since the base
mentions nothing but type parameters.

**Proof sketch.** A variable of the expanded base comes from an argument or is one of the base that
was not replaced. The latter would not be a type parameter of the class, since there is an argument
for each of these, but the base mentions nothing else. -/
theorem restates_of_directSupertype (hh : h.WellBased) (hi : h.isWellFormed i = .ok true)
    (hj : h.directSupertype i a = .ok j) : h.Restates i j := by
  refine ⟨isWellFormed_of_directSupertype hh hj, ?_⟩
  obtain ⟨d, hd, hlen⟩ := isWellFormed_eq_ok_true_iff.1 hi
  rw [directSupertype, get_eq_ok_iff.2 hd, ok_bind] at hj
  cases hbase : d.baseOf? a with
  | none =>
    rw [hbase] at hj
    exact (restates_of_filled hj).2.vars_subset
  | some b =>
    rw [hbase] at hj
    obtain rfl := Except.ok.inj hj
    have hb : b ∈ d.bases := List.mem_of_find?_eq_some hbase
    intro v hv
    rw [← Instance.vars_toTy, Instance.toTy_expand] at hv
    rcases ClassDef.mem_vars_of_expand_assignArgs (Nat.le_of_eq hlen.symm) hv with
      hv | ⟨hv, hnot⟩
    · exact hv
    · rw [Instance.vars_toTy] at hv
      exact absurd ((hh i.cls d hd).closed b hb v hv) hnot

/-- The projection along a path mentions the variables of the arguments.

**Proof sketch.** By induction on the path, with the instance kept general. One step restates the
instance and is well formed, so the rest of the path restates the result of the step. -/
theorem restates_of_followPath (hh : h.WellBased) (hi : h.isWellFormed i = .ok true)
    {p : List ClassId} (hj : h.followPath i p = .ok j) : h.Restates i j := by
  induction p generalizing i with
  | nil =>
    obtain rfl : i = j := Except.ok.inj hj
    exact .refl hi
  | cons c p ih =>
    rw [followPath, List.foldlM_cons] at hj
    obtain ⟨i', hi', hj⟩ := bind_eq_ok_iff.1 hj
    have hstep := restates_of_directSupertype hh hi hi'
    exact hstep.trans (ih hstep.wellFormed hj)

/-! ## Projections -/

/-- The class itself and every ancestor that it lists have a projection along the first path, which
is an instance of the class that is asked for.

**Proof sketch.** The instance itself is the projection onto its class. If a walk leads to the
ancestor, a path is found and followed. Otherwise the instance is made up, which is possible because
the ancestor is defined. -/
lemma restates_of_listed (hh : h.WellBased) (hi : h.isWellFormed i = .ok true)
    (ha : h.IsDefined a) (hlisted : i.cls = a ∨ h.hasAncestor i.cls a = .ok true) :
    ∃ j, (h.supertype i a).result = .ok j ∧ j.cls = a ∧ h.Restates i j := by
  obtain ⟨d, hd, -⟩ := isWellFormed_eq_ok_true_iff.1 hi
  obtain ⟨e, he⟩ := isDefined_iff.1 ha
  by_cases hcls : i.cls = a
  · refine ⟨i, ?_, hcls, .refl hi⟩
    rw [supertype_of_cls_eq hcls, Run.result_pure]
  have hmem : a ∈ d.ancestors := by
    simpa [hasAncestor_eq hd] using hlisted.resolve_left hcls
  by_cases hw : h.LeadsTo a [] i.cls
  · obtain ⟨p, j, -, hp, hj, -, hcls'⟩ := exists_supertypes_cons hd hw
    refine ⟨j, ?_, hcls', restates_of_followPath hh hi hj⟩
    rw [supertype_of_path hcls hd hmem hp, hj]
    rfl
  · refine ⟨_, ?_, restates_of_filled (filled_eq he .any)⟩
    rw [supertype_of_no_path hcls hd hmem (path_eq_none hd hw), filled_eq he]
    rfl

/-- The projections along all paths are instances of the class that is asked for and restate the
instance, since each of them is what some path gives. -/
lemma restates_of_mem_supertypes (hh : h.WellBased) (hi : h.isWellFormed i = .ok true) :
    ∃ js, h.supertypes i a = .ok js ∧ ∀ j ∈ js, j.cls = a ∧ h.Restates i j := by
  obtain ⟨d, hd, -⟩ := isWellFormed_eq_ok_true_iff.1 hi
  obtain ⟨js, hjs, hall⟩ := exists_supertypes (isDefined_iff.2 ⟨d, hd⟩) a
  refine ⟨js, hjs, fun j hj => ?_⟩
  obtain ⟨hcls, p, hfollow⟩ := hall j hj
  exact ⟨hcls, restates_of_followPath hh hi hfollow⟩

/-- The projections onto a class that is defined are instances of that class with an argument for
each of its type parameters, and mention no variables but those of the instance. There is one along
the first path for the class itself and for every ancestor that it lists.

**Proof sketch.** For the first path, a class that is listed, or is the class of the instance, has
such a projection by `restates_of_listed`, and it is the only result. A class that is not listed is
refused, so there is no result to speak of. The projections along all paths are settled by
`restates_of_mem_supertypes`. -/
theorem restates_projections (hh : h.WellBased) (hi : h.isWellFormed i = .ok true)
    (ha : h.IsDefined a) (v : Verbosity) :
    (i.cls = a ∨ h.hasAncestor i.cls a = .ok true →
      ∃ j, ((h.supertype i a).observe h v).result = .ok j) ∧
    (∀ j, ((h.supertype i a).observe h v).result = .ok j → j.cls = a ∧ h.Restates i j) ∧
    ∃ js, h.supertypes i a = .ok js ∧ ∀ j ∈ js, j.cls = a ∧ h.Restates i j := by
  rw [result_observe_supertype]
  refine ⟨fun hlisted => ?_, fun j hj => ?_, restates_of_mem_supertypes hh hi⟩
  · exact (restates_of_listed hh hi ha hlisted).imp fun _ => And.left
  · by_cases hlisted : i.cls = a ∨ h.hasAncestor i.cls a = .ok true
    · obtain ⟨j', hj', hrestates⟩ := restates_of_listed hh hi ha hlisted
      obtain rfl : j' = j := Except.ok.inj (hj'.symm.trans hj)
      exact hrestates
    · -- the ancestor is not listed, so nothing comes out
      obtain ⟨d, hd, -⟩ := isWellFormed_eq_ok_true_iff.1 hi
      obtain ⟨e, he⟩ := isDefined_iff.1 ha
      rw [not_or, hasAncestor_eq hd, Except.ok.injEq, decide_eq_true_iff] at hlisted
      rw [supertype_of_unlisted hlisted.1 hd he hlisted.2] at hj
      cases hj

/-- A stack whose argument mentions two variables. The classes on its way to the class of boxes use
the same two, and none of theirs is left over. -/
theorem restates_projections_stacked :
    stacked.WellBased ∧ stacked.isWellFormed ⟨⟨3⟩, [.inst ⟨2⟩ [.var ⟨1⟩, .var ⟨2⟩]]⟩ = .ok true ∧
      stacked.IsDefined ⟨1⟩ ∧
      let i : Instance := ⟨⟨3⟩, [.inst ⟨2⟩ [.var ⟨1⟩, .var ⟨2⟩]]⟩
      (i.cls = ⟨1⟩ ∨ stacked.hasAncestor i.cls ⟨1⟩ = .ok true →
        ∃ j, ((stacked.supertype i ⟨1⟩).observe stacked .trace).result = .ok j) ∧
      (∀ j, ((stacked.supertype i ⟨1⟩).observe stacked .trace).result = .ok j →
        j.cls = ⟨1⟩ ∧ stacked.Restates i j) ∧
      ∃ js, stacked.supertypes i ⟨1⟩ = .ok js ∧ ∀ j ∈ js, j.cls = ⟨1⟩ ∧ stacked.Restates i j := by
  have hh : stacked.WellBased := wellBased_of_forall_mem (by decide +kernel)
  have hi : stacked.isWellFormed ⟨⟨3⟩, [.inst ⟨2⟩ [.var ⟨1⟩, .var ⟨2⟩]]⟩ = .ok true := by
    decide +kernel
  exact ⟨hh, hi, by decide, restates_projections hh hi (by decide) .trace⟩

end Hierarchy

end GenericSlots
