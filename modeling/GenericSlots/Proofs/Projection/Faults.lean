import GenericSlots.Proofs.Projection.Outcome
set_option autoImplicit false

/-!
# Faults of projections

A hierarchy may have bases and ancestors that are not defined, and projecting an instance does not
look at all of them. The searches pass only classes that are defined, each step of a path reads the
class that it starts from, and the class that a path leads to is not read at all. It is read where
there is nothing to follow: an instance is made up for it, or it is named in an error. So a
projection is at fault for the class of the instance or for the class that is asked for, and for
no other.

## Main definitions

* `GenericSlots.Hierarchy.Needs`: the classes that have to be defined to project an instance.
* `GenericSlots.Hierarchy.ProjectionFaults`: when searches and projections are at fault.

## Main results

* `GenericSlots.Hierarchy.reads_directSupertype`, `GenericSlots.Hierarchy.reads_supertypes`: the
  classes that are read by the projections onto a declared base and along all paths.
* `GenericSlots.Hierarchy.exists_fault_supertype`, `GenericSlots.Hierarchy.ends_supertype`: the
  projection along the first path is at fault if a class that it needs is not defined, and ends
  otherwise.
* `GenericSlots.Hierarchy.projectionFaults`: all faults of searches and projections.
-/

namespace GenericSlots

namespace Hierarchy

variable {h : Hierarchy} {i : Instance} {a c : ClassId} {d : ClassDef}

/-! ## Classes that are read -/

/-- The search for the first path reads the class that it starts from, and no other: it goes on
through the bases of defined classes only, and takes a class without a definition for one without
bases. -/
lemma reads_path (h : Hierarchy) (c a : ClassId) : h.Reads (· = c) (h.path c a) :=
  (h.reads_get c).bind_pure fun _ => h.firstPath a [c] (h.trailsFrom c [])

/-- The search for all paths reads the class that it starts from, and no other, as the search for
the first path does. -/
lemma reads_paths (h : Hierarchy) (c a : ClassId) : h.Reads (· = c) (h.paths c a) :=
  (h.reads_get c).bind_pure fun _ => h.pathsFrom a [c] c

/-- The projection onto a declared base reads the class of the instance, and the base only if it is
not declared. In that case an instance of the base is made up, which takes the number of its
parameters.

**Proof sketch.** If the class of the instance is not defined, the first step is at fault. Otherwise
its bases are searched: a base that is found is substituted into, which reads nothing, and if none
is found the made-up instance reads the base. -/
theorem reads_directSupertype (h : Hierarchy) (i : Instance) (a : ClassId) :
    h.Reads (fun k => k = i.cls ∨ k = a ∧ ∀ b ∈ h.basesOf i.cls, b.cls ≠ a)
      (h.directSupertype i a) := by
  by_cases hc : h.IsDefined i.cls
  · obtain ⟨d, hd⟩ := isDefined_iff.1 hc
    have hbases : h.basesOf i.cls = d.bases := by rw [basesOf, hd]
    rw [directSupertype, get_eq_ok_iff.2 hd, ok_bind, hbases]
    cases hbase : d.baseOf? a with
    | some b =>
      refine Or.inl ⟨⟨_, rfl⟩, ?_⟩
      rintro k (rfl | ⟨-, hnone⟩)
      · exact hc
      · have hcls : b.cls = a := by simpa using List.find?_some hbase
        exact absurd hcls (hnone b (List.mem_of_find?_eq_some hbase))
    | none =>
      have hnone : ∀ b ∈ d.bases, b.cls ≠ a := by simpa using List.find?_eq_none.1 hbase
      rcases h.reads_filled a .any with ⟨hok, hdefined⟩ | ⟨k, hk, hundefined, hfault⟩
      · refine Or.inl ⟨hok, ?_⟩
        rintro k (rfl | ⟨hk, -⟩)
        · exact hc
        · exact hdefined k hk
      · exact Or.inr ⟨k, Or.inr ⟨hk, hnone⟩, hundefined, hfault⟩
  · refine Or.inr ⟨i.cls, Or.inl rfl, hc, ?_⟩
    rw [directSupertype, get_of_not_isDefined hc]
    rfl

/-- The projections along all paths read the class of the instance, and no other. Each path that is
found can be followed, because each of its steps leads through a declared base of a class that is
defined. -/
theorem reads_supertypes (h : Hierarchy) (i : Instance) (a : ClassId) :
    h.Reads (· = i.cls) (h.supertypes i a) := by
  by_cases hc : h.IsDefined i.cls
  · obtain ⟨js, hjs, -⟩ := exists_supertypes hc a
    exact Or.inl ⟨⟨js, hjs⟩, fun k hk => hk ▸ hc⟩
  · refine Or.inr ⟨i.cls, rfl, hc, ?_⟩
    rw [supertypes, paths, get_of_not_isDefined hc]
    rfl

/-! ## The projection along the first path -/

/-- The classes that have to be defined to project an instance of a class onto another. The class of
the instance is one of them. The other one is not if it is listed as an ancestor and some walk leads
to it, because the instance is then found by following bases. Nothing has to be defined to project
onto the class of the instance itself. -/
def Needs (h : Hierarchy) (c a k : ClassId) : Prop :=
  c ≠ a ∧ (k = c ∨ k = a ∧ ¬(h.hasAncestor c a = .ok true ∧ h.LeadsTo a [] c))

/-- If a class is needed that is not defined, the projection is at fault for a class of this kind.
It need not be the given one: where both classes are missing, the fault is for the class of the
instance, which is read first.

**Proof sketch.** The case of a missing class of the instance is read off the definition. If it is
defined, the missing class is the one that is asked for. Where that one is listed, no walk leads to
it, so its parameters are read for a made-up instance. Where it is not listed, its name is read for
the error. -/
theorem exists_fault_supertype {k : ClassId} (hneeds : h.Needs i.cls a k)
    (hundefined : ¬h.IsDefined k) :
    ∃ k', h.Needs i.cls a k' ∧ ¬h.IsDefined k' ∧
      (h.supertype i a).result = .error (.fault (.undefinedClass k')) := by
  have hi : i.cls ≠ a := hneeds.1
  by_cases hc : h.IsDefined i.cls
  · refine ⟨k, hneeds, hundefined, ?_⟩
    obtain ⟨d, hd⟩ := isDefined_iff.1 hc
    rcases hneeds.2 with rfl | ⟨rfl, hnot⟩
    · exact absurd hc hundefined
    by_cases hlisted : k ∈ d.ancestors
    · -- the ancestor is listed, so nothing leads to it, and its parameters are read
      rw [hasAncestor_eq hd, decide_eq_true hlisted] at hnot
      have hw : ¬h.LeadsTo k [] i.cls := fun hw => hnot ⟨rfl, hw⟩
      rw [supertype_of_no_path hi hd hlisted (path_eq_none hd hw), filled,
        get_of_not_isDefined hundefined]
      rfl
    · -- its name is read for the error
      have hname : h.nameOf k = .error (.undefinedClass k) := by
        rw [nameOf, get_of_not_isDefined hundefined]
        rfl
      simp only [supertype, if_neg hi, hasAncestor_eq hd, decide_eq_false hlisted, nameOf_eq hd,
        hname, Run.liftM_fault_ok_bind]
      rfl
  · refine ⟨i.cls, ⟨hi, Or.inl rfl⟩, hc, ?_⟩
    simp only [supertype, if_neg hi, hasAncestor, get_of_not_isDefined hc]
    rfl

/-- If all classes are defined that are needed, the projection succeeds, or is refused because the
ancestor is not listed.

**Proof sketch.** The instance itself is the result if its class is asked for. If the ancestor is
listed and a walk leads to it, there is a first path, and it can be followed. Otherwise the ancestor
is needed, so it is defined, and the made-up instance or the error can be completed. -/
theorem ends_supertype (hneeds : ∀ k, h.Needs i.cls a k → h.IsDefined k) :
    (∃ j, (h.supertype i a).result = .ok j) ∨
      h.hasAncestor i.cls a = .ok false ∧ ∃ e, (h.supertype i a).result = .error (.error e) := by
  by_cases hi : i.cls = a
  · exact Or.inl ⟨i, by rw [supertype_of_cls_eq hi, Run.result_pure]⟩
  obtain ⟨d, hd⟩ := isDefined_iff.1 (hneeds i.cls ⟨hi, Or.inl rfl⟩)
  by_cases hderived : a ∈ d.ancestors ∧ h.LeadsTo a [] i.cls
  · obtain ⟨p, j, -, hp, hj, -⟩ := exists_supertypes_cons hd hderived.2
    refine Or.inl ⟨j, ?_⟩
    rw [supertype_of_path hi hd hderived.1 hp, hj]
    rfl
  · have hnot : ¬(h.hasAncestor i.cls a = .ok true ∧ h.LeadsTo a [] i.cls) := by
      simpa [hasAncestor_eq hd] using hderived
    obtain ⟨e, he⟩ := isDefined_iff.1 (hneeds a ⟨hi, Or.inr ⟨rfl, hnot⟩⟩)
    by_cases hlisted : a ∈ d.ancestors
    · have hw : ¬h.LeadsTo a [] i.cls := fun hw => hderived ⟨hlisted, hw⟩
      refine Or.inl ⟨⟨a, List.replicate e.arity .any⟩, ?_⟩
      rw [supertype_of_no_path hi hd hlisted (path_eq_none hd hw), filled_eq he]
      rfl
    · refine Or.inr ⟨?_, .notAnAncestor d.name e.name, ?_⟩
      · rw [hasAncestor_eq hd, decide_eq_false hlisted]
      · rw [supertype_of_unlisted hi hd he hlisted, Run.result_fail]

/-- The projection is at fault exactly if a class is needed that is not defined. The two directions
are `ends_supertype`, whose outcomes are no faults, and `exists_fault_supertype`. -/
lemma fault_supertype_iff :
    (∃ f, (h.supertype i a).result = .error (.fault f)) ↔
      ∃ k, h.Needs i.cls a k ∧ ¬h.IsDefined k := by
  constructor
  · rintro ⟨f, hf⟩
    by_contra hnone
    have hall : ∀ k, h.Needs i.cls a k → h.IsDefined k := by simpa using hnone
    rcases ends_supertype hall with ⟨j, hj⟩ | ⟨-, e, he⟩
    · cases hf.symm.trans hj
    · cases hf.symm.trans he
  · rintro ⟨k, hneeds, hundefined⟩
    obtain ⟨k', -, -, hfault⟩ := exists_fault_supertype hneeds hundefined
    exact ⟨_, hfault⟩

/-! ## All faults -/

/-- When the searches from the class of an instance and the projections of the instance are at fault
for a class that is not defined. The conditions speak of the declarations only, never of what a
search does, and each field is an equivalence. -/
structure ProjectionFaults (h : Hierarchy) (i : Instance) (a : ClassId) (v : Verbosity) : Prop where
  /-- The search for the first path needs the class that it starts from. -/
  path : (∃ f, h.path i.cls a = .error f) ↔ ¬h.IsDefined i.cls
  /-- So does the search for all paths. -/
  paths : (∃ f, h.paths i.cls a = .error f) ↔ ¬h.IsDefined i.cls
  /-- The projections along all paths need no more. -/
  supertypes : (∃ f, h.supertypes i a = .error f) ↔ ¬h.IsDefined i.cls
  /-- The projection onto a base also needs the base, unless it is declared. -/
  directSupertype : (∃ f, h.directSupertype i a = .error f) ↔
    ¬h.IsDefined i.cls ∨ ¬h.IsDefined a ∧ ∀ b ∈ h.basesOf i.cls, b.cls ≠ a
  /-- The projection onto another class also needs that class, unless it is listed as an ancestor
  and some walk leads to it. -/
  supertype : (∃ f, ((h.supertype i a).observe h v).result = .error (.fault f)) ↔
    i.cls ≠ a ∧ (¬h.IsDefined i.cls ∨
      ¬h.IsDefined a ∧ ¬(h.hasAncestor i.cls a = .ok true ∧ h.LeadsTo a [] i.cls))
  /-- Where it is not at fault, it succeeds, or is refused because the ancestor is not listed. -/
  ends : (¬∃ f, ((h.supertype i a).observe h v).result = .error (.fault f)) →
    (∃ j, ((h.supertype i a).observe h v).result = .ok j) ∨
      h.hasAncestor i.cls a = .ok false ∧
        ∃ e, ((h.supertype i a).observe h v).result = .error (.error e)

/-- Searches and projections are at fault exactly where a class is not defined that they need.
Nothing is assumed of the hierarchy, so bases and ancestors may be missing, may lead in circles and
may be listed or not.

**Proof sketch.** A computation that reads the classes of some kind is at fault exactly if one of
these is not defined. This settles the fields on the searches and on the projections by what each of
them reads. The projection along the first path also depends on what the hierarchy declares about
the ancestor, which `Needs` says, and is settled by `fault_supertype_iff` and `ends_supertype`.
Recording events does not change a result. -/
theorem projectionFaults (h : Hierarchy) (i : Instance) (a : ClassId) (v : Verbosity) :
    h.ProjectionFaults i a v where
  path := by simpa using (h.reads_path i.cls a).error_iff
  paths := by simpa using (h.reads_paths i.cls a).error_iff
  supertypes := by simpa using (h.reads_supertypes i a).error_iff
  directSupertype := by
    rw [(h.reads_directSupertype i a).error_iff]
    constructor
    · rintro ⟨k, rfl | ⟨rfl, hnone⟩, hundefined⟩
      · exact Or.inl hundefined
      · exact Or.inr ⟨hundefined, hnone⟩
    · rintro (hc | ⟨ha, hnone⟩)
      · exact ⟨_, Or.inl rfl, hc⟩
      · exact ⟨_, Or.inr ⟨rfl, hnone⟩, ha⟩
  supertype := by
    rw [result_observe_supertype, fault_supertype_iff]
    constructor
    · rintro ⟨k, ⟨hi, rfl | ⟨rfl, hnot⟩⟩, hundefined⟩
      · exact ⟨hi, Or.inl hundefined⟩
      · exact ⟨hi, Or.inr ⟨hundefined, hnot⟩⟩
    · rintro ⟨hi, hc | ⟨ha, hnot⟩⟩
      · exact ⟨_, ⟨hi, Or.inl rfl⟩, hc⟩
      · exact ⟨_, ⟨hi, Or.inr ⟨rfl, hnot⟩⟩, ha⟩
  ends := by
    rw [result_observe_supertype, fault_supertype_iff]
    intro hnone
    exact ends_supertype (by simpa using hnone)

end Hierarchy

end GenericSlots
