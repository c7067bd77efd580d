import GenericSlots.Proofs.Log.Observed
import GenericSlots.Proofs.Projection.Instantiation
set_option autoImplicit false

/-!
# Outcomes of a projection

The projection of an instance onto a class comes out in one of four ways. Which one it is depends on
the classes alone: whether they are the same, whether the one lists the other, and whether declared
bases lead from the one to the other.

The search for a path passes no class twice, while any walk counts that leads to the ancestor. They
agree because a walk that comes back to a class can be cut short.

## Main definitions

* `GenericSlots.Hierarchy.ComesOut`: the four outcomes.

## Main results

* `GenericSlots.Hierarchy.supertype_of_cls_eq`, `GenericSlots.Hierarchy.supertype_of_unlisted`,
  `GenericSlots.Hierarchy.supertype_of_path`, `GenericSlots.Hierarchy.supertype_of_no_path`: what a
  projection does in each case.
* `GenericSlots.Hierarchy.exists_supertypes_cons`: there is a projection along the first path if
  there is a walk.
* `GenericSlots.Hierarchy.comesOut_supertype`: projections have these outcomes at every verbosity.
-/

namespace GenericSlots

namespace Hierarchy

variable {h : Hierarchy} {i : Instance} {a c : ClassId} {d e : ClassDef}

/-! ## Cases -/

/-- An instance is its own projection onto its class. Neither the class nor its declaration is
looked at, so this holds of classes that are not defined. -/
theorem supertype_of_cls_eq (hi : i.cls = a) : h.supertype i a = pure i := by
  rw [supertype, if_pos hi]

/-- An instance is refused if its class is another one that does not list the ancestor. The error
names both classes, which is why both have to be defined. -/
theorem supertype_of_unlisted (hi : i.cls ≠ a) (hd : h.find? i.cls = some d)
    (he : h.find? a = some e) (ha : a ∉ d.ancestors) :
    h.supertype i a = Run.fail (.notAnAncestor d.name e.name) := by
  simp only [supertype, if_neg hi, hasAncestor_eq hd, decide_eq_false ha, nameOf_eq hd,
    nameOf_eq he, Run.liftM_fault_ok_bind]
  rfl

/-- If there is a path to a listed ancestor, the first one is followed. The result is whatever
following it gives, faults included. -/
theorem supertype_of_path {p : List ClassId} (hi : i.cls ≠ a) (hd : h.find? i.cls = some d)
    (ha : a ∈ d.ancestors) (hp : h.path i.cls a = .ok (some p)) :
    h.supertype i a = liftM (h.followPath i p) := by
  simp only [supertype, if_neg hi, hasAncestor_eq hd, decide_eq_true ha, hp,
    Run.liftM_fault_ok_bind, if_true]

/-- If there is no path to a listed ancestor, this is reported, and the arguments could be anything:
there is one `Any` for each parameter of the ancestor. -/
theorem supertype_of_no_path (hi : i.cls ≠ a) (hd : h.find? i.cls = some d)
    (ha : a ∈ d.ancestors) (hp : h.path i.cls a = .ok none) :
    h.supertype i a = Run.report (.baselessAncestor i.cls a) >>= fun _ =>
      liftM (h.filled a .any) := by
  simp only [supertype, if_neg hi, hasAncestor_eq hd, decide_eq_true ha, hp,
    Run.liftM_fault_ok_bind, if_true]

/-! ## Walks -/

/-- The first path is the first one that is enumerated. The search colours classes and never returns
to one, while the enumeration only avoids classes on the current path, so this is where the two are
compared. -/
lemma path_eq_head?_pathsFrom (hd : h.find? c = some d) (a : ClassId) :
    h.path c a = .ok (h.pathsFrom a [c] c).head? := by
  obtain ⟨seen, -, hfirst⟩ := firstPath_trailsFrom (c := c) (h.explored_self a [c]) [] []
  rw [List.append_nil] at hfirst
  have hhead : h.firstPath a [c] (h.trailsFrom c []) = (h.pathsFrom a [c] c).head? := by
    simp [hfirst, firstPath]
  rw [path_eq_firstPath hd, hhead]

/-- If no walk leads to a class, there is no path to it. A walk may pass a class twice and a path
may not, but a walk that does can be cut short to a path. -/
lemma path_eq_none (hd : h.find? c = some d) (hw : ¬h.LeadsTo a [] c) :
    h.path c a = .ok none := by
  rw [← leadsTo_cons_self_iff, ← pathsFrom_eq_nil_iff] at hw
  rw [path_eq_head?_pathsFrom hd, hw]
  rfl

/-- If some walk leads to a class, there is a projection along the first path to it. It is the first
of the projections along all paths.

**Proof sketch.** A walk can be cut short to a path, so the enumeration of paths is not empty. Its
first path is the one that is searched for, and every path of it can be followed to an instance of
the target. -/
theorem exists_supertypes_cons (hd : h.find? i.cls = some d) (hw : h.LeadsTo a [] i.cls) :
    ∃ p j js, h.path i.cls a = .ok (some p) ∧ h.followPath i p = .ok j ∧
      h.supertypes i a = .ok (j :: js) ∧ j.cls = a := by
  have heach : ∀ p ∈ h.pathsFrom a [i.cls] i.cls, ∃ j, h.followPath i p = .ok j ∧ j.cls = a :=
    fun _ => exists_followPath_of_mem_pathsFrom
  have hpath := path_eq_head?_pathsFrom hd a
  cases hpaths : h.pathsFrom a [i.cls] i.cls with
  | nil => exact absurd (leadsTo_cons_self_iff.2 hw) (pathsFrom_eq_nil_iff.1 hpaths)
  | cons p ps =>
    rw [hpaths] at heach hpath
    obtain ⟨j, hj, hcls⟩ := heach p List.mem_cons_self
    obtain ⟨js, hjs, -⟩ := exists_mapM_eq_ok fun p' hp' =>
      (heach p' (List.mem_cons_of_mem _ hp')).imp fun _ => And.left
    refine ⟨p, j, js, hpath, hj, ?_, hcls⟩
    rw [supertypes_eq_mapM (isDefined_iff.2 ⟨d, hd⟩), hpaths, List.mapM_cons, hj, ok_bind, hjs]
    rfl

/-! ## Outcomes -/

/-- The four outcomes of a projection onto a class that is defined. Each field gives the result for
one case, and the cases exclude each other and leave none out, because `LeadsTo` and being listed
are both decided by the declarations. -/
structure ComesOut (h : Hierarchy) (i : Instance) (d : ClassDef) (a : ClassId) (e : ClassDef)
    (result : Except (Failure ProjectionError) Instance) : Prop where
  /-- An instance of the class stays as it is. -/
  same : i.cls = a → result = .ok i
  /-- A class that is not listed as an ancestor is refused. -/
  unlisted : i.cls ≠ a → a ∉ d.ancestors →
    result = .error (.error (.notAnAncestor d.name e.name))
  /-- If some walk leads to a listed ancestor, it is the first projection along all paths. -/
  derived : i.cls ≠ a → a ∈ d.ancestors → h.LeadsTo a [] i.cls →
    ∃ j js, h.supertypes i a = .ok (j :: js) ∧ result = .ok j
  /-- Otherwise the arguments could be anything. -/
  baseless : i.cls ≠ a → a ∈ d.ancestors → ¬h.LeadsTo a [] i.cls →
    result = .ok ⟨a, List.replicate e.arity .any⟩
  /-- What comes out is an instance of the class. -/
  cls_eq : ∀ j, result = .ok j → j.cls = a

/-- What a projection succeeds with is an instance of the class that is asked for.

**Proof sketch.** By the four cases. The instance itself and the made-up instance are of this class
by definition, following a path leads to the class at its end, and the fourth case does not
succeed. -/
lemma cls_of_supertype (hd : h.find? i.cls = some d) (he : h.find? a = some e) {j : Instance}
    (hj : (h.supertype i a).result = .ok j) : j.cls = a := by
  by_cases hi : i.cls = a
  · rw [supertype_of_cls_eq hi] at hj
    obtain rfl : i = j := Except.ok.inj hj
    exact hi
  by_cases ha : a ∈ d.ancestors
  · by_cases hw : h.LeadsTo a [] i.cls
    · obtain ⟨p, j', -, hp, hj', -, hcls⟩ := exists_supertypes_cons hd hw
      rw [supertype_of_path hi hd ha hp, hj'] at hj
      obtain rfl : j' = j := Except.ok.inj hj
      exact hcls
    · rw [supertype_of_no_path hi hd ha (path_eq_none hd hw), filled_eq he] at hj
      obtain rfl := Except.ok.inj hj
      rfl
  · rw [supertype_of_unlisted hi hd he ha] at hj
    cases hj

/-- A projection onto a class that is defined has one of four outcomes, at every verbosity. Nothing
is assumed of the bases on the way, which may be missing or lead in circles.

**Proof sketch.** Recording events does not change the result of a projection. For each case there
is a lemma that says what the computation does, and whether the search for a path succeeds is
decided by whether a walk exists. -/
theorem comesOut_supertype (hd : h.find? i.cls = some d) (he : h.find? a = some e)
    (v : Verbosity) : h.ComesOut i d a e ((h.supertype i a).observe h v).result := by
  rw [result_observe_supertype]
  exact {
    same := fun hi => by
      rw [supertype_of_cls_eq hi, Run.result_pure]
    unlisted := fun hi ha => by
      rw [supertype_of_unlisted hi hd he ha, Run.result_fail]
    derived := fun hi ha hw => by
      obtain ⟨p, j, js, hp, hj, hjs, -⟩ := exists_supertypes_cons hd hw
      rw [supertype_of_path hi hd ha hp, hj]
      exact ⟨j, js, hjs, rfl⟩
    baseless := fun hi ha hw => by
      rw [supertype_of_no_path hi hd ha (path_eq_none hd hw), filled, get_eq_ok_iff.2 he]
      rfl
    cls_eq := fun j => cls_of_supertype hd he }

/-- The way up from the class at the bottom passes a base that is not defined and one that leads
back down. The hypotheses hold all the same, so the outcome is one of the four. -/
theorem comesOut_supertype_leaf :
    Twisted.hierarchy.find? ⟨4⟩ = some Twisted.leaf ∧
      Twisted.hierarchy.find? ⟨1⟩ = some Twisted.pair ∧
      Twisted.hierarchy.ComesOut ⟨⟨4⟩, [.noneType]⟩ Twisted.leaf ⟨1⟩ Twisted.pair
        ((Twisted.hierarchy.supertype ⟨⟨4⟩, [.noneType]⟩ ⟨1⟩).observe Twisted.hierarchy
          .trace).result :=
  ⟨rfl, rfl, comesOut_supertype rfl rfl .trace⟩

end Hierarchy

end GenericSlots
