import GenericSlots.Proofs.Slot.Validation
set_option autoImplicit false

/-!
# Errors of validation blame the right class

A hierarchy is refused in the middle of a climb, and the climbs before have left layouts behind. The
error that comes of it names a class, and what it says of this class is true. This holds of cycles
too: a class is only blamed for one if following primary bases from it leads back to it, not if it
leads into a cycle of other classes.

## Main definitions

* `GenericSlots.Hierarchy.Blames`: what an error says of the class that it names.

## Main results

* `GenericSlots.SlotTable.blames_of_build`: a reachable hierarchy is refused only with an error that
  blames a class for something that is wrong with it.
-/

namespace GenericSlots

namespace Hierarchy

open Relation (ReflTransGen TransGen)

/-- What an error says of the class that it names. Errors about questions say nothing that could be
wrong with a class. Every part of an error is tied to the class here: the names, the numbers, and
the class or type parameter that is mentioned. -/
def Blames (h : Hierarchy) (c : ClassId) (d : ClassDef) : SlotError → Prop
  | .undefinedBase name base =>
    name = d.name ∧ (∃ b, d.primaryBase? = some b ∧ b.cls = base) ∧ ¬h.IsDefined base
  | .cyclicHierarchy name => name = d.name ∧ TransGen h.PrimaryBase c c
  | .invalidBase name baseName expected found =>
    name = d.name ∧ found ≠ expected ∧ ∃ base b, d.primaryBase? = some base ∧
      h.find? base.cls = some b ∧ baseName = b.name ∧ expected = b.arity ∧ found = base.args.length
  | .invalidAncestors name =>
    name = d.name ∧ ∃ a, ReflTransGen h.PrimaryBase c a ∧ h.IsDefined a ∧ a ∉ d.ancestors
  | .invalidTypeParameter name paramName id =>
    name = d.name ∧ ∃ before after, d.params = before ++ ⟨paramName, id⟩ :: after ∧
      (id.isClassParameter = false ∨ id ∈ before.map TypeParam.id)
  | .undefinedClass .. | .slotOutOfRange .. | .parameterOutOfRange .. | .unmappedSlot .. |
    .missingArgument .. => False

variable {h : Hierarchy} {c : ClassId} {d : ClassDef} {e : SlotError}

/-- An error that blames a class is not the fault of a question, so it is one of the internal
errors. -/
lemma Blames.isInternal (he : h.Blames c d e) : e.isInternal = true := by
  cases e with
  | undefinedBase | cyclicHierarchy | invalidBase | invalidAncestors | invalidTypeParameter => rfl
  | undefinedClass | slotOutOfRange | parameterOutOfRange | unmappedSlot | missingArgument =>
    exact he.elim

/-- Where something is wrong, there is a class to blame, as long as every class is the first of its
ancestors. Each defect is one of the class that its error names. -/
lemma Defect.exists_blames (he : h.Defect e) (hself : h.SelfFirst) :
    ∃ c d, h.find? c = some d ∧ h.Blames c d e := by
  cases he with
  | undefinedBase hd hb hundefined => exact ⟨_, _, hd, rfl, ⟨_, hb, rfl⟩, hundefined⟩
  | cyclicHierarchy hd hcyclic => exact ⟨_, _, hd, rfl, hcyclic⟩
  | invalidBase hd hb hfind harity => exact ⟨_, _, hd, rfl, harity, _, _, hb, hfind, rfl, rfl, rfl⟩
  | notFirst hd hhead => exact absurd (hself _ _ hd) hhead
  | unlisted hd hmet hdefined hmissing => exact ⟨_, _, hd, rfl, _, hmet, hdefined, hmissing⟩
  | invalidTypeParameter hd hdeclared hinvalid => exact ⟨_, _, hd, rfl, _, _, hdeclared, hinvalid⟩

end Hierarchy

namespace SlotTable

/-- A reachable hierarchy is refused only with an error that blames a class for something that is
wrong with it, and never ends in a fault, whatever is recorded.

**Proof sketch.** Recording does not change the result. At the limit of identifiers no hierarchy is
refused. Below it, a hierarchy is refused only for a defect, and classes of a reachable hierarchy
are the first of their ancestors, so there is a class to blame. -/
theorem blames_of_build {h : Hierarchy} (hr : h.Reachable) {policy : SlotPolicy} {v : Verbosity}
    {f : Failure SlotError} (hf : ((build h policy).observe h v).result = .error f) :
    ∃ e c d, f = .error e ∧ e.isInternal = true ∧ h.find? c = some d ∧ h.Blames c d e := by
  rw [(legible_build h policy).result_observe] at hf
  have hs : h.size < ClassId.limit := by
    refine Nat.lt_of_le_of_ne hr.size_le fun heq => ?_
    cases (build_of_size_eq_limit heq policy).symm.trans hf
  obtain ⟨e, rfl, he⟩ := failsByDefect_build hs f hf
  obtain ⟨c, d, hd, hblames⟩ := he.exists_blames hr.selfFirst
  exact ⟨e, c, d, rfl, hblames.isInternal, hd, hblames⟩

/-- A hierarchy whose class `Tail` leads into a cycle that it is not part of. The other two classes
are the cycle. -/
def lasso : Hierarchy :=
  (((((Hierarchy.initial.add "Tail").add "Front").add "Back").update ⟨1⟩
    fun d => { d with bases := d.bases ++ [⟨⟨2⟩, []⟩] }).update ⟨2⟩
    fun d => { d with bases := d.bases ++ [⟨⟨3⟩, []⟩] }).update ⟨3⟩
    fun d => { d with bases := d.bases ++ [⟨⟨2⟩, []⟩] }

/-- The hierarchy is made by adding three classes and giving each of them a base. -/
lemma reachable_lasso : lasso.Reachable :=
  Hierarchy.Reachable.initial.changes
    [.alloc "Tail", .alloc "Front", .alloc "Back", .addBase ⟨1⟩ ⟨⟨2⟩, []⟩, .addBase ⟨2⟩ ⟨⟨3⟩, []⟩,
      .addBase ⟨3⟩ ⟨⟨2⟩, []⟩] rfl

/-- The climb from `Tail` comes back to `Front`, which is named by the error. -/
lemma build_lasso :
    ((build lasso .appended).observe lasso .trace).result =
      .error (.error (.cyclicHierarchy "Front")) := by
  decide +kernel

/-- The climb starts at `Tail`, and `Front` is blamed, from which primary bases do lead back to
itself. -/
theorem blames_of_build_lasso :
    ((build lasso .appended).observe lasso .trace).result =
      .error (.error (.cyclicHierarchy "Front")) ∧
      ∃ e c d, Failure.error (.cyclicHierarchy "Front") = .error e ∧ e.isInternal = true ∧
        lasso.find? c = some d ∧ lasso.Blames c d e :=
  ⟨build_lasso, blames_of_build reachable_lasso build_lasso⟩

end SlotTable

end GenericSlots
