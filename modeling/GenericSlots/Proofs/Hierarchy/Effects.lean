import GenericSlots.Proofs.Hierarchy.History
set_option autoImplicit false

/-!
# What changes do to classes

A change that succeeds leaves all classes but a few as they are. For each change this module gives
the condition under which it succeeds and the class that it replaces or adds, so that what follows
from a change can be told without the change itself.

## Main definitions

* `GenericSlots.Hierarchy.Replaced`: a hierarchy in which one class is replaced.
* `GenericSlots.Hierarchy.Added`: a hierarchy to which one class is added.

## Main results

* `GenericSlots.Edit.exists_update`, `GenericSlots.Edit.exists_newParam`,
  `GenericSlots.Edit.exists_extend`: the class that a change replaces.
* `GenericSlots.Edit.exists_defineGeneric`: the class that is added with type parameters.
-/

namespace GenericSlots

namespace ClassDef

/-- Declares type parameters one after another, from the left. -/
def declareParams (d : ClassDef) (ps : List TypeParam) : ClassDef :=
  ps.foldl declareParam d

/-- Adds a declared base and lists ancestors, starting with the class itself. -/
def withBase (d : ClassDef) (c : ClassId) (base : Instance) (ancestors : List ClassId) : ClassDef :=
  { d with bases := d.bases ++ [base], ancestors := c :: ancestors }

end ClassDef

namespace Hierarchy

variable {h h' h'' : Hierarchy} {b c : ClassId} {d d' : ClassDef}

/-- A hierarchy is another one in which a class is as given. Nothing is said about what names refer
to, since no change of a class has to do with that. -/
structure Replaced (h : Hierarchy) (c : ClassId) (d : ClassDef) (h' : Hierarchy) : Prop where
  /-- There are as many classes as before. -/
  size : h'.size = h.size
  /-- The other classes are as before. -/
  find? : ∀ b, h'.find? b = if b = c then some d else h.find? b

/-- A hierarchy is another one with one more class. Nothing is said about what names refer to. -/
structure Added (h : Hierarchy) (d : ClassDef) (h' : Hierarchy) : Prop where
  /-- There is one class more than before. -/
  size : h'.size = h.size + 1
  /-- The class has the next identifier, and the other classes are as before. -/
  find? : ∀ b, h'.find? b = if b = .ofIndex h.size then some d else h.find? b

/-- The class that is replaced is as given. -/
lemma Replaced.self (hh : h.Replaced c d h') : h'.find? c = some d := by
  rw [hh.find?, if_pos rfl]

/-- A class that is not replaced is as before. -/
lemma Replaced.of_ne (hh : h.Replaced c d h') (hb : b ≠ c) : h'.find? b = h.find? b := by
  rw [hh.find?, if_neg hb]

/-- Of two replacements of a class the second counts. -/
lemma Replaced.trans (hh : h.Replaced c d h') (hh' : h'.Replaced c d' h'') :
    h.Replaced c d' h'' where
  size := hh'.size.trans hh.size
  find? b := by
    rw [hh'.find?, hh.find?]
    by_cases hb : b = c <;> simp [hb]

/-- The class that is added has the next identifier. -/
lemma Added.self (hh : h.Added d h') : h'.find? (.ofIndex h.size) = some d := by
  rw [hh.find?, if_pos rfl]

/-- A class that there was before is as before. This needs that there is an identifier left, because
the next one would wrap around otherwise and be that of another class. -/
lemma Added.of_find? (hh : h.Added d h') (hs : h.size < ClassId.limit)
    (hb : h.find? b = some d') : h'.find? b = some d' := by
  have hlt : b.index < h.size := isDefined_iff.2 ⟨d', hb⟩
  have hne : b ≠ .ofIndex h.size := by
    rintro rfl
    rw [ClassId.index_ofIndex hs] at hlt
    exact Nat.lt_irrefl _ hlt
  rw [hh.find?, if_neg hne, hb]

/-- A class that is added may be replaced at once. So adding a class and then changing it amounts to
adding the changed class. -/
lemma Added.trans (hh : h.Added d h') (hh' : h'.Replaced (.ofIndex h.size) d' h'') :
    h.Added d' h'' where
  size := hh'.size.trans hh.size
  find? b := by
    rw [hh'.find?, hh.find?]
    by_cases hb : b = .ofIndex h.size <;> simp [hb]

end Hierarchy

namespace Edit

open Hierarchy

variable {h : Hierarchy} {c : ClassId} {d e : ClassDef}

/-- A class that is defined can be changed, and the change replaces this class and no other. -/
theorem exists_update (hd : h.find? c = some d) (f : ClassDef → ClassDef) :
    ∃ h', update c f h = .ok ((), h') ∧ h.Replaced c (f d) h' := by
  refine ⟨_, update_eq_ok_iff.2 ⟨isDefined_iff.2 ⟨d, hd⟩, rfl⟩, size_update h c f, fun b => ?_⟩
  rw [find?_update]
  by_cases hb : b = c
  · rw [if_pos hb, if_pos hb.symm, hb, hd, Option.map_some]
  · rw [if_neg hb, if_neg (Ne.symm hb)]

/-- A class that is defined gets another type parameter with the next identifier. -/
theorem exists_newParam (hd : h.find? c = some d) (name : String) :
    ∃ h', newParam c name h = .ok (d.nextParamId, h') ∧
      h.Replaced c (d.declareParam ⟨name, d.nextParamId⟩) h' := by
  obtain ⟨h', hok, hh⟩ := exists_update hd fun d' => d'.declareParam ⟨name, d.nextParamId⟩
  exact ⟨h', newParam_eq_ok_iff.2 ⟨d, hd, rfl, hok⟩, hh⟩

/-- A class that is defined gets a type parameter for each of some names, each with the identifier
that is next at that time.

**Proof sketch.** Induction on the names. Each parameter replaces the class, and of several
replacements the last counts (`Replaced.trans`). -/
lemma exists_newParams (hd : h.find? c = some d) (names : List String) :
    ∃ h', (names.forM fun name => discard (newParam c name)) h = .ok ((), h') ∧
      h.Replaced c (d.declareParams (d.newParams names)) h' := by
  induction names generalizing h d with
  | nil =>
    refine ⟨h, rfl, rfl, fun b => ?_⟩
    by_cases hb : b = c
    · rw [if_pos hb, hb, hd]
      rfl
    · rw [if_neg hb]
  | cons name names ih =>
    obtain ⟨h₁, hok₁, hh₁⟩ := exists_newParam hd name
    obtain ⟨h₂, hok₂, hh₂⟩ := ih hh₁.self
    have hdiscard : discard (newParam c name) h = .ok ((), h₁) :=
      bind_eq_ok_iff.2 ⟨(d.nextParamId, h₁), hok₁, rfl⟩
    exact ⟨h₂, bind_eq_ok_iff.2 ⟨((), h₁), hdiscard, hok₂⟩, hh₁.trans hh₂⟩

/-- A class that is defined gets a base that is defined, and the ancestors of the base. They are
those that the base had before, even if it is the class itself. -/
theorem exists_extend {b : Instance} (hd : h.find? c = some d) (he : h.find? b.cls = some e) :
    ∃ h', extend c b h = .ok ((), h') ∧ h.Replaced c (d.withBase c b e.ancestors) h' := by
  obtain ⟨h₁, hok₁, hh₁⟩ := exists_update hd fun d => { d with bases := d.bases ++ [b] }
  obtain ⟨h₂, hok₂, hh₂⟩ := exists_update hh₁.self fun d => { d with ancestors := c :: e.ancestors }
  refine ⟨h₂, ?_, hh₁.trans hh₂⟩
  have hget : get b.cls h = .ok (e, h) := bind_eq_ok_iff.2 ⟨e, get_eq_ok_iff.2 he, rfl⟩
  exact bind_eq_ok_iff.2 ⟨(e, h), hget, bind_eq_ok_iff.2 ⟨((), h₁), hok₁, hok₂⟩⟩

/-- A class with type parameters can be added unless all identifiers are in use. The hierarchy then
has one class more, and that class has a parameter for each name.

**Proof sketch.** Adding a class without parameters is `Added`, and declaring the parameters
replaces that class, so `Added.trans` puts the two together. -/
theorem exists_defineGeneric (hs : h.size < ClassId.limit) (name : String) (names : List String) :
    let c := ClassId.ofIndex h.size
    ∃ h', defineGeneric name names h = .ok (c, h') ∧
      h.Added ((ClassDef.fresh name c).declareParams ((ClassDef.fresh name c).newParams names))
        h' := by
  intro c
  have hadded : h.Added (.fresh name c) (h.add name) := by
    refine ⟨size_add h name, fun b => ?_⟩
    rw [find?_add]
    by_cases hb : b = c
    · rw [if_pos hb, if_pos (hb ▸ ClassId.index_ofIndex hs)]
    · rw [if_neg hb, if_neg fun hindex => hb (by rw [← b.ofIndex_index, hindex])]
  obtain ⟨h', hok, hh⟩ := exists_newParams hadded.self names
  refine ⟨h', ?_, hadded.trans hh⟩
  refine bind_eq_ok_iff.2 ⟨(c, h.add name), alloc_eq_ok_iff.2 ⟨hs, rfl, rfl⟩, ?_⟩
  exact bind_eq_ok_iff.2 ⟨((), h'), hok, rfl⟩

end Edit

end GenericSlots
