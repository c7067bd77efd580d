import GenericSlots.Proofs.Hierarchy.Reachable
set_option autoImplicit false

/-!
# The index of names

A hierarchy finds classes by name through an index beside the classes. Several classes may have the
same name, and the index then holds the one that was added last, which is the one with the greatest
identifier.

## Main definitions

* `GenericSlots.Hierarchy.IsNamed`: a class of a given name.
* `GenericSlots.Hierarchy.NamesLast`: an index that holds the last class of every name.

## Main results

* `GenericSlots.Hierarchy.Reachable.namesLast`: the index of a reachable hierarchy is right.
-/

namespace GenericSlots

/-- Declaring a type parameter does not change the name of a class. -/
lemma ClassDef.name_declareParam (d : ClassDef) (p : TypeParam) :
    (d.declareParam p).name = d.name := by
  rw [declareParam]
  split <;> rfl

namespace Hierarchy

/-- The class is defined and has the name. This is about the class itself, and not about the
index. -/
def IsNamed (h : Hierarchy) (c : ClassId) (name : String) : Prop :=
  ∃ d, h.find? c = some d ∧ d.name = name

/-- Every name refers to the class with the greatest identifier among those that have it, and to
none if there is no such class. This says what the index holds in terms of the classes alone. -/
structure NamesLast (h : Hierarchy) : Prop where
  /-- A name refers to the last class that has it. -/
  some_iff : ∀ name c, h.named? name = some c ↔
    h.IsNamed c name ∧ ∀ b, h.IsNamed b name → b.index ≤ c.index
  /-- A name refers to none if no class has it. -/
  none_iff : ∀ name, h.named? name = none ↔ ∀ c, ¬h.IsNamed c name

variable {h : Hierarchy} {c : ClassId} {name : String}

/-- A class that has a name is one of the classes of the hierarchy. -/
lemma IsNamed.index_lt (hc : h.IsNamed c name) : c.index < h.size := by
  obtain ⟨d, hd, -⟩ := hc
  exact isDefined_iff.2 ⟨d, hd⟩

/-- Adding a class names it, and leaves the names of the others as they are.

**Proof sketch.** At the position that was free before stands the class that is added, which had no
name then. At every other position stands what stood there before. -/
lemma isNamed_add (h : Hierarchy) (added : String) (c : ClassId) (name : String) :
    (h.add added).IsNamed c name ↔ c.index = h.size ∧ added = name ∨ h.IsNamed c name := by
  by_cases hc : c.index = h.size
  · have hnot : ¬h.IsNamed c name := fun hnamed => Nat.ne_of_lt hnamed.index_lt hc
    rw [or_iff_left hnot, IsNamed, find?_add, if_pos hc]
    constructor
    · rintro ⟨d, hd, hname⟩
      obtain rfl := Option.some.inj hd
      exact ⟨hc, hname⟩
    · rintro ⟨-, hname⟩
      exact ⟨_, rfl, hname⟩
  · rw [IsNamed, find?_add, if_neg hc]
    exact (or_iff_right fun hnew => hc hnew.1).symm

/-- A change that keeps the name of its class leaves all names as they are. -/
lemma isNamed_update {f : ClassDef → ClassDef} (hf : ∀ d, (f d).name = d.name) (h : Hierarchy)
    (b c : ClassId) (name : String) : (h.update b f).IsNamed c name ↔ h.IsNamed c name := by
  by_cases hbc : b = c
  · simp only [IsNamed, find?_update, if_pos hbc, Option.map_eq_some_iff]
    constructor
    · rintro ⟨_, ⟨d, hd, rfl⟩, hname⟩
      exact ⟨d, hd, (hf d).symm.trans hname⟩
    · rintro ⟨d, hd, hname⟩
      exact ⟨f d, ⟨d, hd, rfl⟩, (hf d).trans hname⟩
  · simp only [IsNamed, find?_update, if_neg hbc]

/-- The name of an added class refers to it, and other names to what they did before. -/
lemma named?_add (h : Hierarchy) (added name : String) :
    (h.add added).named? name =
      if added = name then some (.ofIndex h.size) else h.named? name := by
  simp only [named?, add, Std.HashMap.getElem?_insert, beq_iff_eq]

/-- Adding a class keeps the index right, since the identifier of the class is the greatest.

**Proof sketch.** For the name of the class that is added, all classes that have it come before this
one, which the index now holds. For any other name, neither the index nor the classes that have it
have changed. -/
lemma NamesLast.add (hh : h.NamesLast) (hs : h.size < ClassId.limit) (added : String) :
    (h.add added).NamesLast where
  some_iff name c := by
    have hindex := ClassId.index_ofIndex hs
    simp only [named?_add, isNamed_add]
    by_cases hname : added = name
    · simp only [hname, if_true, and_true, Option.some.injEq]
      constructor
      · rintro rfl
        refine ⟨Or.inl hindex, ?_⟩
        rintro b (hb | hb)
        · exact Nat.le_of_eq (hb.trans hindex.symm)
        · rw [hindex]
          exact Nat.le_of_lt hb.index_lt
      · rintro ⟨hc | hc, hlast⟩
        · rw [← hc, ClassId.ofIndex_index]
        · have := hlast _ (Or.inl hindex)
          have := hc.index_lt
          omega
    · simp only [hname, if_false, and_false, false_or]
      exact hh.some_iff name c
  none_iff name := by
    simp only [named?_add, isNamed_add]
    by_cases hname : added = name
    · simp only [hname, if_true, reduceCtorEq, and_true, false_iff]
      exact fun hnone => hnone (.ofIndex h.size) (Or.inl (ClassId.index_ofIndex hs))
    · simp only [hname, if_false, and_false, false_or]
      exact hh.none_iff name

/-- A change that keeps the name of its class keeps the index right, as neither the index nor the
names have changed. -/
private lemma keeps_namesLast {f : ClassDef → ClassDef} {b : ClassId}
    (hf : ∀ d, (f d).name = d.name) : Edit.Keeps NamesLast (Edit.update b f) := by
  refine Edit.keeps_update fun h hh => ?_
  constructor
  · intro name c
    simp only [isNamed_update hf]
    exact hh.some_iff name c
  · intro name
    simp only [isNamed_update hf]
    exact hh.none_iff name

/-- Nothing is found in a hierarchy without classes, and nothing has a name. -/
private lemma namesLast_empty : NamesLast ⟨#[], ∅⟩ := by
  have hnot : ∀ c name, ¬IsNamed ⟨#[], ∅⟩ c name := by
    rintro c name ⟨d, hd, -⟩
    cases hd
  constructor
  · intro name c
    simp [named?, hnot]
  · intro name
    simp [named?, hnot]

/-- That the index is right is an invariant. Among the basic changes, only adding a class touches
the index or a name. -/
lemma invariant_namesLast : Invariant NamesLast where
  initial := namesLast_empty.add (by decide) objectName
  alloc name := Edit.keeps_alloc fun _ hh hs => hh.add hs name
  setAbstract _ := keeps_namesLast fun _ => rfl
  declareParam _ p := keeps_namesLast fun d => d.name_declareParam p
  addBase _ _ := keeps_namesLast fun _ => rfl
  setAncestors _ _ := keeps_namesLast fun _ => rfl

/-- Every name refers to the last class of a reachable hierarchy that has it. -/
theorem Reachable.namesLast (hr : h.Reachable) : h.NamesLast :=
  invariant_namesLast.of_reachable hr

end Hierarchy

end GenericSlots
