import GenericSlots.Proofs.Hierarchy.Allocation
import GenericSlots.Proofs.Slot.Sequence
set_option autoImplicit false

/-!
# What tables cover

The number of classes may be larger than any identifier. Below the limit of identifiers, the
enumeration of classes, the question whether a class is defined and the identifiers given to added
classes agree, so a table covers every class that its hierarchy had when the table was made. It goes
on to answer for them when classes are added later, and does not answer for those. At the limit the
enumeration is empty, and with it the table.

## Main definitions

* `GenericSlots.SlotTable.LaysOutAll`: a table that covers the classes of a hierarchy and no others.

## Main results

* `GenericSlots.SlotTable.exact_of_allocates`: identifiers, enumeration and tables agree.
* `GenericSlots.SlotTable.not_exact`: they do not agree at the limit.
-/

namespace GenericSlots

open Relation (ReflTransGen TransGen)

/-! ## Hierarchies without bases -/

namespace Hierarchy

variable {h : Hierarchy} {c : ClassId} {d : ClassDef}

/-- No class has a primary base, since nothing has been done to any of them. -/
lemma Bare.not_primaryBase (hb : h.Bare) (c b : ClassId) : ¬h.PrimaryBase c b := by
  rintro ⟨d, base, hd, hbase, -⟩
  obtain ⟨name, rfl⟩ := hb c d hd
  cases hbase

/-- A class to which nothing has been done is valid.

**Proof sketch.** It has neither type parameters nor bases, so there is nothing to check there. No
step is taken from it, so it is the only class that is met, and it is listed as its own ancestor. -/
lemma Bare.valid (hb : h.Bare) (hd : h.find? c = some d) : h.Valid c d := by
  have hself : ∀ a, ReflTransGen h.PrimaryBase c a → a = c := fun a ha =>
    ha.cases_head.elim Eq.symm fun ⟨b, hcb, _⟩ => absurd hcb (hb.not_primaryBase c b)
  obtain ⟨name, rfl⟩ := hb c d hd
  refine ⟨by simp [ClassDef.fresh], by simp [ClassDef.fresh], ?_, ?_, ?_, ?_⟩
  · intro a ha
    rw [hself a ha]
    exact isDefined_iff.2 ⟨_, hd⟩
  · intro a _ ha
    obtain ⟨b, hab, -⟩ := TransGen.head'_iff.1 ha
    exact hb.not_primaryBase a b hab
  · intro base hbase
    cases hbase
  · intro a ha
    rw [hself a ha]
    exact List.mem_singleton_self c

/-- A class that has just been added is its only ancestor. -/
lemma Bare.selfFirst (hb : h.Bare) : h.SelfFirst := by
  intro c d hd
  obtain ⟨name, rfl⟩ := hb c d hd
  rfl

end Hierarchy

/-! ## Tables -/

namespace SlotTable

variable {t : SlotTable} {h h' : Hierarchy} {policy : SlotPolicy} {c : ClassId}

/-- A table covers the classes that a hierarchy has. It answers for them whatever changes are made
later, and refuses the classes that these add. -/
structure LaysOutAll (t : SlotTable) (h : Hierarchy) : Prop where
  /-- There is a layout for each class. -/
  size_eq : t.layouts.size = h.size
  /-- The table answers for a class that the hierarchy has, also after changes. -/
  answers : ∀ (changes : List Change) (h' : Hierarchy),
    changes.forM Change.edit h = .ok ((), h') → ∀ c, h.IsDefined c → ∃ l, t.layout h' c = .ok l
  /-- The table refuses a class that the hierarchy lacks, also if another has it. -/
  refuses : ∀ (h' : Hierarchy) (c : ClassId), ¬h.IsDefined c →
    t.layout h' c = refuse (.undefinedClass c)

/-- A hierarchy of classes to which nothing has been done has a table, by any policy. -/
lemma exists_build_of_bare (hs : h.size < ClassId.limit) (hb : h.Bare) :
    ∃ t, (build h policy).result = .ok t :=
  exists_build_of_valid hs hb.selfFirst fun _ _ hd => hb.valid hd

/-- The table of a hierarchy below the limit of identifiers covers its classes, and goes on to do
so.

**Proof sketch.** There are as many layouts as classes. A class that the hierarchy has is still
defined after changes, since classes are not removed, and its layout is where it was. A class beyond
the number of layouts is refused, also by a hierarchy that has it. -/
lemma laysOutAll_of_build (hs : h.size < ClassId.limit) (ht : (build h policy).result = .ok t) :
    t.LaysOutAll h where
  size_eq := size_layouts_eq hs ht
  answers changes h' made c hc := by
    obtain ⟨-, hdescribes⟩ := describes_of_build hs ht
    obtain ⟨l, hl⟩ := hdescribes.exists_hasLayout hc
    have hc' := hc.mono (Hierarchy.size_le_of_changes changes made)
    exact ⟨l, layout_of_isDefined (hdescribes.layout_eq hl) hc'⟩
  refuses h' c hc := by
    refine layout_eq_refuse ?_
    rintro ⟨-, hcovers⟩
    rw [Covers, size_layouts_eq hs ht] at hcovers
    exact hc hcovers

/-- Identifiers are exact. Those that a program gets by adding classes, among other changes, refer
to different classes. Below the limit of identifiers exactly the defined classes are enumerated, in
increasing order, and a table covers all of them. Classes can be added until all identifiers are in
use, and a hierarchy of nothing else has a table by any policy.

**Proof sketch.** Each identifier that is given out is the number of classes at that time, and the
number only grows, so identifiers differ and stay defined. Below the limit the number of classes
fits an identifier, so the enumeration ends where the classes end. Adding a class succeeds as long
as there is room for one, and classes to which nothing else has been done are valid. -/
theorem exact_of_allocates {ids : List ClassId} {h : Hierarchy} (ha : Hierarchy.Allocates ids h) :
    (ids.Nodup ∧ (∀ c ∈ ids, h.IsDefined c) ∧
      (h.size < ClassId.limit →
        (∀ c, c ∈ h.classIds ↔ h.IsDefined c) ∧
          (h.classIds.Pairwise fun c d => c.index < d.index) ∧
          ∀ policy t, (build h policy).result = .ok t → t.LaysOutAll h)) ∧
    ∀ names : List String, names.length < ClassId.limit →
      ∃ ids h, names.mapM Edit.alloc .initial = .ok (ids, h) ∧ Hierarchy.Allocates ids h ∧
        h.size = names.length + 1 ∧
        (h.size < ClassId.limit → ∀ policy, ∃ t, (build h policy).result = .ok t) := by
  refine ⟨⟨ha.nodup, ha.isDefined, fun hs => ⟨fun c => Hierarchy.mem_classIds hs,
    Hierarchy.pairwise_classIds hs, fun policy t ht => laysOutAll_of_build hs ht⟩⟩, ?_⟩
  intro names hlen
  obtain ⟨ids, h, hok, ha, hb, hsize⟩ := Edit.exists_mapM_alloc_initial hlen
  exact ⟨ids, h, hok, ha, hsize, fun hs policy => exists_build_of_bare hs hb⟩

/-- A hierarchy to which a class with a type parameter was added between two others of the same
name. -/
def mixed : Hierarchy :=
  (((Hierarchy.initial.add "A").add "Box").update ⟨2⟩ fun d => d.declareParam ⟨"T", ⟨1⟩⟩).add "A"

/-- The identifiers of the two classes that are added alone are recorded, while the class with a
type parameter is made by another change. -/
lemma allocates_mixed : Hierarchy.Allocates [⟨1⟩, ⟨3⟩] mixed := by
  have made : Edit.alloc "A" .initial = .ok (⟨1⟩, Hierarchy.initial.add "A") := rfl
  exact ((Hierarchy.Allocates.initial.alloc made).change (.defineGeneric "Box" ["T"]) rfl).alloc rfl

/-- Two classes of one name have identifiers of their own, both in the hierarchy that is made step
by step and in one that is made of nothing else. -/
theorem exact_of_allocates_mixed :
    Hierarchy.Allocates [⟨1⟩, ⟨3⟩] mixed ∧ mixed.size < ClassId.limit ∧
      [(⟨1⟩ : ClassId), ⟨3⟩].Nodup ∧ (∀ c ∈ [(⟨1⟩ : ClassId), ⟨3⟩], mixed.IsDefined c) ∧
      (∀ c, c ∈ mixed.classIds ↔ mixed.IsDefined c) ∧
      (mixed.classIds.Pairwise fun c d => c.index < d.index) ∧
      (∀ policy t, (build mixed policy).result = .ok t → t.LaysOutAll mixed) ∧
      ["A", "A"].length < ClassId.limit ∧
      ∃ ids h, ["A", "A"].mapM Edit.alloc .initial = .ok (ids, h) ∧ Hierarchy.Allocates ids h ∧
        h.size = 3 ∧
        (h.size < ClassId.limit → ∀ policy, ∃ t, (build h policy).result = .ok t) := by
  have hsize : mixed.size < ClassId.limit := by decide
  have hlength : ["A", "A"].length < ClassId.limit := by decide
  obtain ⟨⟨hnodup, hdefined, hbelow⟩, hnames⟩ := exact_of_allocates allocates_mixed
  obtain ⟨henumerated, hincreasing, htable⟩ := hbelow hsize
  exact ⟨allocates_mixed, hsize, hnodup, hdefined, henumerated, hincreasing, htable, hlength,
    hnames _ hlength⟩

/-- Identifiers are not exact at their limit. If as many classes are added as there are identifiers
left, all identifiers differ and each refers to a class, but none is enumerated. So by either policy
there is a table that covers no class and refuses all of them.

**Proof sketch.** The classes can be added, since there is room for each when it is added. The count
of classes is then the limit, which is one more than the largest position, and wraps around to zero
where the classes are enumerated. -/
theorem not_exact :
    ∃ ids h, (List.replicate (ClassId.limit - 1) "A").mapM Edit.alloc .initial = .ok (ids, h) ∧
      Hierarchy.Allocates ids h ∧ (∀ c, h.IsDefined c) ∧ h.classIds = [] ∧
      ∀ policy, ∃ t, (build h policy).result = .ok t ∧
        ∀ c, t.layout h c = refuse (.undefinedClass c) := by
  have hlen : (List.replicate (ClassId.limit - 1) "A").length < ClassId.limit := by
    rw [List.length_replicate]
    decide
  obtain ⟨ids, h, hok, hallocates, -, hsize⟩ := Edit.exists_mapM_alloc_initial hlen
  have hlimit : h.size = ClassId.limit := by
    rw [hsize, List.length_replicate]
    rfl
  have hdefined : ∀ c, h.IsDefined c := fun c => by
    rw [Hierarchy.IsDefined, hlimit]
    exact c.index_lt
  refine ⟨ids, h, hok, hallocates, hdefined, Hierarchy.classIds_of_size_eq_limit hlimit,
    fun policy => ⟨⟨policy, #[]⟩, build_of_size_eq_limit hlimit policy, fun c => ?_⟩⟩
  -- the table has no layouts, so it covers no class
  refine layout_eq_refuse ?_
  rintro ⟨-, hcovers⟩
  exact Nat.not_lt_zero _ hcovers

end SlotTable

end GenericSlots
