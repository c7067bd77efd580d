import GenericSlots.Proofs.Hierarchy.History
set_option autoImplicit false

/-!
# The identifiers of added classes

A class that is added gets the number of classes before it as its identifier. That number is
narrowed to a word, so identifiers stay different from each other only because no class is added
once all of them are in use. Other changes may be made in between, and may add classes of their own.

## Main definitions

* `GenericSlots.Hierarchy.Allocates`: the identifiers that a program got, and the hierarchy that it
  has reached.
* `GenericSlots.Hierarchy.Bare`: a hierarchy of classes to which nothing has been done.

## Main results

* `GenericSlots.Hierarchy.Allocates.isDefined`, `GenericSlots.Hierarchy.Allocates.pairwise_lt`: the
  identifiers refer to classes, and come in increasing order.
* `GenericSlots.Edit.exists_mapM_alloc`: classes can be added until all identifiers are in use.
-/

namespace GenericSlots

namespace Hierarchy

/-- A class that is defined remains so as classes are added. -/
lemma IsDefined.mono {h h' : Hierarchy} {c : ClassId} (hc : h.IsDefined c)
    (hsize : h.size ≤ h'.size) : h'.IsDefined c :=
  Nat.lt_of_lt_of_le hc hsize

/-- Changes made one after another take no class away, since none of them does. -/
lemma size_le_of_changes {h h' : Hierarchy} (changes : List Change)
    (made : changes.forM Change.edit h = .ok ((), h')) : h.size ≤ h'.size :=
  Edit.keeps_forM (P := fun h' => h.size ≤ h'.size)
    (fun change _ _ _ hle made => Nat.le_trans hle (change.size_le made)) changes h () h'
    (Nat.le_refl _) made

/-! ## Adding classes among other changes -/

/-- The identifiers that a program got by adding classes one by one, in this order, and the
hierarchy that it has reached by this and by other changes. Other changes may add classes too, whose
identifiers are not listed. -/
inductive Allocates : List ClassId → Hierarchy → Prop
  /-- A program starts with the initial hierarchy and no identifier. -/
  | initial : Allocates [] .initial
  /-- A class is added, and its identifier comes last. -/
  | alloc {ids : List ClassId} {h h' : Hierarchy} {name : String} {c : ClassId}
      (before : Allocates ids h) (made : Edit.alloc name h = .ok (c, h')) :
      Allocates (ids ++ [c]) h'
  /-- Another change is made. -/
  | change {ids : List ClassId} {h h' : Hierarchy} (before : Allocates ids h) (change : Change)
      (made : change.edit h = .ok ((), h')) : Allocates ids h'

namespace Allocates

variable {ids : List ClassId} {h : Hierarchy}

/-- The identifiers refer to classes.

**Proof sketch.** Induction on what the program did. A class that was defined stays defined, and the
class that is added stands at the position that its identifier names, because that position is below
the limit. -/
theorem isDefined (ha : Allocates ids h) : ∀ c ∈ ids, h.IsDefined c := by
  induction ha with
  | initial => exact fun _ hc => nomatch hc
  | alloc _ made ih =>
    obtain ⟨hs, rfl, rfl⟩ := Edit.alloc_eq_ok_iff.1 made
    intro c hc
    rcases List.mem_append.1 hc with hc | hc
    · exact (ih c hc).mono (by rw [size_add]; exact Nat.le_succ _)
    · rw [List.mem_singleton.1 hc, IsDefined, ClassId.index_ofIndex hs, size_add]
      exact Nat.lt_succ_self _
  | change _ change made ih => exact fun c hc => (ih c hc).mono (change.size_le made)

/-- The identifiers come in increasing order.

**Proof sketch.** Those before refer to classes, so their positions are below the number of classes,
which is the position of the next one. It is not narrowed, since it is below the limit. -/
theorem pairwise_lt (ha : Allocates ids h) : ids.Pairwise fun c d => c.index < d.index := by
  induction ha with
  | initial => exact .nil
  | alloc before made ih =>
    obtain ⟨hs, rfl, rfl⟩ := Edit.alloc_eq_ok_iff.1 made
    refine List.pairwise_append.2 ⟨ih, List.pairwise_singleton _ _, fun c hc d hd => ?_⟩
    rw [List.mem_singleton.1 hd, ClassId.index_ofIndex hs]
    exact before.isDefined c hc
  | change _ _ _ ih => exact ih

/-- The identifiers differ, since they come in increasing order. -/
lemma nodup (ha : Allocates ids h) : ids.Nodup := by
  refine List.Pairwise.imp (fun hlt => ?_) ha.pairwise_lt
  rintro rfl
  exact Nat.lt_irrefl _ hlt

end Allocates

/-! ## Adding nothing but classes -/

/-- A hierarchy of classes that are as they were when they were added: without type parameters and
bases, and with themselves as their only ancestors. -/
def Bare (h : Hierarchy) : Prop :=
  ∀ c d, h.find? c = some d → ∃ name, d = .fresh name c

/-- A class that is added is as it is added, so classes to which nothing has been done are joined by
another one. -/
lemma Bare.add {h : Hierarchy} (hb : h.Bare) (name : String) : (h.add name).Bare := by
  intro c d hd
  rw [find?_add] at hd
  by_cases hc : c.index = h.size
  · rw [if_pos hc] at hd
    obtain rfl := Option.some.inj hd
    exact ⟨name, by rw [← hc, ClassId.ofIndex_index]⟩
  · rw [if_neg hc] at hd
    exact hb c d hd

/-- Nothing has been done to the class that every hierarchy starts with. -/
lemma bare_initial : initial.Bare :=
  Bare.add (h := ⟨#[], ∅⟩) (fun _ _ hd => nomatch hd) objectName

end Hierarchy

/-- Classes can be added until all identifiers are in use, and adding them does nothing to the
classes that there are.

**Proof sketch.** Induction on the names. There is an identifier left for the first class, because
there is one for each of the names. -/
theorem Edit.exists_mapM_alloc {ids : List ClassId} {h : Hierarchy} (ha : Hierarchy.Allocates ids h)
    (hb : h.Bare) (names : List String) (hs : h.size + names.length ≤ ClassId.limit) :
    ∃ ids' h', names.mapM alloc h = .ok (ids', h') ∧ Hierarchy.Allocates (ids ++ ids') h' ∧
      h'.Bare ∧ h'.size = h.size + names.length := by
  induction names generalizing ids h with
  | nil => exact ⟨[], h, rfl, by rwa [List.append_nil], hb, rfl⟩
  | cons name names ih =>
    rw [List.length_cons] at hs
    have made : alloc name h = .ok (.ofIndex h.size, h.add name) :=
      alloc_eq_ok_iff.2 ⟨by omega, rfl, rfl⟩
    obtain ⟨ids', h', hok, ha', hb', hsize⟩ := ih (ha.alloc made) (hb.add name) (by
      rw [Hierarchy.size_add]
      omega)
    rw [Hierarchy.size_add] at hsize
    refine ⟨.ofIndex h.size :: ids', h', ?_, by rwa [List.append_assoc] at ha', hb', ?_⟩
    · rw [List.mapM_cons]
      exact bind_eq_ok_iff.2 ⟨_, made, bind_eq_ok_iff.2 ⟨_, hok, rfl⟩⟩
    · rw [hsize, List.length_cons]
      omega

/-- From the start, one class less can be added than there are identifiers, because the root class
has one of them. -/
lemma Edit.exists_mapM_alloc_initial {names : List String} (hs : names.length < ClassId.limit) :
    ∃ ids h, names.mapM alloc .initial = .ok (ids, h) ∧ Hierarchy.Allocates ids h ∧ h.Bare ∧
      h.size = names.length + 1 := by
  have hroom : Hierarchy.initial.size + names.length ≤ ClassId.limit := by
    rw [Nat.add_comm]
    exact hs
  obtain ⟨ids, h, hok, ha, hb, hsize⟩ :=
    exists_mapM_alloc .initial Hierarchy.bare_initial names hroom
  exact ⟨ids, h, hok, ha, hb, hsize.trans (Nat.add_comm _ _)⟩

end GenericSlots
