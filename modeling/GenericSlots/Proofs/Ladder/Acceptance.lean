import GenericSlots.Proofs.Ladder.Slots
import GenericSlots.Proofs.Slot.Agreement
import GenericSlots.Proofs.Slot.Validation
set_option autoImplicit false

/-!
# Accepting a ladder

A ladder refers to none of the classes that are there before it. So a hierarchy that has been
accepted is accepted again once a ladder is added, under both policies and whatever the height. For
slots a level costs little, two where nothing is shared and none where slots are. But it doubles the
number of paths to the bottom, so only the search that stops at the first path is of use there.

## Main definitions

* `GenericSlots.SlotTable.LevelLaw`: the slots of a level of a ladder and the paths from its join.

## Main results

* `GenericSlots.SlotTable.exists_build_of_addsLadder`: a hierarchy is accepted again with a ladder.
* `GenericSlots.SlotTable.build_ladder`: slots, mappings, paths and projections of the classes of a
  ladder.
-/

namespace GenericSlots

namespace SlotTable

open Ladder (Level members leftmost length_descents head?_descents)

variable {t appended shared : SlotTable} {h h' : Hierarchy} {policy : SlotPolicy} {bottom : ClassId}
  {level : Level} {levels below : List Level}

/-- A hierarchy that has been accepted is accepted again with a ladder.

**Proof sketch.** A hierarchy is accepted if every class has a layout. The classes that there were
have theirs, since the classes of their chains are kept as they are, and the classes of the ladder
have theirs by `exists_hasLayout`. -/
theorem exists_build_of_addsLadder (hs : h.size < ClassId.limit)
    (ht : (build h policy).result = .ok t) (hh : h.AddsLadder bottom levels h')
    (hs' : h'.size < ClassId.limit) : ∃ t', (build h' policy).result = .ok t' := by
  obtain ⟨rfl, hdescribes⟩ := describes_of_build hs ht
  refine exists_build_of_hasLayout hs' fun c hc => ?_
  rcases hh.cases c hc with hc | hc
  · obtain ⟨l, hl⟩ := hdescribes.exists_hasLayout hc
    refine ⟨l, hl.of_find?_eq fun o ho => ?_⟩
    obtain ⟨lo, hlo, -⟩ := hl.of_mem_chain ho
    obtain ⟨e, he⟩ := hlo.checked
    rw [hh.kept o e he.find, he.find]
  · exact hh.isLadder.exists_hasLayout hc

/-- The law of the level that follows some levels of a ladder, of which the highest comes first. Of
the two tables the first shares no slots, and the second does. It is about the join and the sides of
this level only; those below have laws of their own. -/
structure LevelLaw (appended shared : SlotTable) (h : Hierarchy) (bottom : ClassId) (level : Level)
    (below : List Level) : Prop where
  /-- The join lists all classes up to this level as its ancestors. -/
  listed : ∃ d, h.find? level.join = some d ∧ d.ancestors = members bottom (level :: below)
  /-- Where nothing is shared, the join has two slots for every level and another for the bottom. -/
  join : appended.StoresParam h level.join (2 * (below.length + 1) + 1)
  /-- The sides have one slot less. -/
  sides : ∀ side ∈ [level.left, level.right],
    appended.StoresParam h side (2 * (below.length + 1))
  /-- Where slots are shared, there is only one. -/
  one : ∀ c ∈ [level.left, level.right, level.join], shared.StoresParam h c 1
  /-- The paths from the join to the bottom. -/
  paths : ∃ paths, h.paths level.join bottom = .ok paths ∧ paths.length = 2 ^ (below.length + 1) ∧
    paths.head? = some (leftmost bottom (level :: below))
  /-- The first path from the join to the bottom. -/
  path : h.path level.join bottom = .ok (some (leftmost bottom (level :: below)))

/-- The law of levels holds of every level of a ladder in a hierarchy that both policies accept.
Each part is one of the facts above about the highest level of a ladder. -/
lemma levelLaw_of_isLadder (hs : h.size < ClassId.limit)
    (happended : (build h .appended).result = .ok appended)
    (hshared : (build h .shared).result = .ok shared)
    (hl : h.IsLadder bottom (level :: below)) : LevelLaw appended shared h bottom level below where
  listed := hl.exists_top
  join := storesParam_of_hasChain hs happended hl hl.hasChain_top
  sides _ hside := storesParam_of_hasChain hs happended hl (hl.hasChain_side hside)
  one c hc := by
    simp only [List.mem_cons, List.not_mem_nil, or_false] at hc
    rcases hc with rfl | rfl | rfl
    · exact storesParam_of_hasChain hs hshared hl (hl.hasChain_side (by simp))
    · exact storesParam_of_hasChain hs hshared hl (hl.hasChain_side (by simp))
    · exact storesParam_of_hasChain hs hshared hl hl.hasChain_top
  paths := ⟨_, hl.paths_join, length_descents _ _, head?_descents _ _⟩
  path := hl.path_join

/-- A ladder may be added to a hierarchy that has been accepted, if there are identifiers for its
classes and one to spare. The hierarchy is accepted again under both policies, and the law of levels
holds at every level. The projections of classes of the ladder onto their ancestors keep the type
argument.

**Proof sketch.** The levels up to a given one form a ladder by themselves (`IsLadder.of_append`),
so the law of that level is the law of the highest level of a lower ladder. -/
theorem build_ladder {height : Nat} (ht : (build h policy).result = .ok t)
    (hs : h.size + 1 + 3 * height < ClassId.limit) :
    ∃ l h' appended shared, Edit.ladder height h = .ok (l, h') ∧ l.levels.length = height ∧
      (build h' .appended).result = .ok appended ∧ (build h' .shared).result = .ok shared ∧
      (∀ below level above, l.levels = below ++ level :: above →
        LevelLaw appended shared h' l.bottom level below.reverse) ∧
      ∀ c ∈ members l.bottom l.levels.reverse, ∃ d, h'.find? c = some d ∧
        ∀ a ∈ d.ancestors, ∀ u, h'.supertype ⟨c, [u]⟩ a = pure ⟨a, [u]⟩ := by
  obtain ⟨l, h', hok, hlen, hh⟩ := Edit.exists_ladder (Nat.le_of_lt hs)
  have hs' : h'.size < ClassId.limit := by
    rwa [hh.size, List.length_reverse, hlen]
  obtain ⟨t', ht'⟩ := exists_build_of_addsLadder (by omega) ht hh hs'
  obtain ⟨appended, happended⟩ := exists_build_of_build ht' .appended
  obtain ⟨shared, hshared⟩ := exists_build_of_build ht' .shared
  refine ⟨l, h', appended, shared, hok, hlen, happended, hshared,
    fun below level above hsplit => ?_, fun c hc => ?_⟩
  · have hl := hh.isLadder
    rw [hsplit, List.reverse_append, List.reverse_cons, List.append_assoc] at hl
    exact levelLaw_of_isLadder hs' happended hshared hl.of_append
  · obtain ⟨d, hd⟩ := Hierarchy.isDefined_iff.1 (hh.isLadder.isDefined hc)
    exact ⟨d, hd, fun a ha u => hh.isLadder.supertype_eq hc hd ha u⟩

/-- A ladder of height two, added to a hierarchy of five classes. -/
theorem build_ladder_twisted :
    Twisted.hierarchy.size + 1 + 3 * 2 < ClassId.limit ∧
    ∃ l h' appended shared, Edit.ladder 2 Twisted.hierarchy = .ok (l, h') ∧ l.levels.length = 2 ∧
      (build h' .appended).result = .ok appended ∧ (build h' .shared).result = .ok shared ∧
      (∀ below level above, l.levels = below ++ level :: above →
        LevelLaw appended shared h' l.bottom level below.reverse) ∧
      ∀ c ∈ members l.bottom l.levels.reverse, ∃ d, h'.find? c = some d ∧
        ∀ a ∈ d.ancestors, ∀ u, h'.supertype ⟨c, [u]⟩ a = pure ⟨a, [u]⟩ :=
  ⟨by decide, build_ladder Twisted.build_hierarchy (by decide)⟩

end SlotTable

end GenericSlots
