import GenericSlots.Proofs.Slot.Construction
set_option autoImplicit false

/-!
# Slot tables answer as the recursion along primary bases does

A slot table is made once, by climbing primary chains, and its answers are look-ups. The rules that
the answers follow are recursive: those about a class with a primary base refer to the answers for
the base.

## Main definitions

* `GenericSlots.ClassDef.openedBefore`: the number of type parameters that open a slot.
* `GenericSlots.SlotTable.AnswersRoot`: the rules for a class without bases.
* `GenericSlots.SlotTable.AnswersExtension`: the rules for a class with a primary base.

## Main results

* `GenericSlots.SlotTable.answers_of_build`: the table of a hierarchy follows the rules.
-/

namespace GenericSlots

/-- The number of type parameters before a position that open a slot of their own, as opposed to
sharing one of the primary base. It is computed from the class alone, without any layout. -/
def ClassDef.openedBefore (d : ClassDef) (policy : SlotPolicy) (base : Instance) (k : Nat) : Nat :=
  (d.params.take k).countP fun p => (policy.forwardedAt? base.args p.id).isNone

namespace SlotTable

/-- The rules for a class without bases, which has a slot for each type parameter, in order. They
give every answer of the table about the class outright. -/
structure AnswersRoot (t : SlotTable) (h : Hierarchy) (c : ClassId) (d : ClassDef) : Prop where
  /-- The chain is the class alone. -/
  chain_eq : t.chain h c = .ok [c]
  /-- There are as many slots as type parameters. -/
  numSlots_eq : t.numSlots h c = .ok d.arity
  /-- All slots are introduced by the class. -/
  ownSlots_eq : t.ownSlots h c = .ok d.arity
  /-- There are no slots that are not introduced by the class. -/
  inherited : ∃ l, t.layout h c = .ok l ∧ l.inheritedSlots = 0
  /-- A type parameter has the slot of its position. -/
  paramSlot_eq : ∀ k < d.arity, t.paramSlot h c k = .ok k
  /-- A slot has its origin in the type parameter of its position. -/
  slotOrigin_eq : ∀ s < d.arity, t.slotOrigin h c s = .ok (c, s)

/-- The rules for a class with a primary base, given the chain and the number of slots of the base.
They refer to the answers for the base, so together with `AnswersRoot` they determine all answers by
recursion along the chain. -/
structure AnswersExtension (t : SlotTable) (h : Hierarchy) (policy : SlotPolicy) (c : ClassId)
    (d : ClassDef) (base : Instance) (chain : List ClassId) (slots : Nat) : Prop where
  /-- The class follows the chain of the base. -/
  chain_eq : t.chain h c = .ok (chain ++ [c])
  /-- The class has the slots of the base and those that it introduces. -/
  numSlots_eq : t.numSlots h c = .ok (slots + d.openedBefore policy base d.arity)
  /-- The class introduces a slot for each type parameter that does not share one. -/
  ownSlots_eq : t.ownSlots h c = .ok (d.openedBefore policy base d.arity)
  /-- The slots that are not introduced by the class are those of the base, and no more than the
  class has. -/
  inherited : ∃ l, t.layout h c = .ok l ∧ l.inheritedSlots = slots ∧ l.inheritedSlots ≤ l.numSlots
  /-- A type parameter that is passed to the base unchanged shares the slot of the base. -/
  paramSlot_shared : ∀ (k j : Nat) (p : TypeParam), d.params[k]? = some p →
    policy.forwardedAt? base.args p.id = some j →
    ∃ s, t.paramSlot h base.cls j = .ok s ∧ t.paramSlot h c k = .ok s
  /-- Any other type parameter has the next slot after those of the base and those opened before. -/
  paramSlot_opened : ∀ (k : Nat) (p : TypeParam), d.params[k]? = some p →
    policy.forwardedAt? base.args p.id = none →
    t.paramSlot h c k = .ok (slots + d.openedBefore policy base k)
  /-- A slot of the base has its origin where it has it for the base. -/
  slotOrigin_inherited : ∀ s < slots, ∃ o, t.slotOrigin h base.cls s = .ok o ∧
    t.slotOrigin h c s = .ok o
  /-- Any other slot has its origin in the only type parameter of the class that has the slot. -/
  slotOrigin_own : ∀ s, slots ≤ s → s < slots + d.openedBefore policy base d.arity →
    ∃ k < d.arity, t.slotOrigin h c s = .ok (c, k) ∧ ∀ j, t.paramSlot h c j = .ok s ↔ j = k

/-! ## The rules hold -/

variable {h : Hierarchy} {t : SlotTable} {c : ClassId} {d : ClassDef} {l : Layout}

/-- Counting type parameters that open a slot is counting those that are not passed on. The layout
counts the former, and the rules speak of the latter. -/
private lemma opened_take (policy : SlotPolicy) {base : Instance} {slots : List Nat}
    (hlen : base.args.length = slots.length) (d : ClassDef) (k : Nat) :
    Layout.opened (policy.reusedSlot? base.args slots) ((d.params.map TypeParam.id).take k) =
      d.openedBefore policy base k := by
  rw [Layout.opened, ClassDef.openedBefore, ← List.map_take, List.countP_map]
  apply List.countP_congr
  intro p _
  rw [Function.comp_apply, policy.isNone_reusedSlot? hlen]

/-- Only one type parameter of a class has a given slot. So the origin of a slot is well determined
by asking which type parameter has it. -/
lemma Describes.paramSlot_eq_ok_iff_eq (ht : t.Describes h) (hl : h.HasLayout t.policy c l)
    {k s : Nat} (hk : l.paramSlots[k]? = some s) (j : Nat) : t.paramSlot h c j = .ok s ↔ j = k := by
  rw [ht.paramSlot_eq_ok_iff hl]
  constructor
  · intro hj
    have hlt : j < l.paramSlots.length := (List.getElem?_eq_some_iff.1 hj).1
    exact (List.getElem?_inj hlt hl.nodup_paramSlots).1 (hj.trans hk.symm)
  · rintro rfl
    exact hk

/-- A class without bases follows its rules, which are read off its layout.

**Proof sketch.** The layout has the slots `0`, `1` and so on for the type parameters, and none of
them is inherited. So each slot has its origin in the type parameter of its position. -/
lemma Describes.answersRoot (ht : t.Describes h) (hl : h.HasLayout t.policy c l)
    (hd : h.find? c = some d) (hb : d.primaryBase? = none) : t.AnswersRoot h c d := by
  obtain rfl := hl.eq_root hd hb
  have hslot : ∀ k < d.arity, (Layout.root c d.arity).paramSlots[k]? = some k := by
    intro k hk
    simp [hk]
  exact
    { chain_eq := by rw [ht.chain_eq hl, Layout.chain_root]
      numSlots_eq := by rw [ht.numSlots_eq hl, Layout.numSlots_root]
      ownSlots_eq := by
        rw [ht.ownSlots_eq hl, Layout.ownSlots, Layout.numSlots_root, Layout.inheritedSlots_root,
          Nat.sub_zero]
      inherited := ⟨_, ht.layout_eq hl, Layout.inheritedSlots_root _ _⟩
      paramSlot_eq := fun k hk => ht.paramSlot_eq hl (hslot k hk)
      slotOrigin_eq := fun s hs => ht.slotOrigin_of_own hl (Nat.zero_le s) (hslot s hs) }

/-- A class with a primary base follows its rules.

**Proof sketch.** The layout of the class extends that of the base. The slot of a type parameter is
read off the placement: it is the slot of the position at which the type parameter is passed on, or
comes after those opened before. Slots of the base keep their origins, and any other slot is that of
exactly one type parameter of the class. -/
lemma Describes.answersExtension (ht : t.Describes h) (hl : h.HasLayout t.policy c l)
    {base : Instance} (hd : h.find? c = some d) (hb : d.primaryBase? = some base) :
    ∃ chain slots, t.chain h base.cls = .ok chain ∧ t.numSlots h base.cls = .ok slots ∧
      t.AnswersExtension h t.policy c d base chain slots := by
  obtain ⟨b, lb, hfind, harity, hlb, -, rfl⟩ := hl.eq_extend hd hb
  have hlen := hlb.length_args hfind harity
  have hopened : Layout.opened (t.policy.reusedSlot? base.args lb.paramSlots)
      (d.params.map TypeParam.id) = d.openedBefore t.policy base d.arity := by
    rw [← opened_take t.policy hlen, List.take_of_length_le (by simp [ClassDef.arity])]
  have hinherited := Layout.inheritedSlots_extend lb c (d.params.map TypeParam.id)
    (t.policy.reusedSlot? base.args lb.paramSlots) hlb.size_stages_pos
  have hplaced : ∀ (k : Nat) (p : TypeParam), d.params[k]? = some p →
      (Layout.placeParams (t.policy.reusedSlot? base.args lb.paramSlots) lb.numSlots
        (d.params.map TypeParam.id)).1[k]? =
        some (((t.policy.forwardedAt? base.args p.id).bind fun j => lb.paramSlots[j]?).getD
          (lb.numSlots + d.openedBefore t.policy base k)) := by
    intro k p hp
    have hv : (d.params.map TypeParam.id)[k]? = some p.id := by simp [hp]
    rw [Layout.getElem?_placeParams _ hv, t.policy.reusedSlot?_eq hlen, opened_take t.policy hlen]
  refine ⟨lb.chain, lb.numSlots, ht.chain_eq hlb, ht.numSlots_eq hlb, ?_⟩
  exact
    { chain_eq := by rw [ht.chain_eq hl, Layout.chain_extend]
      numSlots_eq := by rw [ht.numSlots_eq hl, Layout.numSlots_extend, hopened]
      ownSlots_eq := by
        rw [ht.ownSlots_eq hl, Layout.ownSlots, hinherited, Layout.numSlots_extend, hopened,
          Nat.add_sub_cancel_left]
      inherited := ⟨_, ht.layout_eq hl, hinherited, hl.inheritedSlots_le⟩
      paramSlot_shared := fun k j p hp hj => by
        have hlt : j < lb.paramSlots.length := by
          rw [← hlen]
          exact (List.getElem?_eq_some_iff.1 (SlotPolicy.getElem?_of_forwardedAt? hj)).1
        have hslot := hplaced k p hp
        rw [hj, Option.bind_some, List.getElem?_eq_getElem hlt, Option.getD_some] at hslot
        exact ⟨_, ht.paramSlot_eq hlb (List.getElem?_eq_getElem hlt), ht.paramSlot_eq hl hslot⟩
      paramSlot_opened := fun k p hp hj => by
        have hslot := hplaced k p hp
        rw [hj, Option.bind_none, Option.getD_none] at hslot
        exact ht.paramSlot_eq hl hslot
      slotOrigin_inherited := fun s hs => by
        obtain ⟨o, -, k, horigin, -⟩ := ht.exists_slotOrigin hlb hs
        refine ⟨(o, k), horigin, ?_⟩
        rw [ht.slotOrigin_of_base hl hd hb hlb hs, horigin]
      slotOrigin_own := fun s hs hlt => by
        rw [← hopened, ← Layout.numSlots_extend] at hlt
        rw [← hinherited] at hs
        obtain ⟨k, hk⟩ := hl.exists_paramSlot hs hlt
        refine ⟨k, ?_, ht.slotOrigin_of_own hl hs hk, ht.paramSlot_eq_ok_iff_eq hl hk⟩
        rw [← hl.length_paramSlots hd]
        exact (List.getElem?_eq_some_iff.1 hk).1 }

/-- The table of a hierarchy answers as the recursion along primary bases does. For each class, one
of the two sets of rules applies, and the table never refuses to answer about a class and a position
that exist. -/
theorem answers_of_build {policy : SlotPolicy} (hs : h.size < ClassId.limit)
    (ht : (build h policy).result = .ok t) (hd : h.find? c = some d) :
    (d.primaryBase? = none → t.AnswersRoot h c d) ∧
      ∀ base, d.primaryBase? = some base →
        ∃ chain slots, t.chain h base.cls = .ok chain ∧ t.numSlots h base.cls = .ok slots ∧
          t.AnswersExtension h policy c d base chain slots := by
  obtain ⟨rfl, hdescribes⟩ := describes_of_build hs ht
  obtain ⟨l, hl⟩ := hdescribes.exists_hasLayout (Hierarchy.isDefined_iff.2 ⟨d, hd⟩)
  exact ⟨hdescribes.answersRoot hl hd, fun base hb => hdescribes.answersExtension hl hd hb⟩

/-- A class of which one type parameter shares a slot and the other opens one. It has two more
bases, which the rules do not mention. -/
theorem answers_of_build_twin :
    (Twisted.twin.primaryBase? = none →
      Twisted.table.AnswersRoot Twisted.hierarchy ⟨3⟩ Twisted.twin) ∧
      ∀ base, Twisted.twin.primaryBase? = some base →
        ∃ chain slots, Twisted.table.chain Twisted.hierarchy base.cls = .ok chain ∧
          Twisted.table.numSlots Twisted.hierarchy base.cls = .ok slots ∧
          Twisted.table.AnswersExtension Twisted.hierarchy .shared ⟨3⟩ Twisted.twin base chain
            slots :=
  answers_of_build (by decide) Twisted.build_hierarchy rfl

end SlotTable

end GenericSlots
