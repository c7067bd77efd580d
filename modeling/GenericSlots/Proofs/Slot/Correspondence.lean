import GenericSlots.Proofs.Slot.Origins
import GenericSlots.Proofs.Slot.Specification
set_option autoImplicit false

/-!
# Slots correspond to origins

The slot of a type parameter and the origin of a slot are looked up in opposite directions. Going
from a slot to its origin and back leads to the same slot. Going from a type parameter to its slot
and on to the origin leads back to the type parameter, unless it shares its slot with one of the
primary base.

## Main definitions

* `GenericSlots.SlotTable.Corresponds`: the two look-ups agree for a class.

## Main results

* `GenericSlots.SlotTable.Describes.numSlots_le_of_above_origin`: the origin of a slot is in the
  first class of the chain that has the slot.
* `GenericSlots.SlotTable.Describes.slotOrigin_of_opened`,
  `GenericSlots.SlotTable.Describes.slotOrigin_of_shared`: the origin of the slot of a type
  parameter.
* `GenericSlots.SlotTable.corresponds_of_build`: the look-ups agree for every class of a hierarchy
  that has a table.
-/

namespace GenericSlots

namespace SlotTable

/-- The slots and the type parameters of a class, given its chain and its number of slots, belong to
each other. Starting from a slot, the origin has the slot again; starting from a type parameter, the
origin of its slot is the type parameter or one that the primary base shares with it. -/
structure Corresponds (t : SlotTable) (h : Hierarchy) (policy : SlotPolicy) (c : ClassId)
    (d : ClassDef) (chain : List ClassId) (slots : Nat) : Prop where
  /-- Each slot has its origin in a type parameter that has the slot, of the first class of the
  chain that has the slot. -/
  slotOrigin : ∀ s < slots, ∃ above o below e k n, t.slotOrigin h c s = .ok (o, k) ∧
    chain = above ++ o :: below ∧ h.find? o = some e ∧ k < e.arity ∧
    t.paramSlot h o k = .ok s ∧ t.numSlots h o = .ok n ∧ s < n ∧
    ∀ a ∈ above, ∃ m, t.numSlots h a = .ok m ∧ m ≤ s
  /-- No two slots have the same origin. -/
  slotOrigin_inj : ∀ s s' origin, t.slotOrigin h c s = .ok origin →
    t.slotOrigin h c s' = .ok origin → s = s'
  /-- Each type parameter has a slot of the class. -/
  paramSlot : ∀ k < d.arity, ∃ s < slots, t.paramSlot h c k = .ok s
  /-- No two type parameters have the same slot. -/
  paramSlot_inj : ∀ k k' s, t.paramSlot h c k = .ok s → t.paramSlot h c k' = .ok s → k = k'
  /-- A type parameter that shares no slot is the origin of its slot. -/
  opened : ∀ (k : Nat) (p : TypeParam), d.params[k]? = some p →
    (∀ base ∈ d.primaryBase?, policy.forwardedAt? base.args p.id = none) →
    ∃ s, t.paramSlot h c k = .ok s ∧ t.slotOrigin h c s = .ok (c, k)
  /-- The slot of any other type parameter has its origin where the primary base has the origin of
  the slot that is shared. -/
  shared : ∀ (k j : Nat) (p : TypeParam) (base : Instance), d.params[k]? = some p →
    d.primaryBase? = some base → policy.forwardedAt? base.args p.id = some j →
    ∃ s s' origin, t.paramSlot h c k = .ok s ∧ t.paramSlot h base.cls j = .ok s' ∧
      t.slotOrigin h c s = .ok origin ∧ t.slotOrigin h base.cls s' = .ok origin

variable {t : SlotTable} {h : Hierarchy} {c : ClassId} {d : ClassDef} {l : Layout}

/-! ## From slots to type parameters -/

/-- No class of the chain above the origin of a slot has the slot.

**Proof sketch.** A class that has the slot has the origin of the slot in its own chain, which ends
with the class, while a chain passes no class twice. So the origin would have to be above the class
and below it. -/
theorem Describes.numSlots_le_of_above_origin (ht : t.Describes h) (hl : h.HasLayout t.policy c l)
    {above below : List ClassId} {o a : ClassId} {la : Layout} {s k : Nat}
    (hchain : l.chain = above ++ o :: below) (hok : t.slotOrigin h c s = .ok (o, k))
    (ha : a ∈ above) (hla : h.HasLayout t.policy a la) : la.numSlots ≤ s := by
  refine Nat.le_of_not_lt fun hlt => ?_
  have hmem : a ∈ l.chain := by
    rw [hchain]
    exact List.mem_append_left _ ha
  rw [ht.slotOrigin_of_mem_chain hl hmem hla hlt] at hok
  obtain ⟨-, ho, -⟩ := ht.slotOrigin_eq_ok hla hok
  obtain ⟨first, last, rfl⟩ := List.append_of_mem ha
  have hsplit : l.chain = first ++ a :: (last ++ o :: below) := by
    rw [hchain, List.append_assoc, List.cons_append]
  have hupper : la.chain = first ++ [a] := hl.chain_of_append hsplit hla
  have hnodup := hl.nodup_chain
  rw [hchain, List.nodup_append] at hnodup
  refine hnodup.2.2 o ?_ o List.mem_cons_self rfl
  rw [hupper, List.mem_append, List.mem_singleton] at ho
  rcases ho with ho | rfl
  · exact List.mem_append_left _ ho
  · exact List.mem_append_right _ List.mem_cons_self

/-- Each slot has its origin in the first class of the chain that has the slot, in the type
parameter that has the slot.

**Proof sketch.** A slot has an origin on the chain, which splits the chain. The type parameter is
one of the origin and has the slot there. A class above the origin has a layout and lacks the slot
by `Describes.numSlots_le_of_above_origin`. -/
lemma Describes.exists_first_origin (ht : t.Describes h) (hl : h.HasLayout t.policy c l) {s : Nat}
    (hs : s < l.numSlots) :
    ∃ above o below e k n, t.slotOrigin h c s = .ok (o, k) ∧ l.chain = above ++ o :: below ∧
      h.find? o = some e ∧ k < e.arity ∧ t.paramSlot h o k = .ok s ∧ t.numSlots h o = .ok n ∧
      s < n ∧ ∀ a ∈ above, ∃ m, t.numSlots h a = .ok m ∧ m ≤ s := by
  obtain ⟨o, lo, k, horigin, ho, hlo, hk⟩ := ht.exists_slotOrigin hl hs
  obtain ⟨above, below, hchain⟩ := List.append_of_mem ho
  obtain ⟨e, he⟩ := hlo.checked
  have hlt : k < e.arity := by
    rw [← hlo.length_paramSlots he.find]
    exact (List.getElem?_eq_some_iff.1 hk).1
  refine ⟨above, o, below, e, k, lo.numSlots, horigin, hchain, he.find, hlt,
    ht.paramSlot_eq hlo hk, ht.numSlots_eq hlo, hlo.lt_numSlots (List.mem_of_getElem? hk), ?_⟩
  intro a ha
  have hmem : a ∈ l.chain := by
    rw [hchain]
    exact List.mem_append_left _ ha
  obtain ⟨la, hla, -⟩ := hl.of_mem_chain hmem
  exact ⟨la.numSlots, ht.numSlots_eq hla, ht.numSlots_le_of_above_origin hl hchain horigin ha hla⟩

/-! ## From type parameters to slots -/

/-- A type parameter that shares no slot is the origin of its slot. This holds of all type
parameters of a class without bases, and of those that are not passed on otherwise.

**Proof sketch.** By cases on the primary base. A class without bases follows the rules for these,
which say so. With a primary base, the slot comes after those of the base, so it is not inherited
and has its origin in the class. -/
theorem Describes.slotOrigin_of_opened (ht : t.Describes h) (hl : h.HasLayout t.policy c l)
    (hd : h.find? c = some d) {k : Nat} {p : TypeParam} (hp : d.params[k]? = some p)
    (hopened : ∀ base ∈ d.primaryBase?, t.policy.forwardedAt? base.args p.id = none) :
    ∃ s, t.paramSlot h c k = .ok s ∧ t.slotOrigin h c s = .ok (c, k) := by
  cases hb : d.primaryBase? with
  | none =>
    have hanswers := ht.answersRoot hl hd hb
    have hk : k < d.arity := (List.getElem?_eq_some_iff.1 hp).1
    exact ⟨k, hanswers.paramSlot_eq k hk, hanswers.slotOrigin_eq k hk⟩
  | some base =>
    obtain ⟨chain, slots, -, -, hanswers⟩ := ht.answersExtension hl hd hb
    have hslot := hanswers.paramSlot_opened k p hp (hopened base hb)
    obtain ⟨l', hl', hinherited, -⟩ := hanswers.inherited
    obtain rfl : l = l' := Except.ok.inj ((ht.layout_eq hl).symm.trans hl')
    refine ⟨_, hslot, ht.slotOrigin_of_own hl ?_ ((ht.paramSlot_eq_ok_iff hl).1 hslot)⟩
    rw [hinherited]
    exact Nat.le_add_right _ _

/-- The slot of a type parameter that is passed to the primary base has its origin where the slot of
the base has it. Both type parameters have the same slot, and a slot of the base keeps its origin.

**Proof sketch.** By the rules for a class with a primary base, both type parameters have one slot.
It is a slot of the base, since it belongs to one of its type parameters, and such a slot has its
origin where the base has it. -/
theorem Describes.slotOrigin_of_shared (ht : t.Describes h) (hl : h.HasLayout t.policy c l)
    (hd : h.find? c = some d) {k j : Nat} {p : TypeParam} {base : Instance}
    (hp : d.params[k]? = some p) (hb : d.primaryBase? = some base)
    (hj : t.policy.forwardedAt? base.args p.id = some j) :
    ∃ s s' origin, t.paramSlot h c k = .ok s ∧ t.paramSlot h base.cls j = .ok s' ∧
      t.slotOrigin h c s = .ok origin ∧ t.slotOrigin h base.cls s' = .ok origin := by
  obtain ⟨chain, slots, -, -, hanswers⟩ := ht.answersExtension hl hd hb
  obtain ⟨s, hbase, hslot⟩ := hanswers.paramSlot_shared k j p hp hj
  obtain ⟨b, lb, -, -, hlb, -, -⟩ := hl.eq_extend hd hb
  have hs := hlb.lt_numSlots (List.mem_of_getElem? ((ht.paramSlot_eq_ok_iff hlb).1 hbase))
  obtain ⟨o, -, i, horigin, -⟩ := ht.exists_slotOrigin hlb hs
  refine ⟨s, s, (o, i), hslot, hbase, ?_, horigin⟩
  rw [ht.slotOrigin_of_base hl hd hb hlb hs, horigin]

/-! ## The correspondence -/

/-- The slots of every class correspond to origins, and its type parameters to slots. The two
look-ups take different ways through the table, one by bisection and one by position, so that they
agree is not a matter of definition.

**Proof sketch.** Each part is a fact about the layout of the class: slots have first origins,
layouts have each origin once, type parameters have slots of their own, and the rules say which of
them are opened and which are shared. -/
theorem corresponds_of_build {policy : SlotPolicy} (hs : h.size < ClassId.limit)
    (ht : (build h policy).result = .ok t) (hd : h.find? c = some d) :
    ∃ chain slots, t.chain h c = .ok chain ∧ t.numSlots h c = .ok slots ∧
      t.Corresponds h policy c d chain slots := by
  obtain ⟨rfl, hdescribes⟩ := describes_of_build hs ht
  obtain ⟨l, hl⟩ := hdescribes.exists_hasLayout (Hierarchy.isDefined_iff.2 ⟨d, hd⟩)
  refine ⟨l.chain, l.numSlots, hdescribes.chain_eq hl, hdescribes.numSlots_eq hl, ?_⟩
  exact
    { slotOrigin := fun s hs => hdescribes.exists_first_origin hl hs
      slotOrigin_inj := fun s s' origin hs hs' => hdescribes.slotOrigin_inj hl hs hs'
      paramSlot := fun k hk => by
        obtain ⟨s, hslot, hlt⟩ := hl.exists_slot hd hk
        exact ⟨s, hlt, hdescribes.paramSlot_eq hl hslot⟩
      paramSlot_inj := fun k k' s hk hk' =>
        (hdescribes.paramSlot_eq_ok_iff_eq hl ((hdescribes.paramSlot_eq_ok_iff hl).1 hk') k).1 hk
      opened := fun k p hp hopened => hdescribes.slotOrigin_of_opened hl hd hp hopened
      shared := fun k j p base hp hb hj => hdescribes.slotOrigin_of_shared hl hd hp hb hj }

/-- A class of which one type parameter shares a slot of the primary base, which shares it in turn.
So the origin of the slot is two classes up. -/
theorem corresponds_of_build_twin :
    ∃ chain slots, Twisted.table.chain Twisted.hierarchy ⟨3⟩ = .ok chain ∧
      Twisted.table.numSlots Twisted.hierarchy ⟨3⟩ = .ok slots ∧
      Twisted.table.Corresponds Twisted.hierarchy .shared ⟨3⟩ Twisted.twin chain slots :=
  corresponds_of_build (by decide) Twisted.build_hierarchy rfl

end SlotTable

end GenericSlots
