import GenericSlots.Slot.Table
import GenericSlots.Proofs.Failure
import GenericSlots.Proofs.Slot.Recursion
set_option autoImplicit false

/-!
# Answers of a slot table

What a table answers about a class whose layout it holds. The origin of a slot is found by bisection
of the chain, and yet follows the recursion along primary bases: a slot that the base has too has
the same origin there, and any other slot is that of a type parameter of the class.

## Main definitions

* `GenericSlots.SlotTable.Describes`: a table that holds the layouts of all classes of a hierarchy.

## Main results

* `GenericSlots.SlotTable.Describes.slotOrigin_of_own`,
  `GenericSlots.SlotTable.Describes.slotOrigin_of_base`: the origin of a slot, by recursion.
* `GenericSlots.SlotTable.Describes.exists_slotOrigin`: every slot has an origin, a type parameter
  that is stored in it.
* `GenericSlots.SlotTable.Describes.slotOrigin_of_mem_chain`: a slot has the same origin in all
  classes that have it.
-/

namespace GenericSlots

namespace SlotTable

/-- A table that holds the layouts of all classes of a hierarchy. What tables answer is shown for
every table of this kind, however it was made. -/
def Describes (t : SlotTable) (h : Hierarchy) : Prop :=
  ∀ c, h.IsDefined c → ∃ l, t.layouts[c.index]? = some l ∧ h.HasLayout t.policy c l

/-- Only classes that are defined have a layout. The table refuses the others before it looks for
them. -/
lemma isDefined_of_layout {t : SlotTable} {h : Hierarchy} {c : ClassId} {l : Layout}
    (hl : t.layout h c = .ok l) : h.IsDefined c := by
  by_contra hc
  rw [layout, if_neg hc] at hl
  cases hl

/-- What it takes for a slot to have an origin: the class that introduced it is laid out, and has a
type parameter in the slot. Each of these conditions is a point at which the query may be refused.

**Proof sketch.** From left to right, each step of the computation has succeeded, and what it gave
is what is asked for. From right to left, the steps are carried out. -/
lemma slotOrigin_eq_ok_iff {t : SlotTable} {h : Hierarchy} {c o : ClassId} {s k : Nat} :
    t.slotOrigin h c s = .ok (o, k) ↔ ∃ l lo, t.layout h c = .ok l ∧
      (∃ hs : s < l.numSlots, (l.originStage s hs).cls = o) ∧ t.layout h o = .ok lo ∧
      lo.paramSlots.findIdx? (fun s' => s' = s) = some k := by
  constructor
  · intro hok
    obtain ⟨l, hl, hok⟩ := bind_eq_ok_iff.1 hok
    by_cases hs : s < l.numSlots
    · simp only [dif_pos hs] at hok
      obtain ⟨lo, hlo, hok⟩ := bind_eq_ok_iff.1 hok
      cases hk : lo.paramSlots.findIdx? (fun s' => s' = s) with
      | some k' =>
        simp only [hk] at hok
        obtain ⟨rfl, rfl⟩ := Prod.mk.inj (Except.ok.inj hok)
        exact ⟨l, lo, hl, ⟨hs, rfl⟩, hlo, hk⟩
      | none =>
        simp only [hk] at hok
        obtain ⟨_, -, hok⟩ := bind_eq_ok_iff.1 hok
        cases hok
    · simp only [dif_neg hs] at hok
      obtain ⟨_, -, hok⟩ := bind_eq_ok_iff.1 hok
      cases hok
  · rintro ⟨l, lo, hl, ⟨hs, rfl⟩, hlo, hk⟩
    simp only [slotOrigin, hl, ok_bind, dif_pos hs, hlo, hk]
    rfl

namespace Describes

variable {t : SlotTable} {h : Hierarchy} {c : ClassId} {l : Layout}

/-- Every class of a hierarchy that a table describes has a layout. -/
lemma exists_hasLayout (ht : t.Describes h) (hc : h.IsDefined c) :
    ∃ l, h.HasLayout t.policy c l := by
  obtain ⟨l, -, hl⟩ := ht c hc
  exact ⟨l, hl⟩

/-- The table answers with the layout of a class. As a class has only one layout, it is the one that
the table holds. -/
lemma layout_eq (ht : t.Describes h) (hl : h.HasLayout t.policy c l) : t.layout h c = .ok l := by
  obtain ⟨d, hd⟩ := hl.checked
  have hc : h.IsDefined c := Hierarchy.isDefined_iff.2 ⟨d, hd.find⟩
  obtain ⟨l', hget, hl'⟩ := ht c hc
  rw [layout, if_pos hc, hget, hl'.unique hl]

/-- The number of slots is that of the layout. -/
lemma numSlots_eq (ht : t.Describes h) (hl : h.HasLayout t.policy c l) :
    t.numSlots h c = .ok l.numSlots := by
  rw [numSlots, ht.layout_eq hl]
  rfl

/-- The number of slots that the class introduces is that of the layout. -/
lemma ownSlots_eq (ht : t.Describes h) (hl : h.HasLayout t.policy c l) :
    t.ownSlots h c = .ok l.ownSlots := by
  rw [ownSlots, ht.layout_eq hl]
  rfl

/-- The chain that the table answers with is that of the layout. -/
lemma chain_eq (ht : t.Describes h) (hl : h.HasLayout t.policy c l) :
    t.chain h c = .ok l.chain := by
  rw [chain, ht.layout_eq hl]
  rfl

/-- The slot of a type parameter is the one that the layout has at its position. -/
lemma paramSlot_eq (ht : t.Describes h) (hl : h.HasLayout t.policy c l) {k s : Nat}
    (hk : l.paramSlots[k]? = some s) : t.paramSlot h c k = .ok s := by
  simp only [paramSlot, ht.layout_eq hl, ok_bind, hk]
  rfl

/-- The table answers with the slots of the layout and with nothing else. A position that the layout
lacks is refused, which reads the name of the class for the error.

**Proof sketch.** From right to left this is `paramSlot_eq`. From left to right, the position has a
slot in the layout, which the answer is, because otherwise the question is refused. -/
lemma paramSlot_eq_ok_iff (ht : t.Describes h) (hl : h.HasLayout t.policy c l) {k s : Nat} :
    t.paramSlot h c k = .ok s ↔ l.paramSlots[k]? = some s := by
  refine ⟨?_, ht.paramSlot_eq hl⟩
  intro hok
  obtain ⟨d, hd⟩ := hl.checked
  cases hk : l.paramSlots[k]? with
  | some s' =>
    rw [ht.paramSlot_eq hl hk] at hok
    exact congrArg some (Except.ok.inj hok)
  | none =>
    simp [paramSlot, ht.layout_eq hl, ok_bind, hk, Hierarchy.nameOf,
      Hierarchy.get_eq_ok_iff.2 hd.find, refuse] at hok

/-! ## Origins -/

/-- Looking up the slot of a type parameter finds the type parameter, because no two type parameters
have the same slot. -/
private lemma findIdx?_paramSlots (hl : h.HasLayout t.policy c l) {k s : Nat}
    (hk : l.paramSlots[k]? = some s) : l.paramSlots.findIdx? (fun s' => s' = s) = some k := by
  obtain ⟨hlt, hs⟩ := List.getElem?_eq_some_iff.1 hk
  refine List.findIdx?_eq_some_iff_getElem.2 ⟨hlt, by simpa using hs, ?_⟩
  intro j hj
  have hne : l.paramSlots[j] ≠ l.paramSlots[k] := fun heq =>
    Nat.ne_of_lt hj ((List.getElem_inj hl.nodup_paramSlots).1 heq)
  simpa [hs] using hne

/-- The origin of a slot, given the class that introduced it and a type parameter of this class in
the slot. -/
private lemma slotOrigin_eq (ht : t.Describes h) {o : ClassId} {lo : Layout}
    (hl : h.HasLayout t.policy c l) (ho : h.HasLayout t.policy o lo) {k s : Nat}
    (hs : s < l.numSlots) (hcls : (l.originStage s hs).cls = o) (hk : lo.paramSlots[k]? = some s) :
    t.slotOrigin h c s = .ok (o, k) :=
  slotOrigin_eq_ok_iff.2 ⟨l, lo, ht.layout_eq hl, ⟨hs, hcls⟩, ht.layout_eq ho,
    findIdx?_paramSlots ho hk⟩

/-- A slot that a class does not inherit has its origin in the class. The bisection ends at the
class itself, and the type parameter is looked up in its layout. -/
theorem slotOrigin_of_own (ht : t.Describes h) (hl : h.HasLayout t.policy c l) {k s : Nat}
    (hs : l.inheritedSlots ≤ s) (hk : l.paramSlots[k]? = some s) :
    t.slotOrigin h c s = .ok (c, k) := by
  have hlt : s < l.numSlots := hl.lt_numSlots (List.mem_of_getElem? hk)
  refine ht.slotOrigin_eq hl hl hlt ?_ hk
  cases hl with
  | root _ _ => exact Layout.cls_originStage_root hlt
  | extend _ _ _ _ hbl _ =>
    rw [Layout.inheritedSlots_extend _ _ _ _ hbl.size_stages_pos] at hs
    exact Layout.cls_originStage_extend_of_ge hbl.ascending hlt hs

/-- A slot of the primary base has its origin where it has it for the base. Extending a layout moves
no slot, so the bisection ends at the same class.

**Proof sketch.** The slot is one of the class too, which has all slots of its base. Both queries
find the class that introduced it by `Layout.cls_originStage_extend_of_lt` and look it up in the
same layout. -/
theorem slotOrigin_of_base (ht : t.Describes h) (hl : h.HasLayout t.policy c l) {d : ClassDef}
    {base : Instance} {lb : Layout} (hd : h.find? c = some d) (hb : d.primaryBase? = some base)
    (hbl : h.HasLayout t.policy base.cls lb) {s : Nat} (hs : s < lb.numSlots) :
    t.slotOrigin h c s = t.slotOrigin h base.cls s := by
  obtain ⟨b, lb', -, -, hlb', -, rfl⟩ := hl.eq_extend hd hb
  obtain rfl := hlb'.unique hbl
  have hlt : s < (lb'.extend c (d.params.map TypeParam.id)
      (t.policy.reusedSlot? base.args lb'.paramSlots)).numSlots := by
    rw [Layout.numSlots_extend]
    exact Nat.lt_add_right _ hs
  simp only [slotOrigin, ht.layout_eq hl, ht.layout_eq hbl, ok_bind, dif_pos hs, dif_pos hlt,
    Layout.cls_originStage_extend_of_lt hbl.ascending hlt hs]

/-- Every slot has an origin in the chain, a type parameter that is stored in it.

**Proof sketch.** Induction along the chain. A slot that the class does not inherit is that of a
type parameter of the class, and any other has its origin where the primary base has it. -/
theorem exists_slotOrigin (ht : t.Describes h) (hl : h.HasLayout t.policy c l) {s : Nat}
    (hs : s < l.numSlots) : ∃ o lo k, t.slotOrigin h c s = .ok (o, k) ∧ o ∈ l.chain ∧
      h.HasLayout t.policy o lo ∧ lo.paramSlots[k]? = some s := by
  induction hl with
  | root hd hb =>
    have hl : h.HasLayout t.policy _ _ := .root hd hb
    obtain ⟨k, hk⟩ := hl.exists_paramSlot (Nat.zero_le s) hs
    exact ⟨_, _, k, ht.slotOrigin_of_own hl (Nat.zero_le s) hk, hl.mem_chain_self, hl, hk⟩
  | @extend c d b base lb hd hb hfind harity hbl hlisted ih =>
    have hl := Hierarchy.HasLayout.extend hd hb hfind harity hbl hlisted
    rcases Nat.lt_or_ge s lb.numSlots with hlt | hge
    · obtain ⟨o, lo, k, horigin, ho, hlo, hk⟩ := ih hlt
      refine ⟨o, lo, k, ?_, ?_, hlo, hk⟩
      · rw [ht.slotOrigin_of_base hl hd.find hb hbl hlt, horigin]
      · rw [Layout.chain_extend]
        exact List.mem_append_left _ ho
    · rw [← Layout.inheritedSlots_extend _ _ _ _ hbl.size_stages_pos] at hge
      obtain ⟨k, hk⟩ := hl.exists_paramSlot hge hs
      exact ⟨_, _, k, ht.slotOrigin_of_own hl hge hk, hl.mem_chain_self, hl, hk⟩

/-- A slot has the same origin in all classes that have it.

**Proof sketch.** By induction along the chain. The class itself is one case. A class of the chain
of the base has no more slots than the base, so the slot has its origin where it has it for the
base, and the induction hypothesis takes over. -/
theorem slotOrigin_of_mem_chain (ht : t.Describes h) (hl : h.HasLayout t.policy c l) {o : ClassId}
    {lo : Layout} (ho : o ∈ l.chain) (hlo : h.HasLayout t.policy o lo) {s : Nat}
    (hs : s < lo.numSlots) : t.slotOrigin h c s = t.slotOrigin h o s := by
  induction hl with
  | root _ _ =>
    obtain rfl := List.mem_singleton.1 ho
    rfl
  | extend hd hb hfind harity hbl hlisted ih =>
    rw [Layout.chain_extend, List.mem_append, List.mem_singleton] at ho
    rcases ho with ho | rfl
    · obtain ⟨lo', hlo', -, hle⟩ := hbl.of_mem_chain ho
      obtain rfl := hlo'.unique hlo
      rw [ht.slotOrigin_of_base (.extend hd hb hfind harity hbl hlisted) hd.find hb hbl
        (Nat.lt_of_lt_of_le hs hle), ih ho]
    · rfl

end Describes

end SlotTable

end GenericSlots
