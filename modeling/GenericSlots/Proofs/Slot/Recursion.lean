import GenericSlots.Hierarchy.Basic
import GenericSlots.Proofs.Slot.Placement
import Mathlib.Data.List.Nodup
set_option autoImplicit false

/-!
# Layouts by recursion

The layout of a class is that of its primary base, extended by the type parameters of the class. A
layout is given to a class only if the class passes all checks, and so does every class above it on
its primary chain. So a class that has a layout has a primary chain that ends, and what holds of
layouts is proved by induction from the root of the chain to the class.

## Main definitions

* `GenericSlots.Hierarchy.Checked`: a class whose type parameters and ancestors are as they should
  be.
* `GenericSlots.Hierarchy.HasLayout`: the layout of a class, by recursion along primary bases.

## Main results

* `GenericSlots.Hierarchy.HasLayout.unique`: a class has at most one layout.
* `GenericSlots.Hierarchy.HasLayout.nodup_paramSlots`,
  `GenericSlots.Hierarchy.HasLayout.lt_numSlots`: type parameters of a class have slots of the
  class, each its own.
* `GenericSlots.Hierarchy.HasLayout.of_mem_chain`: the classes of a primary chain have layouts,
  which the layout of the class continues.
* `GenericSlots.Hierarchy.HasLayout.nodup_chain`: a primary chain passes no class twice.
-/

namespace GenericSlots

namespace Hierarchy

/-- A class that is defined, whose type parameters have positive identifiers of their own, and whose
ancestors start with the class itself. These are the checks that look at the class alone, and not at
its primary base. -/
structure Checked (h : Hierarchy) (c : ClassId) (d : ClassDef) : Prop where
  /-- The class is defined. -/
  find : h.find? c = some d
  /-- The type parameters have positive identifiers. -/
  positive : ∀ p ∈ d.params, p.id.isClassParameter = true
  /-- No two type parameters have the same identifier. -/
  nodup : (d.params.map TypeParam.id).Nodup
  /-- The class is the first of its ancestors. -/
  head : d.ancestors.head? = some c

/-- The layout of a class under a policy, by recursion along primary bases. There is no clause for a
class whose checks fail, whose base has no layout or whose primary bases lead in a circle, so these
have none. Proofs about layouts are by induction on this predicate. -/
inductive HasLayout (h : Hierarchy) (policy : SlotPolicy) : ClassId → Layout → Prop
  /-- A class without bases has a slot for each type parameter. -/
  | root {c : ClassId} {d : ClassDef} (checked : h.Checked c d) (noBase : d.primaryBase? = none) :
      HasLayout h policy c (.root c d.arity)
  /-- A class with a primary base extends the layout of the base. -/
  | extend {c : ClassId} {d b : ClassDef} {base : Instance} {l : Layout} (checked : h.Checked c d)
      (hasBase : d.primaryBase? = some base) (findBase : h.find? base.cls = some b)
      (arity : base.args.length = b.arity) (baseLayout : HasLayout h policy base.cls l)
      (listed : ∀ a ∈ l.chain, a ∈ d.ancestors) :
      HasLayout h policy c (l.extend c (d.params.map TypeParam.id)
        (policy.reusedSlot? base.args l.paramSlots))

namespace HasLayout

variable {h : Hierarchy} {policy : SlotPolicy} {c : ClassId} {d : ClassDef} {l : Layout}

/-- A class that has a layout passes its checks. In particular it is defined. -/
lemma checked (hl : h.HasLayout policy c l) : ∃ d, h.Checked c d := by
  cases hl with
  | root hd _ => exact ⟨_, hd⟩
  | extend hd _ _ _ _ _ => exact ⟨_, hd⟩

/-- The definition that is found for a class that has a layout is the one that passes the checks. -/
lemma checked_of_find? (hl : h.HasLayout policy c l) (hd : h.find? c = some d) :
    h.Checked c d := by
  obtain ⟨d', hd'⟩ := hl.checked
  obtain rfl : d' = d := Option.some.inj (hd'.find.symm.trans hd)
  exact hd'

/-- The layout of a class without bases has a slot for each type parameter, and nothing else. -/
lemma eq_root (hl : h.HasLayout policy c l) (hd : h.find? c = some d)
    (hb : d.primaryBase? = none) : l = .root c d.arity := by
  cases hl with
  | root hd' _ =>
    obtain rfl := Option.some.inj (hd'.find.symm.trans hd)
    rfl
  | extend hd' hb' _ _ _ _ =>
    obtain rfl := Option.some.inj (hd'.find.symm.trans hd)
    cases hb'.symm.trans hb

/-- The layout of a class with a primary base, in terms of that of the base. This inverts the
recursion: the base has a layout, has as many arguments as it needs, and brings a chain that is
listed among the ancestors.

**Proof sketch.** By cases on how the class got its layout. That it has no base is excluded, and
otherwise the parts are those of the second clause, with the same definition and the same base. -/
lemma eq_extend (hl : h.HasLayout policy c l) {base : Instance} (hd : h.find? c = some d)
    (hb : d.primaryBase? = some base) :
    ∃ b lb, h.find? base.cls = some b ∧ base.args.length = b.arity ∧
      h.HasLayout policy base.cls lb ∧ (∀ a ∈ lb.chain, a ∈ d.ancestors) ∧
      l = lb.extend c (d.params.map TypeParam.id)
        (policy.reusedSlot? base.args lb.paramSlots) := by
  cases hl with
  | root hd' hb' =>
    obtain rfl := Option.some.inj (hd'.find.symm.trans hd)
    cases hb'.symm.trans hb
  | extend hd' hb' hfind harity hbl hlisted =>
    obtain rfl := Option.some.inj (hd'.find.symm.trans hd)
    obtain rfl := Option.some.inj (hb'.symm.trans hb)
    exact ⟨_, _, hfind, harity, hbl, hlisted, rfl⟩

/-- A class has at most one layout, so it does not matter in which order layouts are computed.

**Proof sketch.** By induction on the first layout. The class has a primary base or not, and the
second layout arises by the same clause. For a class with a base, the layouts of the base are the
same by the induction hypothesis, and extending them gives the same. -/
theorem unique {l' : Layout} (hl : h.HasLayout policy c l) (hl' : h.HasLayout policy c l') :
    l = l' := by
  induction hl generalizing l' with
  | root hd hb => exact (hl'.eq_root hd.find hb).symm
  | extend hd hb _ _ _ _ ih =>
    obtain ⟨b', lb', -, -, hlb', -, rfl⟩ := hl'.eq_extend hd.find hb
    rw [ih hlb']

/-! ## Type parameters -/

/-- Each type parameter has a slot, so the list of slots is as long as that of the type
parameters. -/
lemma length_paramSlots (hl : h.HasLayout policy c l) (hd : h.find? c = some d) :
    l.paramSlots.length = d.arity := by
  cases hl with
  | root hd' _ =>
    obtain rfl := Option.some.inj (hd'.find.symm.trans hd)
    simp
  | extend hd' _ _ _ _ _ =>
    obtain rfl := Option.some.inj (hd'.find.symm.trans hd)
    simp [ClassDef.arity]

/-- The primary base has as many arguments as its layout has slots for type parameters. This is the
form in which the arity check is used. -/
lemma length_args (hl : h.HasLayout policy c l) {args : List Ty} (hd : h.find? c = some d)
    (harity : args.length = d.arity) : args.length = l.paramSlots.length := by
  rw [harity, hl.length_paramSlots hd]

/-- The slots of type parameters are slots of the class.

**Proof sketch.** By induction along the chain. A slot that is shared is one of the base, which has
no more slots than the class. A slot that is opened is counted among those of the class. -/
theorem lt_numSlots (hl : h.HasLayout policy c l) {s : Nat} (hs : s ∈ l.paramSlots) :
    s < l.numSlots := by
  induction hl generalizing s with
  | root _ _ => simpa using hs
  | extend hd _ hfind harity hbl _ ih =>
    rw [Layout.numSlots_extend]
    rcases Layout.mem_placeParams _ hs with ⟨v, -, hv⟩ | ⟨-, hlt⟩
    · exact Nat.lt_add_right _ (ih (SlotPolicy.mem_of_reusedSlot? hv))
    · exact hlt

/-- Each type parameter has a slot of the class. So a position within the arity is never out of
bounds. -/
lemma exists_slot (hl : h.HasLayout policy c l) (hd : h.find? c = some d) {k : Nat}
    (hk : k < d.arity) : ∃ s, l.paramSlots[k]? = some s ∧ s < l.numSlots := by
  rw [← hl.length_paramSlots hd] at hk
  have hs := List.getElem?_eq_getElem hk
  exact ⟨_, hs, hl.lt_numSlots (List.mem_of_getElem? hs)⟩

/-- No two type parameters of a class have the same slot.

**Proof sketch.** Induction along the chain. Two type parameters that share a slot of the base are
passed on at the same position, because the base has no slot twice, so they are the same variable. A
slot that is opened is new. -/
theorem nodup_paramSlots (hl : h.HasLayout policy c l) : l.paramSlots.Nodup := by
  induction hl with
  | root _ _ => exact List.nodup_range
  | extend hd _ hfind harity hbl _ ih =>
    have hlen := hbl.length_args hfind harity
    apply Layout.nodup_placeParams _ hd.nodup
    · intro v s hv
      exact hbl.lt_numSlots (SlotPolicy.mem_of_reusedSlot? hv)
    · intro v w s hv hw
      exact SlotPolicy.reusedSlot?_inj hlen ih hv hw

/-! ## Slots along the chain -/

/-- The layout of a class has at least one stage, that of the class itself. -/
lemma size_stages_pos (hl : h.HasLayout policy c l) : 0 < l.stages.size := by
  cases hl with
  | root _ _ => exact Nat.one_pos
  | extend _ _ _ _ _ _ => simp

/-- Slots are only added along the chain, by induction on the layout. -/
lemma ascending (hl : h.HasLayout policy c l) : l.Ascending := by
  induction hl with
  | root _ _ => exact Layout.ascending_root _ _
  | extend _ _ _ _ _ _ ih => exact ih.extend _ _ _

/-- A class has all slots that it inherits, so subtracting them from its slots does not
underflow. -/
lemma inheritedSlots_le (hl : h.HasLayout policy c l) : l.inheritedSlots ≤ l.numSlots := by
  cases hl with
  | root _ _ => simp
  | extend _ _ _ _ hbl _ =>
    rw [Layout.inheritedSlots_extend _ _ _ _ hbl.size_stages_pos, Layout.numSlots_extend]
    exact Nat.le_add_right _ _

/-- A slot that a class does not inherit is that of one of its type parameters, since only type
parameters open slots. -/
lemma exists_paramSlot (hl : h.HasLayout policy c l) {s : Nat} (hs : l.inheritedSlots ≤ s)
    (hlt : s < l.numSlots) : ∃ k : Nat, l.paramSlots[k]? = some s := by
  refine List.mem_iff_getElem?.1 ?_
  cases hl with
  | root _ _ => simpa using hlt
  | extend _ _ _ _ hbl _ =>
    rw [Layout.inheritedSlots_extend _ _ _ _ hbl.size_stages_pos] at hs
    rw [Layout.numSlots_extend] at hlt
    exact Layout.mem_placeParams_of_le _ hs hlt

/-- A type parameter with a slot of the primary base is passed to the base unchanged, for a type
parameter of the base that has the slot.

**Proof sketch.** A type parameter that opened its slot would have one that the base lacks. So the
slot is shared, and it is that of the position at which the type parameter is passed on. -/
lemma exists_forwarded {b : ClassDef} {base : Instance} {lb : Layout}
    (hbl : h.HasLayout policy base.cls lb) (hfind : h.find? base.cls = some b)
    (harity : base.args.length = b.arity) {k s : Nat} {p : TypeParam} (hp : d.params[k]? = some p)
    (hk : (lb.extend c (d.params.map TypeParam.id)
      (policy.reusedSlot? base.args lb.paramSlots)).paramSlots[k]? = some s)
    (hs : s < lb.numSlots) :
    ∃ j : Nat, base.args[j]? = some (.var p.id) ∧ lb.paramSlots[j]? = some s := by
  have hv : (d.params.map TypeParam.id)[k]? = some p.id := by
    rw [List.getElem?_map, hp, Option.map_some]
  rw [Layout.paramSlots_extend, Layout.getElem?_placeParams _ hv] at hk
  cases hreused : policy.reusedSlot? base.args lb.paramSlots p.id with
  | none =>
    rw [hreused, Option.getD_none] at hk
    have := Option.some.inj hk
    omega
  | some s' =>
    rw [hreused, Option.getD_some] at hk
    obtain rfl : s' = s := Option.some.inj hk
    rw [policy.reusedSlot?_eq (hbl.length_args hfind harity)] at hreused
    obtain ⟨j, hj, hslot⟩ := Option.bind_eq_some_iff.1 hreused
    exact ⟨j, SlotPolicy.getElem?_of_forwardedAt? hj, hslot⟩

/-! ## The chain -/

/-- The chain ends with the class itself, whether it has a primary base or not. -/
lemma getLast?_chain (hl : h.HasLayout policy c l) : l.chain.getLast? = some c := by
  cases hl <;> simp

/-- A class is on its own chain. -/
lemma mem_chain_self (hl : h.HasLayout policy c l) : c ∈ l.chain :=
  List.mem_of_getLast? hl.getLast?_chain

/-- Upwards, the chain starts with the class itself. What follows it is the way up through its
primary bases. -/
lemma reverse_chain (hl : h.HasLayout policy c l) :
    l.chain.reverse = c :: l.chain.reverse.tail := by
  cases hl <;> simp

/-- The classes of a primary chain have layouts, which the layout of the class continues: their
chains are prefixes of the chain, and the class has all their slots.

**Proof sketch.** By induction along the chain. A class of the chain of the base has a layout that
the base continues, and the class continues the base. The class itself has its own layout. -/
theorem of_mem_chain (hl : h.HasLayout policy c l) {o : ClassId} (ho : o ∈ l.chain) :
    ∃ lo, h.HasLayout policy o lo ∧ lo.chain <+: l.chain ∧ lo.numSlots ≤ l.numSlots := by
  induction hl with
  | root hd hb =>
    obtain rfl := List.mem_singleton.1 ho
    exact ⟨_, .root hd hb, List.prefix_rfl, Nat.le_refl _⟩
  | extend hd hb hfind harity hbl hlisted ih =>
    rw [Layout.chain_extend, List.mem_append, List.mem_singleton] at ho
    rcases ho with ho | rfl
    · obtain ⟨lo, hlo, hprefix, hle⟩ := ih ho
      refine ⟨lo, hlo, ?_, ?_⟩
      · rw [Layout.chain_extend]
        exact hprefix.trans (List.prefix_append _ _)
      · rw [Layout.numSlots_extend]
        exact Nat.le_add_right_of_le hle
    · exact ⟨_, .extend hd hb hfind harity hbl hlisted, List.prefix_rfl, Nat.le_refl _⟩

/-- A primary chain passes no class twice.

**Proof sketch.** A class that extends a chain has a longer chain than every class of it, and each
class has one chain only. -/
theorem nodup_chain (hl : h.HasLayout policy c l) : l.chain.Nodup := by
  induction hl with
  | root _ _ => simp
  | @extend c d b base l hd hb hfind harity hbl hlisted ih =>
    have hnot : c ∉ l.chain := by
      intro hc
      obtain ⟨lc, hlc, hprefix, -⟩ := hbl.of_mem_chain hc
      have hlen := hprefix.length_le
      rw [hlc.unique (.extend hd hb hfind harity hbl hlisted), Layout.chain_extend,
        List.length_append, List.length_singleton] at hlen
      omega
    rw [Layout.chain_extend]
    exact List.nodup_append.2 ⟨ih, by simp, fun a ha b hb => by
      rw [List.mem_singleton.1 hb]
      exact fun h => hnot (h ▸ ha)⟩

/-- Upwards, a primary chain passes neither the class nor another class twice. This is the form in
which the search for a path needs it. -/
lemma nodup_reverse_chain (hl : h.HasLayout policy c l) :
    (c :: l.chain.reverse.tail).Nodup := by
  rw [← hl.reverse_chain]
  exact List.nodup_reverse.2 hl.nodup_chain

/-- A class is not its own primary base, since it would be on its chain twice. -/
lemma cls_primaryBase_ne (hl : h.HasLayout policy c l) {base : Instance}
    (hd : h.find? c = some d) (hb : d.primaryBase? = some base) : base.cls ≠ c := by
  obtain ⟨b, lb, -, -, hlb, -, rfl⟩ := hl.eq_extend hd hb
  have hnodup := hl.nodup_reverse_chain
  rw [Layout.reverse_chain_extend, List.tail_cons, hlb.reverse_chain] at hnodup
  intro heq
  refine (List.nodup_cons.1 hnodup).1 ?_
  rw [heq]
  exact List.mem_cons_self

/-- Upwards, the class itself is the start of its chain and no other part. So a class further up is
a different one. -/
lemma getElem?_reverse_chain_eq_self_iff (hl : h.HasLayout policy c l) {n : Nat} :
    l.chain.reverse[n]? = some c ↔ n = 0 := by
  have hnot := (List.nodup_cons.1 hl.nodup_reverse_chain).1
  rw [hl.reverse_chain]
  cases n with
  | zero => simp
  | succ n =>
    rw [List.getElem?_cons_succ]
    simp only [Nat.add_one_ne_zero, iff_false]
    exact fun hn => hnot (List.mem_of_getElem? hn)

/-- Upwards, a primary chain goes on from each of its classes as the chain of that class does.

**Proof sketch.** By induction along the chain. At position `0` the class is the given one, which
has one layout only. Further up the position is one in the chain of the base, and the induction
hypothesis applies. -/
lemma drop_reverse_chain (hl : h.HasLayout policy c l) {n : Nat} {o : ClassId} {lo : Layout}
    (hn : l.chain.reverse[n]? = some o) (hlo : h.HasLayout policy o lo) :
    l.chain.reverse.drop n = lo.chain.reverse := by
  induction hl generalizing n with
  | root hd hb =>
    cases n with
    | zero =>
      obtain rfl : _ = o := by simpa using hn
      rw [List.drop_zero, hlo.eq_root hd.find hb]
    | succ n => simp at hn
  | @extend c d b base l hd hb hfind harity hbl hlisted ih =>
    rw [Layout.reverse_chain_extend] at hn ⊢
    cases n with
    | zero =>
      obtain rfl : c = o := by simpa using hn
      rw [List.drop_zero, hlo.unique (.extend hd hb hfind harity hbl hlisted),
        Layout.reverse_chain_extend]
    | succ n => exact ih hn

/-- Upwards, positions in the chain of a class of a primary chain count on from that class. -/
lemma getElem?_reverse_chain_add (hl : h.HasLayout policy c l) {n : Nat} {o : ClassId}
    {lo : Layout} (hn : l.chain.reverse[n]? = some o) (hlo : h.HasLayout policy o lo) (m : Nat) :
    l.chain.reverse[n + m]? = lo.chain.reverse[m]? := by
  rw [← List.getElem?_drop, hl.drop_reverse_chain hn hlo]

/-- The chain of a class of a primary chain is the part that ends with the class. So a prefix of a
chain is itself a chain, namely that of its last class.

**Proof sketch.** Upwards, the part before the class is what comes after it, and the chain goes on
from the class as its own chain does. -/
lemma chain_of_append (hl : h.HasLayout policy c l) {before after : List ClassId} {o : ClassId}
    {lo : Layout} (hchain : l.chain = before ++ o :: after) (hlo : h.HasLayout policy o lo) :
    lo.chain = before ++ [o] := by
  have hreverse : l.chain.reverse = after.reverse ++ o :: before.reverse := by simp [hchain]
  have hn : l.chain.reverse[after.length]? = some o := by simp [hreverse]
  have hdrop := hl.drop_reverse_chain hn hlo
  rw [hreverse, List.drop_left' (List.length_reverse)] at hdrop
  rw [← List.reverse_reverse lo.chain, ← hdrop]
  simp

/-- Every class of a primary chain is listed among the ancestors. The class itself is the first of
them, and the chain of the base was checked when the layout was extended.

**Proof sketch.** By cases on how the class got its layout. A class without bases is alone on its
chain. Otherwise a class of the chain is one of the base, which was checked to be listed, or the
class itself. -/
lemma mem_ancestors (hl : h.HasLayout policy c l) (hd : h.find? c = some d) {o : ClassId}
    (ho : o ∈ l.chain) : o ∈ d.ancestors := by
  have hself : c ∈ d.ancestors := List.mem_of_head? (hl.checked_of_find? hd).head
  cases hl with
  | root _ _ =>
    obtain rfl := List.mem_singleton.1 ho
    exact hself
  | extend hd' _ _ _ _ hlisted =>
    obtain rfl := Option.some.inj (hd'.find.symm.trans hd)
    rw [Layout.chain_extend, List.mem_append, List.mem_singleton] at ho
    rcases ho with ho | rfl
    · exact hlisted _ ho
    · exact hself

end HasLayout

end Hierarchy

end GenericSlots
