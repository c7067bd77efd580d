import GenericSlots.Slot.Layout
import Mathlib.Data.Nat.Find
set_option autoImplicit false

/-!
# Placing type parameters

What the layout of a class adds to the layout of its primary base. Each type parameter either shares
a slot of the base or opens the next one, and the slots opened in this way belong to the class. The
slots of the base keep the class that introduced them.

## Main definitions

* `GenericSlots.SlotPolicy.forwardedAt?`: the position of the primary base at which a type parameter
  shares a slot.
* `GenericSlots.Layout.opened`: the number of type parameters that open a slot.
* `GenericSlots.Layout.Ascending`: no class of the chain has fewer slots than one above it.

## Main results

* `GenericSlots.Layout.getElem?_placeParams`: the slot of a type parameter, without recursion.
* `GenericSlots.Layout.nodup_placeParams`: no two type parameters have the same slot, unless they
  share one.
* `GenericSlots.Layout.cls_originStage_extend_of_lt`,
  `GenericSlots.Layout.cls_originStage_extend_of_ge`: the class that introduced a slot, in terms of
  the layout of the primary base.
-/

namespace GenericSlots

/-! ## Shared slots -/

namespace SlotPolicy

/-- The first position at which a type parameter is passed to the primary base unchanged, if the
policy lets it share the slot of that position. A type parameter that is only mentioned inside an
argument is not passed on unchanged. -/
def forwardedAt? (policy : SlotPolicy) (args : List Ty) (v : VarId) : Option Nat :=
  match policy with
  | appended => none
  | shared => args.findIdx? fun a => a = .var v

/-- The argument at the position of a shared slot is the type parameter itself, as a bare variable.
So a type parameter can be read off the position that it is passed on at. -/
lemma getElem?_of_forwardedAt? {policy : SlotPolicy} {args : List Ty} {v : VarId} {j : Nat}
    (h : policy.forwardedAt? args v = some j) : args[j]? = some (.var v) := by
  cases policy with
  | appended => simp [forwardedAt?] at h
  | shared =>
    obtain ⟨hj, hv, -⟩ := List.findIdx?_eq_some_iff_getElem.1 h
    rw [List.getElem?_eq_getElem hj, of_decide_eq_true hv]

/-- Looking up a pair by its first part is looking up the position and then the second part, if the
two lists are of the same length. The layout searches the pairs, while the proofs speak of
positions.

**Proof sketch.** By induction on the first list. The pair at the front is the one that is looked
for, or the search goes on in both lists with one position less. -/
private lemma find?_zip_map_snd (p : Ty → Bool) (args : List Ty) (slots : List Nat)
    (hlen : args.length = slots.length) :
    ((args.zip slots).find? fun x => p x.1).map Prod.snd =
      (args.findIdx? p).bind fun j => slots[j]? := by
  induction args generalizing slots with
  | nil => rfl
  | cons a args ih =>
    cases slots with
    | nil => simp at hlen
    | cons s slots =>
      rw [List.zip_cons_cons, List.find?_cons, List.findIdx?_cons]
      cases hp : p a with
      | true => simp
      | false =>
        rw [ih slots (by simpa using hlen), if_neg Bool.false_ne_true, Option.bind_map]
        rfl

/-- A type parameter shares the slot of the position at which it is passed on. This needs a slot for
every argument of the base, which its arity check provides. -/
lemma reusedSlot?_eq (policy : SlotPolicy) {args : List Ty} {slots : List Nat}
    (hlen : args.length = slots.length) (v : VarId) :
    policy.reusedSlot? args slots v = (policy.forwardedAt? args v).bind fun j => slots[j]? := by
  cases policy with
  | appended => rfl
  | shared =>
    simp only [reusedSlot?, forwardedAt?, Ty.asVar?_eq_some_iff]
    exact find?_zip_map_snd (fun a => a = .var v) args slots hlen

/-- A type parameter shares a slot exactly if it is passed on. So whether it opens a slot of its own
can be seen from the arguments of the base alone, without its layout.

**Proof sketch.** If the type parameter is passed on at some position, the base has a slot there,
because there is one for each argument. -/
lemma isNone_reusedSlot? (policy : SlotPolicy) {args : List Ty} {slots : List Nat}
    (hlen : args.length = slots.length) (v : VarId) :
    (policy.reusedSlot? args slots v).isNone = (policy.forwardedAt? args v).isNone := by
  rw [reusedSlot?_eq policy hlen]
  cases hj : policy.forwardedAt? args v with
  | none => rfl
  | some j =>
    have hlt : j < slots.length := by
      rw [← hlen]
      exact (List.getElem?_eq_some_iff.1 (getElem?_of_forwardedAt? hj)).1
    simp [List.getElem?_eq_getElem hlt]

/-- Type parameters that share one slot are the same, as long as the base has no slot twice.

**Proof sketch.** Each of the two is passed on at some position, and both positions have the slot.
No slot is there twice, so the positions are the same, and the argument there is a single
variable. -/
lemma reusedSlot?_inj {policy : SlotPolicy} {args : List Ty} {slots : List Nat}
    (hlen : args.length = slots.length) (hslots : slots.Nodup) {v w : VarId} {s : Nat}
    (hv : policy.reusedSlot? args slots v = some s)
    (hw : policy.reusedSlot? args slots w = some s) : v = w := by
  rw [reusedSlot?_eq policy hlen] at hv hw
  obtain ⟨i, hi, his⟩ := Option.bind_eq_some_iff.1 hv
  obtain ⟨j, hj, hjs⟩ := Option.bind_eq_some_iff.1 hw
  have hij : i = j := by
    have hlt : i < slots.length := (List.getElem?_eq_some_iff.1 his).1
    exact (List.getElem?_inj hlt hslots).1 (his.trans hjs.symm)
  have hvar := getElem?_of_forwardedAt? hi
  rw [hij, getElem?_of_forwardedAt? hj] at hvar
  simpa using hvar.symm

/-- A shared slot is a slot of a type parameter of the base, since only these are looked up. -/
lemma mem_of_reusedSlot? {policy : SlotPolicy} {args : List Ty} {slots : List Nat} {v : VarId}
    {s : Nat} (h : policy.reusedSlot? args slots v = some s) : s ∈ slots := by
  cases policy with
  | appended => simp [reusedSlot?] at h
  | shared =>
    obtain ⟨p, hp, rfl⟩ := Option.map_eq_some_iff.1 h
    exact (List.of_mem_zip (List.mem_of_find?_eq_some hp)).2

end SlotPolicy

namespace Layout

/-! ## Placed parameters -/

section Place

variable (reused : VarId → Option Nat)

/-- The number of type parameters that open a slot of their own. Applied to the first few of them,
it says how far a type parameter is from the first slot that its class opens. -/
def opened (vs : List VarId) : Nat :=
  vs.countP fun v => (reused v).isNone

/-- The next slot after all type parameters comes after those that they opened. So placing type
parameters leaves no slot free. -/
lemma snd_placeParams (next : Nat) (vs : List VarId) :
    (placeParams reused next vs).2 = next + opened reused vs := by
  induction vs generalizing next with
  | nil => rfl
  | cons v vs ih =>
    cases hv : reused v with
    | some s => simp [placeParams, opened, hv, ih]
    | none =>
      simp only [placeParams, opened, hv, ih, List.countP_cons, Option.isNone_none, if_true]
      omega

/-- Each type parameter is given one slot, in the order of declaration. -/
@[simp] lemma length_placeParams (next : Nat) (vs : List VarId) :
    (placeParams reused next vs).1.length = vs.length := by
  induction vs generalizing next with
  | nil => rfl
  | cons v vs ih => cases hv : reused v <;> simp [placeParams, hv, ih]

/-- A type parameter has the slot that it shares, or else the slot that follows those opened before
it. This says without recursion what placing does.

**Proof sketch.** By induction on the type parameters, with the next free slot kept general. For the
first of them nothing is opened before it. For the others, the first one moves the next free slot up
by one if it opens a slot, and adds one to those opened before them. -/
theorem getElem?_placeParams {next k : Nat} {vs : List VarId} {v : VarId} (hk : vs[k]? = some v) :
    (placeParams reused next vs).1[k]? =
      some ((reused v).getD (next + opened reused (vs.take k))) := by
  induction vs generalizing next k with
  | nil => simp at hk
  | cons w vs ih =>
    cases k with
    | zero =>
      obtain rfl : w = v := by simpa using hk
      cases hw : reused w <;> simp [placeParams, opened, hw]
    | succ k =>
      cases hw : reused w with
      | some s =>
        simp only [placeParams, hw, List.getElem?_cons_succ]
        rw [ih (by simpa using hk)]
        simp [opened, hw]
      | none =>
        simp only [placeParams, hw, List.getElem?_cons_succ]
        rw [ih (by simpa using hk)]
        simp only [opened, List.take_succ_cons, List.countP_cons, hw, Option.isNone_none, if_true]
        congr 2
        omega

/-- Every slot of a type parameter is shared or was opened, and slots that are opened are numbered
without gaps from the next free one on.

**Proof sketch.** By induction on the type parameters. The first one shares its slot or is given the
next free one. The slots of the others are shared or opened after that. -/
lemma mem_placeParams {next : Nat} {vs : List VarId} {s : Nat}
    (h : s ∈ (placeParams reused next vs).1) :
    (∃ v ∈ vs, reused v = some s) ∨ next ≤ s ∧ s < next + opened reused vs := by
  induction vs generalizing next with
  | nil => simp [placeParams] at h
  | cons v vs ih =>
    cases hv : reused v with
    | some s' =>
      simp only [placeParams, hv, List.mem_cons] at h
      rcases h with rfl | h
      · exact Or.inl ⟨v, by simp, hv⟩
      · rcases ih h with ⟨w, hw, hs⟩ | hs
        · exact Or.inl ⟨w, by simp [hw], hs⟩
        · exact Or.inr (by simpa [opened, hv] using hs)
    | none =>
      have hopened : opened reused (v :: vs) = opened reused vs + 1 := by simp [opened, hv]
      simp only [placeParams, hv, List.mem_cons] at h
      rcases h with rfl | h
      · exact Or.inr (by omega)
      · rcases ih h with ⟨w, hw, hs⟩ | hs
        · exact Or.inl ⟨w, by simp [hw], hs⟩
        · exact Or.inr (by omega)

/-- Every slot that was opened is the slot of a type parameter, so none is opened in vain.

**Proof sketch.** By induction on the type parameters. If the first one opens a slot, this is the
one that is looked for, or the one that is looked for is opened by the others. -/
lemma mem_placeParams_of_le {next : Nat} {vs : List VarId} {s : Nat} (hle : next ≤ s)
    (hlt : s < next + opened reused vs) : s ∈ (placeParams reused next vs).1 := by
  induction vs generalizing next with
  | nil => simp [opened] at hlt; omega
  | cons v vs ih =>
    cases hv : reused v with
    | some s' =>
      simp only [placeParams, hv, List.mem_cons]
      exact Or.inr (ih hle (by simpa [opened, hv] using hlt))
    | none =>
      have hopened : opened reused (v :: vs) = opened reused vs + 1 := by simp [opened, hv]
      simp only [placeParams, hv, List.mem_cons]
      rcases Nat.eq_or_lt_of_le hle with rfl | hlt'
      · exact Or.inl rfl
      · exact Or.inr (ih hlt' (by omega))

/-- No two type parameters have the same slot, unless they share one. Shared slots have to lie below
the next free one, and only one variable may share each of them.

**Proof sketch.** By induction on the type parameters. A slot that the first one shares is not
opened, because it lies below the next free slot, and not shared by another one, because that would
be the same variable. A slot that it opens lies above all shared slots and below those that are
opened later. -/
theorem nodup_placeParams {next : Nat} {vs : List VarId} (hvs : vs.Nodup)
    (hlt : ∀ v s, reused v = some s → s < next)
    (hinj : ∀ v w s, reused v = some s → reused w = some s → v = w) :
    (placeParams reused next vs).1.Nodup := by
  induction vs generalizing next with
  | nil => simp [placeParams]
  | cons v vs ih =>
    obtain ⟨hv, hvs⟩ := List.nodup_cons.1 hvs
    cases hr : reused v with
    | some s =>
      simp only [placeParams, hr]
      refine List.nodup_cons.2 ⟨fun hmem => ?_, ih hvs hlt⟩
      rcases mem_placeParams reused hmem with ⟨w, hw, hs⟩ | ⟨hs, -⟩
      · exact hv (hinj v w s hr hs ▸ hw)
      · have := hlt v s hr
        omega
    | none =>
      simp only [placeParams, hr]
      refine List.nodup_cons.2
        ⟨fun hmem => ?_, ih hvs fun w s hs => Nat.lt_succ_of_lt (hlt w s hs)⟩
      rcases mem_placeParams reused hmem with ⟨w, -, hs⟩ | ⟨hs, -⟩
      · have := hlt w next hs
        omega
      · omega

end Place

/-! ## Extended layouts -/

section Extend

variable (l : Layout) (c : ClassId) (vs : List VarId) (reused : VarId → Option Nat)

/-- A class without bases is alone on its chain. -/
@[simp] lemma chain_root (n : Nat) : (root c n).chain = [c] := rfl

/-- A class without bases has a slot for each of its type parameters. -/
@[simp] lemma numSlots_root (n : Nat) : (root c n).numSlots = n := rfl

/-- A class without bases inherits no slots, since there is no class above it. -/
@[simp] lemma inheritedSlots_root (n : Nat) : (root c n).inheritedSlots = 0 := rfl

/-- The type parameters of a class without bases have the slots of their positions. -/
@[simp] lemma paramSlots_root (n : Nat) : (root c n).paramSlots = List.range n := rfl

/-- The type parameters of a class with a primary base are placed after the slots of the base. -/
@[simp] lemma paramSlots_extend :
    (l.extend c vs reused).paramSlots = (placeParams reused l.numSlots vs).1 := rfl

/-- The chain of a class with a primary base is that of the base, followed by the class itself. -/
@[simp] lemma chain_extend : (l.extend c vs reused).chain = l.chain ++ [c] := by
  simp [chain, extend]

/-- Upwards, the chain starts with the class itself and goes on as that of its primary base. In this
direction the recursion of layouts is the one of lists. -/
@[simp] lemma reverse_chain_extend :
    (l.extend c vs reused).chain.reverse = c :: l.chain.reverse := by
  rw [chain_extend, List.reverse_append, List.reverse_singleton, List.singleton_append]

/-- There is one class on the chain for each stage of the layout. -/
@[simp] lemma length_chain : l.chain.length = l.stages.size := by
  simp [chain]

/-- Extending a layout adds one stage, that of the class itself. -/
@[simp] lemma size_stages_extend : (l.extend c vs reused).stages.size = l.stages.size + 1 := by
  simp [extend]

/-- The classes above keep their number of slots when a layout is extended. -/
lemma slotsAt_extend_of_lt {n : Nat} (hn : n < l.stages.size) :
    (l.extend c vs reused).slotsAt n = l.slotsAt n := by
  simp [slotsAt, extend, Array.getElem?_push_lt hn, Array.getElem?_eq_getElem hn]

/-- At its own stage a class has the slots of the base and those that its type parameters open. -/
lemma slotsAt_extend_size :
    (l.extend c vs reused).slotsAt l.stages.size = l.numSlots + opened reused vs := by
  simp [slotsAt, extend, snd_placeParams]

/-- A class has the slots of its primary base and those that its type parameters open, and no
others. -/
@[simp] lemma numSlots_extend :
    (l.extend c vs reused).numSlots = l.numSlots + opened reused vs := by
  rw [numSlots, size_stages_extend, Nat.add_sub_cancel, slotsAt_extend_size]

/-- The slots that a class inherits are those of its primary base. The number is read off the last
stage but one, so there has to be a stage to extend. -/
lemma inheritedSlots_extend (hl : 0 < l.stages.size) :
    (l.extend c vs reused).inheritedSlots = l.numSlots := by
  rw [inheritedSlots, size_stages_extend, if_pos (by omega), numSlots,
    slotsAt_extend_of_lt l c vs reused (by omega)]
  congr 1

end Extend

/-! ## Origins -/

/-- No class of the chain has fewer slots than one above it. This is the invariant that lets the
bisection find the class that introduced a slot. -/
def Ascending (l : Layout) : Prop :=
  ∀ m n, m ≤ n → n < l.stages.size → l.slotsAt m ≤ l.slotsAt n

/-- With a single stage there is nothing to compare. -/
lemma ascending_root (c : ClassId) (n : Nat) : (root c n).Ascending := by
  intro i j hij hj
  have hj0 : j < 1 := hj
  obtain rfl : i = j := by omega
  exact Nat.le_refl _

/-- Extending a layout keeps it ascending, since the new stage has all slots of the one before.

**Proof sketch.** Two stages above the new one are as before. A stage above has no more slots than
the last one of the base, and the new stage adds to these. -/
lemma Ascending.extend {l : Layout} (hl : l.Ascending) (c : ClassId) (vs : List VarId)
    (reused : VarId → Option Nat) : (l.extend c vs reused).Ascending := by
  intro m n hmn hn
  rw [size_stages_extend] at hn
  rcases Nat.lt_succ_iff_lt_or_eq.1 hn with hn | rfl
  · rw [slotsAt_extend_of_lt l c vs reused hn, slotsAt_extend_of_lt l c vs reused (by omega)]
    exact hl m n hmn hn
  · rcases Nat.lt_or_eq_of_le hmn with hm | rfl
    · rw [slotsAt_extend_of_lt l c vs reused hm, slotsAt_extend_size]
      have := hl m (l.stages.size - 1) (by omega) (by omega)
      exact Nat.le_trans this (Nat.le_add_right _ _)
    · exact Nat.le_refl _

/-- The class that introduced a slot is the first of the chain that has it. The bisection finds the
boundary between the stages that lack the slot and those that have it, which is there because the
stages ascend. -/
lemma originIndex_eq {l : Layout} (hl : l.Ascending) {b slot : Nat} (hb : b < l.stages.size)
    (hbelow : ∀ n < b, l.slotsAt n ≤ slot) (hslot : slot < l.slotsAt b) :
    l.originIndex slot = b := by
  apply boundary_eq (Nat.zero_le b) (Nat.le_of_lt hb)
  · intro n hn
    exact decide_eq_true (hbelow n hn)
  · intro n hn hlt
    have := hl b n hn hlt
    exact decide_eq_false (by omega)

/-- Some class of the chain is the first that has a slot, since the last class has it and the chain
is finite. -/
lemma exists_first_stage {l : Layout} {slot : Nat} (h : slot < l.numSlots) :
    ∃ b < l.stages.size, (∀ n < b, l.slotsAt n ≤ slot) ∧ slot < l.slotsAt b := by
  have hsize : l.stages.size ≠ 0 := by
    intro h0
    simp [numSlots, slotsAt, h0] at h
  have hex : ∃ n, slot < l.slotsAt n := ⟨l.stages.size - 1, h⟩
  refine ⟨Nat.find hex, ?_, fun n hn => Nat.le_of_not_lt (Nat.find_min hex hn), Nat.find_spec hex⟩
  have := Nat.find_min' hex h
  omega

/-- The chain has the class that introduced a slot at the position of the origin, because chain and
stages are in the same order. -/
lemma getElem?_chain_originIndex {l : Layout} {slot : Nat} (h : slot < l.numSlots) :
    l.chain[l.originIndex slot]? = some (l.originStage slot h).cls := by
  have hlt := originIndex_lt h
  simp [chain, originStage, Array.getElem?_eq_getElem hlt]

/-- All slots of a class without bases were introduced by the class itself. -/
lemma cls_originStage_root {c : ClassId} {n slot : Nat} (h : slot < (root c n).numSlots) :
    ((root c n).originStage slot h).cls = c := by
  have hlt := originIndex_lt h
  have h0 : (root c n).originIndex slot = 0 := by simpa [root] using hlt
  have hget := getElem?_chain_originIndex h
  rw [h0] at hget
  simpa using hget.symm

section Extend

variable {l : Layout} (hl : l.Ascending) {c : ClassId} {vs : List VarId}
  {reused : VarId → Option Nat} {slot : Nat} (h : slot < (l.extend c vs reused).numSlots)

include hl in
/-- A slot of the primary base keeps the class that introduced it, although the bisection takes
other steps in the longer chain.

**Proof sketch.** Some stage is the first that has the slot in the layout of the base. Extending the
layout changes none of the stages up to there, so it is the first that has the slot in the extended
layout too. The chains agree at this position. -/
theorem cls_originStage_extend_of_lt (hs : slot < l.numSlots) :
    ((l.extend c vs reused).originStage slot h).cls = (l.originStage slot hs).cls := by
  obtain ⟨b, hb, hbelow, hslot⟩ := exists_first_stage hs
  have hbase : l.originIndex slot = b := originIndex_eq hl hb hbelow hslot
  have hext : (l.extend c vs reused).originIndex slot = b := by
    apply originIndex_eq (hl.extend c vs reused) (by simp; omega)
    · intro n hn
      rw [slotsAt_extend_of_lt l c vs reused (by omega)]
      exact hbelow n hn
    · rwa [slotsAt_extend_of_lt l c vs reused hb]
  have hget := getElem?_chain_originIndex h
  have hget' := getElem?_chain_originIndex hs
  rw [hext, chain_extend, List.getElem?_append_left (by simpa using hb)] at hget
  rw [hbase] at hget'
  exact Option.some.inj (hget.symm.trans hget')

include hl in
/-- A slot that the primary base lacks was introduced by the class itself.

**Proof sketch.** The layout of the base has no stage with the slot, because its stages ascend to
the number of its slots. So the first stage that has it is the one that was added, which is that of
the class. -/
theorem cls_originStage_extend_of_ge (hs : l.numSlots ≤ slot) :
    ((l.extend c vs reused).originStage slot h).cls = c := by
  have hext : (l.extend c vs reused).originIndex slot = l.stages.size := by
    apply originIndex_eq (hl.extend c vs reused) (by simp)
    · intro n hn
      rw [slotsAt_extend_of_lt l c vs reused hn]
      exact Nat.le_trans (hl n (l.stages.size - 1) (by omega) (by omega)) hs
    · rw [slotsAt_extend_size]
      simpa using h
  have hget := getElem?_chain_originIndex h
  rw [hext, chain_extend, List.getElem?_append_right (by simp)] at hget
  simpa using hget.symm

end Extend

end Layout

end GenericSlots
