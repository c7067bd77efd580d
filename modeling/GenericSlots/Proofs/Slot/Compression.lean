import GenericSlots.Proofs.Slot.Access
import GenericSlots.Proofs.Slot.Origins
import GenericSlots.Proofs.Slot.Outline
import Mathlib.Data.List.NodupEquivFin
set_option autoImplicit false

/-!
# Sharing slots loses nothing

Where each type parameter has a slot of its own, a slot often stores what another one stores
already. Sharing slots leaves those out and keeps the others in order: the slot with the same origin
is further back, but it stores the same, and what a left out slot would store is found in the slot
that its type parameter shares.

## Main definitions

* `GenericSlots.Hierarchy.forwarded`: the type parameters of a class that are passed to the primary
  base unchanged.
* `GenericSlots.SlotTable.Compresses`: how the slots under one policy are some of those under
  another.

## Main results

* `GenericSlots.SlotTable.Describes.slotOrigin_of_appended`: where nothing is shared, the slot of
  a type parameter has its origin there.
* `GenericSlots.Hierarchy.HasLayout.numSlots_add_forwarded`: sharing saves a slot for each type
  parameter that is passed on unchanged.
* `GenericSlots.SlotTable.shared_compresses_appended`: shared slots are some of the slots that are
  not shared, in order, and store all that those store.
-/

namespace GenericSlots

/-- The type parameters that are passed to the primary base unchanged, at whatever position. A class
without bases passes none on. -/
def ClassDef.forwarded (d : ClassDef) : List TypeParam :=
  match d.primaryBase? with
  | none => []
  | some base => d.params.filter fun p => Ty.var p.id ∈ base.args

/-- The type parameters of a class that are passed to the primary base unchanged, and none if the
class is not defined. -/
def Hierarchy.forwarded (h : Hierarchy) (c : ClassId) : List TypeParam :=
  (h.find? c).elim [] ClassDef.forwarded

/-- The slots of a class in one table, with their mapping, are some of those in another. The map `f`
takes each slot to the one of the other table that has the same origin. -/
structure SlotTable.Compresses (t t' : SlotTable) (h : Hierarchy) (c : ClassId)
    (mapping mapping' : List Ty) (f : Nat → Nat) : Prop where
  /-- The mapping has a value for each slot. -/
  numSlots_eq : t.numSlots h c = .ok mapping.length
  /-- The other mapping has a value for each slot of the other table. -/
  numSlots_eq' : t'.numSlots h c = .ok mapping'.length
  /-- Each slot has exactly one slot of the other table that has the same origin. -/
  slotOrigin : ∀ s < mapping.length, f s < mapping'.length ∧ ∃ origin,
    t.slotOrigin h c s = .ok origin ∧ ∀ u, t'.slotOrigin h c u = .ok origin ↔ u = f s
  /-- Slots are in the order of those of the other table. -/
  strictMono : ∀ s s', s < s' → s' < mapping.length → f s < f s'
  /-- Slots with the same origin store the same. -/
  getElem?_eq : ∀ s < mapping.length, mapping[s]? = mapping'[f s]?
  /-- All that is stored is stored in the other table, in the same order. -/
  sublist : mapping.Sublist mapping'
  /-- What the other table stores for a type parameter is in the slot of the type parameter. -/
  restored : ∀ u < mapping'.length, ∃ o k s, t'.slotOrigin h c u = .ok (o, k) ∧
    t.paramSlot h o k = .ok s ∧ s < mapping.length ∧ mapping'[u]? = mapping[s]?

/-- A list is part of another if its elements are found there in the same order. -/
private lemma sublist_of_strictMono {α : Type} {xs ys : List α} {f : Nat → Nat}
    (hlt : ∀ n < xs.length, f n < ys.length)
    (hmono : ∀ m n, m < n → n < xs.length → f m < f n)
    (hget : ∀ n < xs.length, xs[n]? = ys[f n]?) : xs.Sublist ys := by
  rw [List.sublist_iff_exists_fin_orderEmbedding_get_eq]
  refine ⟨.ofStrictMono (fun n => ⟨f n, hlt n n.isLt⟩) fun m n hmn => hmono m n hmn n.isLt, ?_⟩
  intro n
  have hn := hget n n.isLt
  rw [List.getElem?_eq_getElem n.isLt, List.getElem?_eq_getElem (hlt n n.isLt)] at hn
  exact Option.some.inj hn

namespace Hierarchy

variable {h : Hierarchy} {policy policy' : SlotPolicy} {c : ClassId} {l l' : Layout}

/-! ## Layouts under two policies -/

/-- A class has the same chain under all policies, because the policy only decides which slots are
shared. -/
lemma HasLayout.chain_congr (hl : h.HasLayout policy c l) (hl' : h.HasLayout policy' c l') :
    l.chain = l'.chain := by
  induction hl generalizing l' with
  | root hd hb => rw [hl'.eq_root hd.find hb]
  | extend hd hb _ _ _ _ ih =>
    obtain ⟨-, lb', -, -, hlb', -, rfl⟩ := hl'.eq_extend hd.find hb
    rw [Layout.chain_extend, Layout.chain_extend, ih hlb']

/-- Where nothing is shared, type parameters have no slots of the primary base, since all of them
open slots. -/
lemma HasLayout.inheritedSlots_le_of_appended (hl : h.HasLayout policy c l)
    (hp : policy = .appended) {s : Nat} (hs : s ∈ l.paramSlots) : l.inheritedSlots ≤ s := by
  subst hp
  cases hl with
  | root _ _ => exact Nat.zero_le s
  | extend _ _ _ _ hbl _ =>
    rw [Layout.inheritedSlots_extend _ _ _ _ hbl.size_stages_pos]
    rcases Layout.mem_placeParams _ hs with ⟨v, -, hv⟩ | ⟨hle, -⟩
    · cases hv
    · exact hle

/-- Each type parameter either opens a slot or is passed to the primary base unchanged. So the two
numbers add up to the arity.

**Proof sketch.** A type parameter opens a slot exactly if it is not among the arguments of the
base. Those that are and those that are not are counted together. -/
private lemma opened_add_forwarded {d : ClassDef} {base : Instance} {slots : List Nat}
    (hb : d.primaryBase? = some base) (hlen : base.args.length = slots.length) :
    Layout.opened (SlotPolicy.shared.reusedSlot? base.args slots) (d.params.map TypeParam.id) +
      d.forwarded.length = d.arity := by
  have hopens : ∀ v, (SlotPolicy.shared.reusedSlot? base.args slots v).isNone = true ↔
      Ty.var v ∉ base.args := by
    intro v
    rw [SlotPolicy.isNone_reusedSlot? _ hlen, SlotPolicy.forwardedAt?, Option.isNone_iff_eq_none,
      List.findIdx?_eq_none_iff]
    constructor
    · intro hall hmem
      exact absurd (hall _ hmem) (by simp)
    · intro hnot a ha
      exact decide_eq_false fun heq => hnot (heq ▸ ha)
  have hcount : Layout.opened (SlotPolicy.shared.reusedSlot? base.args slots)
      (d.params.map TypeParam.id) =
        d.params.countP fun p => ¬decide (Ty.var p.id ∈ base.args) = true := by
    rw [Layout.opened, List.countP_map]
    refine List.countP_congr fun p _ => ?_
    rw [Function.comp_apply, hopens, decide_eq_true_iff, decide_eq_true_iff]
  have hforwarded : d.forwarded.length = d.params.countP fun p => Ty.var p.id ∈ base.args := by
    rw [ClassDef.forwarded, hb, List.countP_eq_length_filter]
  rw [hcount, hforwarded, Nat.add_comm, ClassDef.arity]
  exact (List.length_eq_countP_add_countP _).symm

/-- Sharing saves a slot for each type parameter of the chain that is passed on unchanged.

**Proof sketch.** Induction along the chain. A type parameter opens a slot unless it shares one, and
it shares one exactly if it is passed to the primary base unchanged. Where nothing is shared, every
type parameter opens a slot. -/
theorem HasLayout.numSlots_add_forwarded (hl : h.HasLayout .shared c l)
    (hl' : h.HasLayout .appended c l') :
    l.numSlots + (l.chain.flatMap h.forwarded).length = l'.numSlots := by
  induction hl generalizing l' with
  | @root c d hd hb =>
    rw [hl'.eq_root hd.find hb]
    simp [forwarded, hd.find, ClassDef.forwarded, hb]
  | @extend c d b base lb hd hb hfind harity hbl hlisted ih =>
    obtain ⟨-, lb', -, -, hlb', -, rfl⟩ := hl'.eq_extend hd.find hb
    have hforwarded : h.forwarded c = d.forwarded := by rw [forwarded, hd.find]; rfl
    have hopened := opened_add_forwarded hb (hbl.length_args hfind harity)
    have hall : Layout.opened (SlotPolicy.appended.reusedSlot? base.args lb'.paramSlots)
        (d.params.map TypeParam.id) = d.arity := by
      rw [Layout.opened, ClassDef.arity]
      simp [SlotPolicy.reusedSlot?]
    rw [Layout.numSlots_extend, Layout.numSlots_extend, Layout.chain_extend, List.flatMap_append,
      List.flatMap_singleton, List.length_append, hforwarded, hall, ← ih hlb']
    omega

end Hierarchy

namespace SlotTable

variable {t t' : SlotTable} {h : Hierarchy} {c : ClassId} {d : ClassDef} {l l' : Layout}

/-! ## Slots of the same origin -/

/-- Where nothing is shared, the slot of each type parameter of a class of the chain has its origin
in the type parameter. So slots and type parameters of the chain are in one-to-one
correspondence. -/
theorem Describes.slotOrigin_of_appended (ht : t.Describes h) (hp : t.policy = .appended)
    (hl : h.HasLayout t.policy c l) {o : ClassId} {lo : Layout} (ho : o ∈ l.chain)
    (hlo : h.HasLayout t.policy o lo) {k s : Nat} (hk : lo.paramSlots[k]? = some s) :
    t.slotOrigin h c s = .ok (o, k) := by
  have hs := List.mem_of_getElem? hk
  rw [ht.slotOrigin_of_mem_chain hl ho hlo (hlo.lt_numSlots hs)]
  exact ht.slotOrigin_of_own hlo (hlo.inheritedSlots_le_of_appended hp hs) hk

/-- Every slot has the origin of one that is not shared.

**Proof sketch.** The origin of the slot is a type parameter of a class of the chain. Under the
other policy this class is on the chain too, and the type parameter has a slot there, of which it is
the origin. -/
lemma Describes.exists_same_origin (ht : t.Describes h) (ht' : t'.Describes h)
    (hp' : t'.policy = .appended) (hl : h.HasLayout t.policy c l)
    (hl' : h.HasLayout t'.policy c l') {s : Nat} (hs : s < l.numSlots) :
    ∃ u origin, t.slotOrigin h c s = .ok origin ∧ t'.slotOrigin h c u = .ok origin := by
  obtain ⟨o, lo, k, horigin, ho, hlo, hk⟩ := ht.exists_slotOrigin hl hs
  rw [hl.chain_congr hl'] at ho
  obtain ⟨lo', hlo', -⟩ := hl'.of_mem_chain ho
  obtain ⟨e, he⟩ := hlo.checked
  have hlt : k < e.arity := by
    rw [← hlo.length_paramSlots he.find]
    exact (List.getElem?_eq_some_iff.1 hk).1
  obtain ⟨u, hu, -⟩ := hlo'.exists_slot he.find hlt
  exact ⟨u, (o, k), horigin, ht'.slotOrigin_of_appended hp' hl' ho hlo' hu⟩

/-- Slots of two origins are in the same order in both tables.

**Proof sketch.** Slots are numbered in the order of their origins along the chain, which is the
same for both. If the other table had them in reverse, each origin would come before the other. -/
lemma Describes.lt_of_same_origin (ht : t.Describes h) (ht' : t'.Describes h)
    (hl : h.HasLayout t.policy c l) (hl' : h.HasLayout t'.policy c l') {s s' u u' : Nat}
    {p q : ClassId × Nat} (hs : t.slotOrigin h c s = .ok p) (hs' : t.slotOrigin h c s' = .ok q)
    (hu : t'.slotOrigin h c u = .ok p) (hu' : t'.slotOrigin h c u' = .ok q) (hlt : s < s') :
    u < u' := by
  have hpq := ht.precedes_of_lt hl hlt hs hs'
  rcases Nat.lt_trichotomy u u' with huu | rfl | huu
  · exact huu
  · obtain rfl : p = q := Except.ok.inj (hu.symm.trans hu')
    exact absurd (ht.slotOrigin_inj hl hs hs') (Nat.ne_of_lt hlt)
  · have hqp := ht'.precedes_of_lt hl' huu hu' hu
    rw [← hl.chain_congr hl'] at hqp
    exact absurd hqp (hpq.asymm hl.nodup_chain)

/-! ## Compression -/

/-- Each type parameter of a class of the chain has a slot, and the mapping stores in it the
argument of the projection onto that class. The slot may be one that the type parameter shares.

**Proof sketch.** The class of the chain has a layout, so its type parameter has a slot, and the
class below has this slot too. What the class of the chain sees there is the argument of the
projection onto the origin of the slot, and that is what the mapping stores. -/
lemma Describes.exists_paramSlot (ht : t.Describes h) (hl : h.HasLayout t.policy c l)
    (hd : h.find? c = some d) {mapping : List Ty} (hmapping : (t.compile h c).result = .ok mapping)
    {o : ClassId} {n k : Nat} {value : Ty} (hn : l.chain.reverse[n]? = some o)
    (hk : (h.primarySupertype^[n] ⟨c, d.selfArgs⟩).args[k]? = some value) :
    ∃ s, t.paramSlot h o k = .ok s ∧ s < l.numSlots ∧ mapping[s]? = some value := by
  obtain ⟨lo, hlo, -, hle⟩ := hl.of_mem_chain (List.mem_reverse.1 (List.mem_of_getElem? hn))
  obtain ⟨e, he⟩ := hlo.checked
  have hklt : k < e.arity := by
    rw [← Hierarchy.length_args_of_chain hl hd hn he.find]
    exact (List.getElem?_eq_some_iff.1 hk).1
  obtain ⟨s, hslot, hlt⟩ := hlo.exists_slot he.find hklt
  have hs := Nat.lt_of_lt_of_le hlt hle
  obtain ⟨a, j, m, horigin, hm, hj⟩ := ht.argument_of_mem_chain hl rfl hn hlo hslot hk
  obtain ⟨mapping', hmapping', -, hstored⟩ := ht.exists_compile hl hd
  obtain rfl : mapping = mapping' := Except.ok.inj (hmapping.symm.trans hmapping')
  exact ⟨s, ht.paramSlot_eq hlo hslot, hs, hstored hs horigin hm hj⟩

/-- The slots of a class are some of those it has where nothing is shared, and store the same.

**Proof sketch.** A slot stores the argument of the projection onto its origin, which the policy has
no part in. So slots of the same origin store the same, and so does the slot that a type parameter
shares, whatever its origin. Slots come in the order of their origins, which is the same for both
policies. -/
lemma Describes.exists_compresses (ht : t.Describes h) (ht' : t'.Describes h)
    (hp' : t'.policy = .appended) (hl : h.HasLayout t.policy c l)
    (hl' : h.HasLayout t'.policy c l') (hd : h.find? c = some d) :
    ∃ mapping mapping' f, (t.compile h c).result = .ok mapping ∧
      (t'.compile h c).result = .ok mapping' ∧ mapping.length = l.numSlots ∧
      mapping'.length = l'.numSlots ∧ t.Compresses t' h c mapping mapping' f := by
  obtain ⟨mapping, hmapping, hlen, hstored⟩ := ht.exists_compile hl hd
  obtain ⟨mapping', hmapping', hlen', hstored'⟩ := ht'.exists_compile hl' hd
  have hsame : ∀ s, ∃ u, s < mapping.length → ∃ origin,
      t.slotOrigin h c s = .ok origin ∧ t'.slotOrigin h c u = .ok origin := by
    intro s
    by_cases hs : s < l.numSlots
    · obtain ⟨u, hu⟩ := ht.exists_same_origin ht' hp' hl hl' hs
      exact ⟨u, fun _ => hu⟩
    · exact ⟨0, fun hlt => absurd (hlen ▸ hlt) hs⟩
  choose f hf using hsame
  have hlt : ∀ s < mapping.length, f s < mapping'.length := by
    intro s hs
    obtain ⟨origin, -, hu⟩ := hf s hs
    rw [hlen']
    exact (ht'.slotOrigin_eq_ok hl' hu).1
  have hmono : ∀ s s', s < s' → s' < mapping.length → f s < f s' := by
    intro s s' hlt hs'
    obtain ⟨p, hp, hu⟩ := hf s (Nat.lt_trans hlt hs')
    obtain ⟨q, hq, hu'⟩ := hf s' hs'
    exact ht.lt_of_same_origin ht' hl hl' hp hq hu hu' hlt
  have hget : ∀ s < mapping.length, mapping[s]? = mapping'[f s]? := by
    intro s hs
    obtain ⟨o, k, n, value, horigin, hn, hk⟩ := ht.exists_argument hl hd (hlen ▸ hs)
    obtain ⟨origin, horigin', hu⟩ := hf s hs
    obtain rfl : (o, k) = origin := Except.ok.inj (horigin.symm.trans horigin')
    rw [hstored (hlen ▸ hs) horigin hn hk,
      hstored' (hlen' ▸ hlt s hs) hu (hl.chain_congr hl' ▸ hn) hk]
  refine ⟨mapping, mapping', f, hmapping, hmapping', hlen, hlen', ?_⟩
  exact
    { numSlots_eq := by rw [ht.numSlots_eq hl, hlen]
      numSlots_eq' := by rw [ht'.numSlots_eq hl', hlen']
      slotOrigin := fun s hs => by
        obtain ⟨origin, horigin, hu⟩ := hf s hs
        refine ⟨hlt s hs, origin, horigin, fun u => ⟨fun hu' => ?_, ?_⟩⟩
        · exact ht'.slotOrigin_inj hl' hu' hu
        · rintro rfl
          exact hu
      strictMono := hmono
      getElem?_eq := hget
      sublist := sublist_of_strictMono hlt hmono hget
      restored := fun u hu => by
        obtain ⟨o, k, n, value, horigin, hn, hk⟩ := ht'.exists_argument hl' hd (hlen' ▸ hu)
        obtain ⟨s, hslot, hs, hvalue⟩ :=
          ht.exists_paramSlot hl hd hmapping (hl.chain_congr hl' ▸ hn) hk
        refine ⟨o, k, s, horigin, hslot, hlen ▸ hs, ?_⟩
        rw [hvalue, hstored' (hlen' ▸ hu) horigin hn hk] }

/-- A hierarchy that has a table under one policy has one under each. The slots that a class has
where they are shared are some of those that it has where they are not, in order, and store all that
those store. The others are as many as type parameters of the chain are passed on unchanged.

**Proof sketch.** Acceptance does not depend on the policy, so both tables exist, and both describe
the hierarchy. `Describes.exists_compresses` compares their mappings, and
`HasLayout.numSlots_add_forwarded` counts the slots. -/
theorem shared_compresses_appended {policy : SlotPolicy} (hs : h.size < ClassId.limit)
    (ht : (build h policy).result = .ok t) (hc : h.IsDefined c) :
    ∃ shared appended chain mapping mapping' f,
      (build h .shared).result = .ok shared ∧ (build h .appended).result = .ok appended ∧
      shared.chain h c = .ok chain ∧ appended.chain h c = .ok chain ∧
      ((shared.compile h c).observe h .off).result = .ok mapping ∧
      ((appended.compile h c).observe h .off).result = .ok mapping' ∧
      shared.Compresses appended h c mapping mapping' f ∧
      mapping.length + (chain.flatMap h.forwarded).length = mapping'.length := by
  obtain ⟨shared, hshared⟩ := exists_build_of_build ht .shared
  obtain ⟨appended, happended⟩ := exists_build_of_build ht .appended
  obtain ⟨hp, hdescribes⟩ := describes_of_build hs hshared
  obtain ⟨hp', hdescribes'⟩ := describes_of_build hs happended
  obtain ⟨l, hl⟩ := hdescribes.exists_hasLayout hc
  obtain ⟨l', hl'⟩ := hdescribes'.exists_hasLayout hc
  obtain ⟨d, hd⟩ := Hierarchy.isDefined_iff.1 hc
  obtain ⟨mapping, mapping', f, hmapping, hmapping', hlen, hlen', hcompresses⟩ :=
    hdescribes.exists_compresses hdescribes' hp' hl hl' hd
  refine ⟨shared, appended, l.chain, mapping, mapping', f, hshared, happended,
    hdescribes.chain_eq hl, ?_, ?_, ?_, hcompresses, ?_⟩
  · rw [hdescribes'.chain_eq hl', hl.chain_congr hl']
  · rw [Run.result_observe_off, hmapping]
  · rw [Run.result_observe_off, hmapping']
  · rw [hlen, hlen']
    exact (hp ▸ hl).numSlots_add_forwarded (hp' ▸ hl')

/-- Four type parameters of the chain of the class at the bottom are passed on unchanged, so sharing
saves four slots. -/
theorem shared_compresses_appended_leaf :
    ∃ shared appended chain mapping mapping' f,
      (build Twisted.hierarchy .shared).result = .ok shared ∧
      (build Twisted.hierarchy .appended).result = .ok appended ∧
      shared.chain Twisted.hierarchy ⟨4⟩ = .ok chain ∧
      appended.chain Twisted.hierarchy ⟨4⟩ = .ok chain ∧
      ((shared.compile Twisted.hierarchy ⟨4⟩).observe Twisted.hierarchy .off).result =
        .ok mapping ∧
      ((appended.compile Twisted.hierarchy ⟨4⟩).observe Twisted.hierarchy .off).result =
        .ok mapping' ∧
      shared.Compresses appended Twisted.hierarchy ⟨4⟩ mapping mapping' f ∧
      mapping.length + (chain.flatMap Twisted.hierarchy.forwarded).length = mapping'.length :=
  shared_compresses_appended (by decide) Twisted.build_hierarchy (by decide)

end SlotTable

end GenericSlots
