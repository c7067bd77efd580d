import GenericSlots.Proofs.Slot.Construction
set_option autoImplicit false

/-!
# Origins along the chain

The slots of a class are numbered in the order of their origins: those of the primary base come
first, and slots opened by the same class follow the order of its type parameters. Classes below
only append slots, so a slot keeps its number and its origin.

## Main definitions

* `GenericSlots.Precedes`: the order of type parameters along a chain.

## Main results

* `GenericSlots.SlotTable.Describes.slotOrigin_eq_ok`: an origin is a type parameter of a class of
  the chain that has the slot.
* `GenericSlots.SlotTable.Describes.precedes_of_lt`: origins come in the order of slots.
* `GenericSlots.SlotTable.appends_of_mem_chain`: a class has the slots of all classes of its chain,
  with the same origins.
-/

namespace GenericSlots

/-! ## The order of opened slots -/

namespace Layout

variable (reused : VarId → Option Nat)

/-- More type parameters open more slots, or at least as many. -/
lemma opened_take_le (vs : List VarId) {k k' : Nat} (hk : k ≤ k') :
    opened reused (vs.take k) ≤ opened reused (vs.take k') :=
  (List.take_sublist_take_left hk).countP_le

/-- Type parameters that open slots open them in order, so the slots tell in which order the type
parameters are declared.

**Proof sketch.** An opened slot is as far from the next free one as there are slots opened before
it. If the later slot belonged to the earlier type parameter, no more slots would be opened before
it than before the other, and its number would not be larger. -/
lemma index_lt_of_placeParams {next s s' k k' : Nat} {vs : List VarId}
    (hreused : ∀ v u, reused v = some u → u < next) (hs : next ≤ s) (hlt : s < s')
    (hk : (placeParams reused next vs).1[k]? = some s)
    (hk' : (placeParams reused next vs).1[k']? = some s') : k < k' := by
  have hopened : ∀ {j u : Nat}, next ≤ u → (placeParams reused next vs).1[j]? = some u →
      u = next + opened reused (vs.take j) := by
    intro j u hu hj
    have hlen : j < vs.length := by
      rw [← length_placeParams reused next vs]
      exact (List.getElem?_eq_some_iff.1 hj).1
    rw [getElem?_placeParams reused (List.getElem?_eq_getElem hlen), Option.some_inj] at hj
    cases hv : reused vs[j] with
    | none => rw [← hj, hv, Option.getD_none]
    | some w =>
      rw [hv, Option.getD_some] at hj
      have := hreused _ _ hv
      omega
  refine Nat.lt_of_not_le fun hle => ?_
  have hmono := opened_take_le reused vs hle
  have hu := hopened hs hk
  have hu' := hopened (Nat.le_of_lt (Nat.lt_of_le_of_lt hs hlt)) hk'
  omega

end Layout

/-- The slots that a class opens are numbered in the order of its type parameters. Between them
there may be type parameters that share slots of the primary base.

**Proof sketch.** The slots of a class without bases are the positions of its type parameters. With
a primary base, slots that are shared lie below those that are opened, and the latter are opened in
order. -/
lemma Hierarchy.HasLayout.index_lt_of_own {h : Hierarchy} {policy : SlotPolicy} {c : ClassId}
    {l : Layout} (hl : h.HasLayout policy c l) {s s' k k' : Nat} (hs : l.inheritedSlots ≤ s)
    (hlt : s < s') (hk : l.paramSlots[k]? = some s) (hk' : l.paramSlots[k']? = some s') :
    k < k' := by
  cases hl with
  | root _ _ =>
    rw [Layout.paramSlots_root, List.getElem?_eq_some_iff] at hk hk'
    obtain ⟨_, hk⟩ := hk
    obtain ⟨_, hk'⟩ := hk'
    rw [List.getElem_range] at hk hk'
    omega
  | extend _ _ _ _ hbl _ =>
    rw [Layout.inheritedSlots_extend _ _ _ _ hbl.size_stages_pos] at hs
    refine Layout.index_lt_of_placeParams _ ?_ hs hlt hk hk'
    exact fun v u hv => hbl.lt_numSlots (SlotPolicy.mem_of_reusedSlot? hv)

/-! ## The order of origins -/

/-- One type parameter comes before another along a chain: its class is further up, or it is
declared before the other in the same class. -/
def Precedes (chain : List ClassId) (p q : ClassId × Nat) : Prop :=
  ∃ m n : Nat, chain[m]? = some p.1 ∧ chain[n]? = some q.1 ∧ (m < n ∨ m = n ∧ p.2 < q.2)

/-- Of two type parameters, not both come before the other. This needs a chain that passes no class
twice, so that each class has one position. -/
lemma Precedes.asymm {chain : List ClassId} (hchain : chain.Nodup) {p q : ClassId × Nat}
    (hpq : Precedes chain p q) : ¬Precedes chain q p := by
  rintro ⟨n', m', hn', hm', hqp⟩
  obtain ⟨m, n, hm, hn, hpq⟩ := hpq
  have hmm : m = m' :=
    (List.getElem?_inj (List.getElem?_eq_some_iff.1 hm).1 hchain).1 (hm.trans hm'.symm)
  have hnn : n = n' :=
    (List.getElem?_inj (List.getElem?_eq_some_iff.1 hn).1 hchain).1 (hn.trans hn'.symm)
  omega

/-- What comes before along a chain does so along every chain that continues it. -/
lemma Precedes.append {chain : List ClassId} {p q : ClassId × Nat} (hpq : Precedes chain p q)
    (rest : List ClassId) : Precedes (chain ++ rest) p q := by
  obtain ⟨m, n, hm, hn, hpq⟩ := hpq
  refine ⟨m, n, ?_, ?_, hpq⟩
  · rw [List.getElem?_append_left (List.getElem?_eq_some_iff.1 hm).1, hm]
  · rw [List.getElem?_append_left (List.getElem?_eq_some_iff.1 hn).1, hn]

namespace SlotTable

variable {t : SlotTable} {h : Hierarchy} {c : ClassId} {l : Layout}

/-- An origin is a type parameter of a class of the chain that has the slot. A slot that the class
lacks has no origin.

**Proof sketch.** A slot of the class has an origin of this kind, and the query has one answer only.
For any other slot the query is refused. -/
theorem Describes.slotOrigin_eq_ok (ht : t.Describes h) (hl : h.HasLayout t.policy c l) {s k : Nat}
    {o : ClassId} (hok : t.slotOrigin h c s = .ok (o, k)) :
    s < l.numSlots ∧ o ∈ l.chain ∧
      ∃ lo, h.HasLayout t.policy o lo ∧ lo.paramSlots[k]? = some s := by
  by_cases hs : s < l.numSlots
  · obtain ⟨o', lo, k', horigin, ho, hlo, hk⟩ := ht.exists_slotOrigin hl hs
    obtain ⟨rfl, rfl⟩ := Prod.mk.inj (Except.ok.inj (horigin.symm.trans hok))
    exact ⟨hs, ho, lo, hlo, hk⟩
  · obtain ⟨d, hd⟩ := hl.checked
    simp [slotOrigin, ht.layout_eq hl, ok_bind, hs, Hierarchy.nameOf,
      Hierarchy.get_eq_ok_iff.2 hd.find, refuse] at hok

/-- A class has only one slot of a given origin, because a type parameter has one slot. -/
lemma Describes.slotOrigin_inj (ht : t.Describes h) (hl : h.HasLayout t.policy c l) {s s' : Nat}
    {origin : ClassId × Nat} (hs : t.slotOrigin h c s = .ok origin)
    (hs' : t.slotOrigin h c s' = .ok origin) : s = s' := by
  obtain ⟨-, -, lo, hlo, hk⟩ := ht.slotOrigin_eq_ok hl hs
  obtain ⟨-, -, lo', hlo', hk'⟩ := ht.slotOrigin_eq_ok hl hs'
  rw [hlo'.unique hlo, hk] at hk'
  exact Option.some.inj hk'

/-- The class itself is the origin of a slot that it does not inherit, and the type parameter is the
one that has the slot. -/
lemma Describes.fst_origin_of_own (ht : t.Describes h) (hl : h.HasLayout t.policy c l) {s : Nat}
    {origin : ClassId × Nat} (hs : l.inheritedSlots ≤ s)
    (hok : t.slotOrigin h c s = .ok origin) :
    origin.1 = c ∧ l.paramSlots[origin.2]? = some s := by
  obtain ⟨hslot, -⟩ := ht.slotOrigin_eq_ok hl hok
  obtain ⟨k, hk⟩ := hl.exists_paramSlot hs hslot
  obtain rfl : (c, k) = origin := Except.ok.inj ((ht.slotOrigin_of_own hl hs hk).symm.trans hok)
  exact ⟨rfl, hk⟩

/-- Origins come in the order of slots.

**Proof sketch.** Induction along the chain. Two slots of the primary base have their origins there.
A slot that the base lacks has its origin in the class, which ends the chain, and two such slots are
opened in the order of type parameters. -/
theorem Describes.precedes_of_lt (ht : t.Describes h) (hl : h.HasLayout t.policy c l) {s s' : Nat}
    {p q : ClassId × Nat} (hlt : s < s') (hp : t.slotOrigin h c s = .ok p)
    (hq : t.slotOrigin h c s' = .ok q) : Precedes l.chain p q := by
  induction hl with
  | @root c d hd hb =>
    have hl : h.HasLayout t.policy c (.root c d.arity) := .root hd hb
    obtain ⟨hpc, hk⟩ := ht.fst_origin_of_own hl (Nat.zero_le s) hp
    obtain ⟨hqc, hk'⟩ := ht.fst_origin_of_own hl (Nat.zero_le s') hq
    exact ⟨0, 0, by simp [hpc], by simp [hqc],
      Or.inr ⟨rfl, hl.index_lt_of_own (Nat.zero_le s) hlt hk hk'⟩⟩
  | @extend c d b base lb hd hb hfind harity hbl hlisted ih =>
    have hl := Hierarchy.HasLayout.extend hd hb hfind harity hbl hlisted
    have hinherited := Layout.inheritedSlots_extend lb c (d.params.map TypeParam.id)
      (t.policy.reusedSlot? base.args lb.paramSlots) hbl.size_stages_pos
    have hlast : (lb.chain ++ [c])[lb.chain.length]? = some c := by simp
    rw [Layout.chain_extend]
    rcases Nat.lt_or_ge s' lb.numSlots with hs' | hs'
    · have hs := Nat.lt_trans hlt hs'
      rw [ht.slotOrigin_of_base hl hd.find hb hbl hs] at hp
      rw [ht.slotOrigin_of_base hl hd.find hb hbl hs'] at hq
      exact (ih hp hq).append [c]
    · obtain ⟨hqc, hk'⟩ := ht.fst_origin_of_own hl (hinherited ▸ hs') hq
      rcases Nat.lt_or_ge s lb.numSlots with hs | hs
      · rw [ht.slotOrigin_of_base hl hd.find hb hbl hs] at hp
        obtain ⟨-, hmem, -⟩ := ht.slotOrigin_eq_ok hbl hp
        obtain ⟨m, hm⟩ := List.mem_iff_getElem?.1 hmem
        have hmlt := (List.getElem?_eq_some_iff.1 hm).1
        exact ⟨m, lb.chain.length, by rw [List.getElem?_append_left hmlt, hm], hqc ▸ hlast,
          Or.inl hmlt⟩
      · obtain ⟨hpc, hk⟩ := ht.fst_origin_of_own hl (hinherited ▸ hs) hp
        exact ⟨lb.chain.length, lb.chain.length, hpc ▸ hlast, hqc ▸ hlast,
          Or.inr ⟨rfl, hl.index_lt_of_own (hinherited ▸ hs) hlt hk hk'⟩⟩

/-! ## Appending -/

/-- A class has the slots of each class of its chain. The chain of the latter is a prefix of the
chain, and its slots have the same origins in both classes. So a class only appends slots to those
of the classes above it.

**Proof sketch.** A class of the chain has a layout that the layout of the class continues, so its
chain is a prefix and its slots are slots of the class. Each of its slots has an origin, which is
the same for the class below. -/
theorem appends_of_mem_chain {policy : SlotPolicy} (hs : h.size < ClassId.limit)
    (ht : (build h policy).result = .ok t) (hc : h.IsDefined c) :
    ∃ chain slots, t.chain h c = .ok chain ∧ t.numSlots h c = .ok slots ∧
      ∀ o ∈ chain, ∃ chain' slots', t.chain h o = .ok chain' ∧ t.numSlots h o = .ok slots' ∧
        chain' <+: chain ∧ slots' ≤ slots ∧
        ∀ s < slots', ∃ origin, t.slotOrigin h o s = .ok origin ∧
          t.slotOrigin h c s = .ok origin := by
  obtain ⟨-, hdescribes⟩ := describes_of_build hs ht
  obtain ⟨l, hl⟩ := hdescribes.exists_hasLayout hc
  refine ⟨l.chain, l.numSlots, hdescribes.chain_eq hl, hdescribes.numSlots_eq hl, ?_⟩
  intro o ho
  obtain ⟨lo, hlo, hprefix, hle⟩ := hl.of_mem_chain ho
  refine ⟨lo.chain, lo.numSlots, hdescribes.chain_eq hlo, hdescribes.numSlots_eq hlo, hprefix, hle,
    ?_⟩
  intro s hs
  obtain ⟨a, -, k, horigin, -⟩ := hdescribes.exists_slotOrigin hlo hs
  refine ⟨(a, k), horigin, ?_⟩
  rw [hdescribes.slotOrigin_of_mem_chain hl ho hlo hs, horigin]

/-- The class at the bottom of the twisted hierarchy has the slots of all classes of its chain. It
opens no slot itself, and the class above it shares one and opens one. -/
theorem appends_of_mem_chain_leaf :
    ∃ chain slots, Twisted.table.chain Twisted.hierarchy ⟨4⟩ = .ok chain ∧
      Twisted.table.numSlots Twisted.hierarchy ⟨4⟩ = .ok slots ∧
      ∀ o ∈ chain, ∃ chain' slots', Twisted.table.chain Twisted.hierarchy o = .ok chain' ∧
        Twisted.table.numSlots Twisted.hierarchy o = .ok slots' ∧
        chain' <+: chain ∧ slots' ≤ slots ∧
        ∀ s < slots', ∃ origin, Twisted.table.slotOrigin Twisted.hierarchy o s = .ok origin ∧
          Twisted.table.slotOrigin Twisted.hierarchy ⟨4⟩ s = .ok origin :=
  appends_of_mem_chain (by decide) Twisted.build_hierarchy (by decide)

end SlotTable

end GenericSlots
