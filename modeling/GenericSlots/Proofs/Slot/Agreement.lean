import GenericSlots.Proofs.Slot.Elsewhere
import GenericSlots.Proofs.Slot.Mapping
set_option autoImplicit false

/-!
# Classes that a change does not reach

What is computed for a class reads the classes of its primary chain and no others. So where two
hierarchies have the same classes along a chain, the class at its end has the same layout in both,
and tables that hold the layout give the same answers about it, the same errors included.

## Main definitions

* `GenericSlots.SlotTable.AgreeOn`: hierarchies and tables that agree on some classes, together with
  the primary chains of these.

## Main results

* `GenericSlots.Hierarchy.HasLayout.of_find?_eq`: a layout is that of every hierarchy with the same
  classes along the chain.
* `GenericSlots.SlotTable.Describes.agreeOn`: tables agree where their hierarchies do.
* `GenericSlots.SlotTable.AgreeOn.ask_eq`, `GenericSlots.SlotTable.AgreeOn.compile_eq`: answers and
  mappings are the same.
-/

namespace GenericSlots

namespace Hierarchy

variable {h h' : Hierarchy} {policy : SlotPolicy} {c : ClassId} {d : ClassDef} {l : Layout}

/-! ## Layouts -/

/-- The checks of a class look at its definition only, so they pass in every hierarchy that has the
same definition. -/
lemma Checked.of_find?_eq (hd : h.Checked c d) (heq : h'.find? c = h.find? c) :
    h'.Checked c d where
  find := heq.trans hd.find
  positive := hd.positive
  nodup := hd.nodup
  head := hd.head

/-- A layout is that of every hierarchy with the same classes along the chain. Other classes may be
defined, changed or missing.

**Proof sketch.** By induction on the layout. The class itself and its primary base are on the
chain, so their definitions are the same, and the layout of the base is the same by the induction
hypothesis. -/
theorem HasLayout.of_find?_eq (hl : h.HasLayout policy c l)
    (heq : ∀ o ∈ l.chain, h'.find? o = h.find? o) : h'.HasLayout policy c l := by
  induction hl with
  | root hd hb => exact .root (hd.of_find?_eq (heq _ (by simp))) hb
  | extend hd hb hfind harity hbl hlisted ih =>
    rw [Layout.chain_extend] at heq
    have hbase : ∀ o ∈ _, h'.find? o = h.find? o := fun o ho => heq o (List.mem_append_left _ ho)
    exact .extend (hd.of_find?_eq (heq _ (by simp))) hb
      ((hbase _ hbl.mem_chain_self).trans hfind) harity (ih hbase) hlisted

/-! ## Projections -/

/-- A projection onto a declared base is onto the class asked for, whether the base is declared or
the instance is made up.

**Proof sketch.** A base that is found is one of the class, by the condition of the search, and
expanding it keeps its class. A made-up instance is of this class by definition. -/
lemma cls_of_directSupertype {i j : Instance} (hj : h.directSupertype i c = .ok j) :
    j.cls = c := by
  obtain ⟨d, -, hj⟩ := bind_eq_ok_iff.1 hj
  cases hb : d.baseOf? c with
  | some b =>
    simp only [hb] at hj
    obtain rfl := Except.ok.inj hj
    have hfind : d.bases.find? (fun b => b.cls = c) = some b := hb
    have hcls := List.find?_some hfind
    exact of_decide_eq_true hcls
  | none =>
    simp only [hb] at hj
    obtain ⟨e, -, hj⟩ := bind_eq_ok_iff.1 hj
    obtain rfl := Except.ok.inj hj
    rfl

variable {S : ClassId → Prop}

/-- A projection onto a declared base reads both classes only. -/
lemma directSupertype_congr (heq : ∀ a, S a → h'.find? a = h.find? a) {i : Instance}
    (hi : S i.cls) (hc : S c) : h'.directSupertype i c = h.directSupertype i c := by
  simp only [directSupertype, filled, get, heq _ hi, heq _ hc]

/-- Following a chain reads the classes on the way only.

**Proof sketch.** By induction on the chain, with the instance kept general. The next class is the
one of the instance, and nothing is read, or a step is taken to it, which reads both. What it gives
is an instance of the next class, and the others follow from there. -/
lemma followChain_congr (heq : ∀ a, S a → h'.find? a = h.find? a) {i : Instance}
    {cs : List ClassId} (hi : S i.cls) (hcs : ∀ a ∈ cs, S a) :
    h'.followChain i cs = h.followChain i cs := by
  induction cs generalizing i with
  | nil => rfl
  | cons a cs ih =>
    have ha := hcs a List.mem_cons_self
    have hrest : ∀ j : Instance, j.cls = a → h'.followChain j cs = h.followChain j cs :=
      fun j hj => ih (hj ▸ ha) fun b hb => hcs b (List.mem_cons_of_mem _ hb)
    rw [followChain, followChain]
    by_cases hself : a = i.cls
    · simp only [if_pos hself, pure_bind, hrest i hself.symm]
    · simp only [if_neg hself, directSupertype_congr heq hi ha]
      cases hj : h.directSupertype i a with
      | error f => rfl
      | ok j => simp only [ok_bind, hrest j (cls_of_directSupertype hj)]

end Hierarchy

namespace SlotTable

/-- Two hierarchies with their tables agree on some classes, among which are the classes of their
primary chains. Everything that a query or a mapping reads is then the same. -/
structure AgreeOn (S : ClassId → Prop) (t : SlotTable) (h : Hierarchy) (t' : SlotTable)
    (h' : Hierarchy) : Prop where
  /-- The classes are the same. -/
  find?_eq : ∀ c, S c → h'.find? c = h.find? c
  /-- The layouts are the same. -/
  layout_eq : ∀ c, S c → t'.layout h' c = t.layout h c
  /-- The classes of primary chains are among those agreed on. -/
  closed : ∀ c l, S c → t.layout h c = .ok l → ∀ o ∈ l.chain, S o

/-- Tables that hold all layouts of their hierarchies agree where the hierarchies do, if they follow
the same policy.

**Proof sketch.** A class that is defined has a layout, which is also one in the other hierarchy,
because the classes along its chain are the same. A class that is not defined is refused by both
tables. -/
theorem Describes.agreeOn {S : ClassId → Prop} {t t' : SlotTable} {h h' : Hierarchy}
    (ht : t.Describes h) (ht' : t'.Describes h') (hpolicy : t'.policy = t.policy)
    (hfind : ∀ c, S c → h'.find? c = h.find? c)
    (hclosed : ∀ c l, S c → h.HasLayout t.policy c l → ∀ o ∈ l.chain, S o) :
    AgreeOn S t h t' h' := by
  have hheld : ∀ c l, t.layout h c = .ok l → h.HasLayout t.policy c l := by
    intro c l hl
    obtain ⟨l', hl'⟩ := ht.exists_hasLayout (isDefined_of_layout hl)
    obtain rfl := Except.ok.inj ((ht.layout_eq hl').symm.trans hl)
    exact hl'
  refine ⟨hfind, fun c hc => ?_, fun c l hc hl => hclosed c l hc (hheld c l hl)⟩
  by_cases hdef : h.IsDefined c
  · obtain ⟨l, hl⟩ := ht.exists_hasLayout hdef
    have hl' := hl.of_find?_eq fun o ho => hfind o (hclosed c l hc hl o ho)
    rw [ht.layout_eq hl, ht'.layout_eq (hpolicy ▸ hl')]
  · have hdef' : ¬h'.IsDefined c := by
      rwa [Hierarchy.isDefined_iff, hfind c hc, ← Hierarchy.isDefined_iff]
    rw [layout_eq_refuse fun hc => hdef hc.1, layout_eq_refuse fun hc => hdef' hc.1]

namespace AgreeOn

variable {S : ClassId → Prop} {t t' : SlotTable} {h h' : Hierarchy} {c : ClassId}
  (hagree : AgreeOn S t h t' h')

include hagree

/-- A class that is agreed on has the same name, so errors name it alike. -/
lemma nameOf_eq (hc : S c) : h'.nameOf c = h.nameOf c := by
  rw [Hierarchy.nameOf, Hierarchy.nameOf, Hierarchy.get, Hierarchy.get, hagree.find?_eq c hc]

/-- A class that is agreed on has the same number of slots, or is refused alike. -/
lemma numSlots_eq (hc : S c) : t'.numSlots h' c = t.numSlots h c := by
  rw [numSlots, numSlots, hagree.layout_eq c hc]

/-- A class that is agreed on has the same chain, or is refused alike. -/
lemma chain_eq (hc : S c) : t'.chain h' c = t.chain h c := by
  rw [chain, chain, hagree.layout_eq c hc]

/-- The origin of a slot is looked up in the layouts of the class and of the origin. The latter is
on the chain, so both are agreed on.

**Proof sketch.** If the class has a layout, both tables have the same one, and they find the same
class for the slot. This class is on the chain, so its layout is the same too. Errors mention names
that are the same. -/
lemma slotOrigin_eq (hc : S c) (slot : Nat) :
    t'.slotOrigin h' c slot = t.slotOrigin h c slot := by
  rw [slotOrigin, slotOrigin, hagree.layout_eq c hc]
  cases hl : t.layout h c with
  | error e => rfl
  | ok l =>
    rw [ok_bind, ok_bind]
    by_cases hs : slot < l.numSlots
    · have ho : S (l.originStage slot hs).cls :=
        hagree.closed c l hc hl _ (List.mem_of_getElem? (Layout.getElem?_chain_originIndex hs))
      simp only [dif_pos hs, hagree.layout_eq _ ho, hagree.nameOf_eq ho]
    · simp only [dif_neg hs, hagree.nameOf_eq hc]

/-- The origin of a slot is a class of the chain, so it is agreed on. -/
lemma closed_slotOrigin (hc : S c) {slot k : Nat} {o : ClassId}
    (horigin : t.slotOrigin h c slot = .ok (o, k)) : S o := by
  obtain ⟨l, -, hl, ⟨hs, rfl⟩, -⟩ := slotOrigin_eq_ok_iff.1 horigin
  exact hagree.closed c l hc hl _ (List.mem_of_getElem? (Layout.getElem?_chain_originIndex hs))

/-- Questions about a class that is agreed on have the same outcome. Where the answer is refused,
the errors are the same.

**Proof sketch.** By the kinds of questions. Each is answered from the layout of the class and, in
errors, its name. The origin of a slot is settled by `slotOrigin_eq`. -/
theorem ask_eq (q : Query) (hq : S q.cls) : q.ask t' h' = q.ask t h := by
  cases q with
  | numSlots c | ownSlots c | chain c =>
    have hlayout : t'.layout h' c = t.layout h c := hagree.layout_eq c hq
    simp only [Query.ask, numSlots, ownSlots, chain, hlayout]
  | paramSlot c index =>
    have hlayout : t'.layout h' c = t.layout h c := hagree.layout_eq c hq
    have hname : h'.nameOf c = h.nameOf c := hagree.nameOf_eq hq
    simp only [Query.ask, paramSlot, hlayout, hname]
  | slotOrigin c slot =>
    have horigin : t'.slotOrigin h' c slot = t.slotOrigin h c slot := hagree.slotOrigin_eq hq slot
    rw [Query.ask, Query.ask, horigin]

/-- The value of a slot is looked up in given projections, at an origin that is agreed on. -/
lemma slotValue_eq (hc : S c) (projections : List Instance) (slot : Nat) :
    t'.slotValue h' c projections slot = t.slotValue h c projections slot := by
  rw [slotValue, slotValue, hagree.slotOrigin_eq hc]
  cases horigin : t.slotOrigin h c slot with
  | error e => rfl
  | ok origin =>
    have ho : S origin.1 := hagree.closed_slotOrigin hc horigin
    simp only [ok_bind, hagree.nameOf_eq hc, hagree.nameOf_eq ho]

/-- Compiling the mapping of a class that is agreed on reports the same and has the same result.

**Proof sketch.** If the class has no layout, it is refused in both. Otherwise the number of slots,
the class with its type parameters and the chain are the same. The chain is agreed on, so following
it gives the same projections, and slots have the same values. -/
theorem compile_eq (hc : S c) : t'.compile h' c = t.compile h c := by
  cases hl : t.layout h c with
  | error e =>
    have hl' : t'.layout h' c = .error e := (hagree.layout_eq c hc).trans hl
    rw [compile_of_layout_eq_error hl, compile_of_layout_eq_error hl']
  | ok l =>
    have hself : h'.selfType c = h.selfType c := by
      rw [Hierarchy.selfType, Hierarchy.selfType, Hierarchy.get, Hierarchy.get,
        hagree.find?_eq c hc]
    have hchain : t.chain h c = .ok l.chain := by
      rw [chain, hl]
      rfl
    have hclosed : ∀ a ∈ l.chain.reverse, S a := fun a ha =>
      hagree.closed c l hc hl a (List.mem_reverse.1 ha)
    rw [compile, compile, hagree.numSlots_eq hc, hself, hagree.chain_eq hc, hchain]
    cases hi : h.selfType c with
    | error f => rfl
    | ok i =>
      obtain ⟨d, -, hi⟩ := bind_eq_ok_iff.1 hi
      obtain rfl := Except.ok.inj hi
      have hfollow : h'.followChain ⟨c, d.selfArgs⟩ l.chain.reverse =
          h.followChain ⟨c, d.selfArgs⟩ l.chain.reverse :=
        Hierarchy.followChain_congr hagree.find?_eq hc hclosed
      simp only [Run.liftM_ok_bind, Run.liftM_fault_ok_bind, hfollow, hagree.slotValue_eq hc]

end AgreeOn

end SlotTable

end GenericSlots
