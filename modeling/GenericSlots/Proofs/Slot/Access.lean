import GenericSlots.Proofs.Slot.Mapping
set_option autoImplicit false

/-!
# Access through a class of the chain

Code that knows an object by one of the classes above the class of the object reads a type argument
from the slot that the known class gives to its type parameter. The slot may have been introduced
further up, by a class that knows the type argument under another type parameter. It still stores
what the known class sees. The values of an instance are those of its class, with the arguments of
the instance in place of type parameters.

## Main results

* `GenericSlots.SlotTable.Describes.argument_of_paramSlot`: the type argument seen by a class is the
  one seen where its slot was introduced.
* `GenericSlots.SlotTable.Describes.mem_mapping_iff`: the values of a mapping are the type arguments
  that the classes of the chain see.
* `GenericSlots.SlotTable.access_of_mem_chain`: reading a type parameter of a class of the chain.
* `GenericSlots.SlotTable.expand_compile_eq_projection`: the mapping of a class, expanded by the
  arguments of an instance, holds the arguments of the projections of the instance.
-/

namespace GenericSlots

namespace SlotTable

variable {t : SlotTable} {h : Hierarchy} {c : ClassId} {d : ClassDef} {l : Layout}

/-! ## Static access -/

/-- The type argument of an instance for a type parameter is the one that the projection onto the
origin of its slot has there.

**Proof sketch.** Induction along the chain. A slot of the primary base is the slot of a type
parameter of the base for which the type parameter of the class is passed unchanged. So the
projection onto the base has the same type argument there, and the base is closer to the origin. -/
theorem Describes.argument_of_paramSlot (ht : t.Describes h) (hl : h.HasLayout t.policy c l)
    {i : Instance} (hi : i.cls = c) {k s : Nat} {value : Ty} (hk : l.paramSlots[k]? = some s)
    (hvalue : i.args[k]? = some value) :
    ∃ o j n, t.slotOrigin h c s = .ok (o, j) ∧ l.chain.reverse[n]? = some o ∧
      (h.primarySupertype^[n] i).args[j]? = some value := by
  induction hl generalizing i k with
  | @root c d hd hb =>
    have hl : h.HasLayout t.policy c (.root c d.arity) := .root hd hb
    exact ⟨c, k, 0, ht.slotOrigin_of_own hl (Nat.zero_le s) hk, rfl, hvalue⟩
  | @extend c d b base lb hd hb hfind harity hbl hlisted ih =>
    have hl := Hierarchy.HasLayout.extend hd hb hfind harity hbl hlisted
    rcases Nat.lt_or_ge s lb.numSlots with hlt | hge
    · have hi' : h.find? i.cls = some d := hi ▸ hd.find
      have hkd : k < d.params.length := by
        rw [← ClassDef.arity, ← hl.length_paramSlots hd.find]
        exact (List.getElem?_eq_some_iff.1 hk).1
      have hp : d.params[k]? = some d.params[k] := List.getElem?_eq_getElem hkd
      obtain ⟨j, hj, hslot⟩ := hbl.exists_forwarded hfind harity hp hk hlt
      have hup : (h.primarySupertype i).args[j]? = some value := by
        rw [Hierarchy.primarySupertype_eq hi' hb]
        exact ClassDef.getElem?_args_expand hd.nodup hj hp hvalue
      obtain ⟨o, m, n, horigin, hn, hm⟩ :=
        ih (Hierarchy.cls_primarySupertype hi' hb) hslot hup
      refine ⟨o, m, n + 1, ?_, ?_, hm⟩
      · rw [ht.slotOrigin_of_base hl hd.find hb hbl hlt, horigin]
      · rw [Layout.reverse_chain_extend, List.getElem?_cons_succ, hn]
    · rw [← Layout.inheritedSlots_extend _ _ _ _ hbl.size_stages_pos] at hge
      exact ⟨c, k, 0, ht.slotOrigin_of_own hl hge hk, by simp, hvalue⟩

/-- The type argument that a class of the chain sees is the one that the projection onto the origin
of its slot has there, where the slot counts as one of the class below.

**Proof sketch.** The projection onto the class of the chain is an instance of it, so
`Describes.argument_of_paramSlot` applies there. The slot has the same origin in both classes, and
the steps up to the class and on to the origin add up. -/
lemma Describes.argument_of_mem_chain (ht : t.Describes h) (hl : h.HasLayout t.policy c l)
    {i : Instance} (hi : i.cls = c) {o : ClassId} {n : Nat} (hn : l.chain.reverse[n]? = some o)
    {lo : Layout} (hlo : h.HasLayout t.policy o lo) {k s : Nat} {value : Ty}
    (hk : lo.paramSlots[k]? = some s) (hvalue : (h.primarySupertype^[n] i).args[k]? = some value) :
    ∃ a j m, t.slotOrigin h c s = .ok (a, j) ∧ l.chain.reverse[m]? = some a ∧
      (h.primarySupertype^[m] i).args[j]? = some value := by
  have ho : o ∈ l.chain := List.mem_reverse.1 (List.mem_of_getElem? hn)
  have hlt : s < lo.numSlots := hlo.lt_numSlots (List.mem_of_getElem? hk)
  have hcls := Hierarchy.cls_iterate_primarySupertype hl hi hn
  obtain ⟨a, j, m, horigin, hm, hj⟩ := ht.argument_of_paramSlot hlo hcls hk hvalue
  -- the origin is as many primary bases away as it is from the class of the chain, and `n` more
  refine ⟨a, j, m + n, ?_, ?_, ?_⟩
  · rw [ht.slotOrigin_of_mem_chain hl ho hlo hlt, horigin]
  · rw [Nat.add_comm, hl.getElem?_reverse_chain_add hn hlo, hm]
  · rw [Function.iterate_add_apply, hj]

/-- A mapping consists of the arguments of the projections onto the chain, which are all stored in
some slot. Where a type parameter shares a slot, its argument is stored under another origin, but it
is stored.

**Proof sketch.** The value of a slot is an argument of the projection onto its origin. Conversely,
an argument of a projection belongs to a type parameter of a class of the chain. This type parameter
has a slot, and what the slot stores is what the class sees. -/
theorem Describes.mem_mapping_iff (ht : t.Describes h) (hl : h.HasLayout t.policy c l)
    (hd : h.find? c = some d) {mapping : List Ty} (hm : (t.compile h c).result = .ok mapping)
    {value : Ty} :
    value ∈ mapping ↔ ∃ (n : Nat) (o : ClassId), l.chain.reverse[n]? = some o ∧
      value ∈ (h.primarySupertype^[n] ⟨c, d.selfArgs⟩).args := by
  obtain ⟨mapping', hm', hlen, hstored⟩ := ht.exists_compile hl hd
  obtain rfl : mapping' = mapping := Except.ok.inj (hm'.symm.trans hm)
  constructor
  · intro hvalue
    obtain ⟨s, hs⟩ := List.mem_iff_getElem?.1 hvalue
    have hlt : s < l.numSlots := hlen ▸ (List.getElem?_eq_some_iff.1 hs).1
    obtain ⟨o, k, n, value', horigin, hn, hk⟩ := ht.exists_argument hl hd hlt
    have hvalue' := hstored hlt horigin hn hk
    obtain rfl : value = value' := Option.some.inj (hs.symm.trans hvalue')
    exact ⟨n, o, hn, List.mem_of_getElem? hk⟩
  · rintro ⟨n, o, hn, hvalue⟩
    obtain ⟨k, hk⟩ := List.mem_iff_getElem?.1 hvalue
    have ho : o ∈ l.chain := List.mem_reverse.1 (List.mem_of_getElem? hn)
    obtain ⟨lo, hlo, -, hle⟩ := hl.of_mem_chain ho
    obtain ⟨e, he⟩ := hlo.checked
    have hlt : k < e.arity := by
      rw [← Hierarchy.length_args_of_chain hl hd hn he.find]
      exact (List.getElem?_eq_some_iff.1 hk).1
    obtain ⟨s, hslot, hs⟩ := hlo.exists_slot he.find hlt
    obtain ⟨a, j, m, horigin, hm, hj⟩ := ht.argument_of_mem_chain hl rfl hn hlo hslot hk
    exact List.mem_of_getElem? (hstored (Nat.lt_of_lt_of_le hs hle) horigin hm hj)

/-- Each type parameter of each class of the chain has a slot that the class below has too. There,
the slot stores the argument of the projection onto the class of the chain. For the class itself
that is the type parameter.

**Proof sketch.** The class of the chain has a layout, so its type parameter has a slot, and the
class below has all slots of the classes above. The argument of the projection is that of the
projection onto the origin of the slot, which is what the mapping stores. The class itself is at the
start of the chain, where the projection has the type parameters for arguments. -/
theorem access_of_mem_chain {policy : SlotPolicy} (hs : h.size < ClassId.limit)
    (ht : (build h policy).result = .ok t) (hc : h.IsDefined c) :
    ∃ chain slots mapping self, t.chain h c = .ok chain ∧ t.numSlots h c = .ok slots ∧
      ((t.compile h c).observe h .off).result = .ok mapping ∧ h.selfType c = .ok self ∧
      ∀ o ∈ chain, ∃ e, h.find? o = some e ∧ ∀ k < e.arity, ∃ slot i value,
        t.paramSlot h o k = .ok slot ∧ slot < slots ∧ h.supertype self o = pure i ∧
        i.args[k]? = some value ∧ mapping[slot]? = some value ∧
        (o = c → ∃ p, e.params[k]? = some p ∧ value = p.toTy) := by
  obtain ⟨-, hdescribes⟩ := describes_of_build hs ht
  obtain ⟨l, hl⟩ := hdescribes.exists_hasLayout hc
  obtain ⟨d, hd⟩ := Hierarchy.isDefined_iff.1 hc
  obtain ⟨mapping, hmapping, -, hstored⟩ := hdescribes.exists_compile hl hd
  refine ⟨l.chain, l.numSlots, mapping, ⟨c, d.selfArgs⟩, hdescribes.chain_eq hl,
    hdescribes.numSlots_eq hl, ?_, Hierarchy.selfType_eq hd, ?_⟩
  · rw [Run.result_observe_off, hmapping]
  · intro o ho
    obtain ⟨lo, hlo, -, hle⟩ := hl.of_mem_chain ho
    obtain ⟨n, hn⟩ := List.mem_iff_getElem?.1 (List.mem_reverse.2 ho)
    obtain ⟨e, he⟩ := hlo.checked
    refine ⟨e, he.find, ?_⟩
    intro k hk
    have hlen := Hierarchy.length_args_of_chain hl hd hn he.find
    have hvalue := List.getElem?_eq_getElem (hlen.symm ▸ hk)
    have hslot := List.getElem?_eq_getElem (hlo.length_paramSlots he.find ▸ hk)
    have hlt := Nat.lt_of_lt_of_le (hlo.lt_numSlots (List.mem_of_getElem? hslot)) hle
    obtain ⟨a, j, m, horigin, hm, hj⟩ :=
      hdescribes.argument_of_mem_chain hl rfl hn hlo hslot hvalue
    refine ⟨_, _, _, hdescribes.paramSlot_eq hlo hslot, hlt, Hierarchy.supertype_of_chain hl rfl hn,
      hvalue, hstored hlt horigin hm hj, ?_⟩
    rintro rfl
    obtain rfl := hl.getElem?_reverse_chain_eq_self_iff.1 hn
    obtain rfl := Option.some.inj (hd.symm.trans he.find)
    exact ⟨d.params[k], List.getElem?_eq_getElem hk, List.getElem_map _⟩

/-- The chain of the class at the bottom has a class that shares both slots of another, in reverse.
What each class sees is read from the slots that it knows. -/
theorem access_of_mem_chain_leaf :
    ∃ chain slots mapping self, Twisted.table.chain Twisted.hierarchy ⟨4⟩ = .ok chain ∧
      Twisted.table.numSlots Twisted.hierarchy ⟨4⟩ = .ok slots ∧
      ((Twisted.table.compile Twisted.hierarchy ⟨4⟩).observe Twisted.hierarchy .off).result =
        .ok mapping ∧
      Twisted.hierarchy.selfType ⟨4⟩ = .ok self ∧
      ∀ o ∈ chain, ∃ e, Twisted.hierarchy.find? o = some e ∧ ∀ k < e.arity, ∃ slot i value,
        Twisted.table.paramSlot Twisted.hierarchy o k = .ok slot ∧ slot < slots ∧
        Twisted.hierarchy.supertype self o = pure i ∧ i.args[k]? = some value ∧
        mapping[slot]? = some value ∧
        (o = ⟨4⟩ → ∃ p, e.params[k]? = some p ∧ value = p.toTy) :=
  access_of_mem_chain (by decide) Twisted.build_hierarchy (by decide)

/-! ## Instances -/

/-- The arguments of an instance leave alone the variables that cannot be type parameters, because
the type parameters of a class that has been checked have positive identifiers. -/
lemma get?_assignArgs_of_not_isClassParameter (hd : h.Checked c d) (args : List Ty)
    {v : VarId} (hv : v.isClassParameter = false) : (d.assignArgs args).get? v = none := by
  apply Subst.get?_ofLists_of_notMem
  intro hmem
  obtain ⟨p, hp, rfl⟩ := List.mem_map.1 hmem
  rw [hd.positive p hp] at hv
  cases hv

/-- The mapping of a class, expanded by the arguments of an instance, holds the arguments of the
projections of the instance onto the origins of slots. The primary bases on the chain must mention
no type parameters of other classes.

**Proof sketch.** The instance is the class itself, expanded by the arguments of the instance, and
expanding may be put off until after the projection. So the argument of the projected instance is
the expanded argument of the projected class, and the latter is what the slot stores. -/
theorem expand_compile_eq_projection {policy : SlotPolicy} (hs : h.size < ClassId.limit)
    (ht : (build h policy).result = .ok t) (hd : h.find? c = some d)
    (hclosed : ∀ chain, t.chain h c = .ok chain → ∀ o ∈ chain, ∀ e ∈ h.find? o, e.ClosedBase)
    {i : Instance} (hi : i.cls = c) (hlen : i.args.length = d.arity) :
    ∃ mapping σ, ((t.compile h c).observe h .off).result = .ok mapping ∧
      t.numSlots h c = .ok mapping.length ∧ h.argumentsOf i = .ok σ ∧
      ∀ s < mapping.length, ∃ o k j value, t.slotOrigin h c s = .ok (o, k) ∧
        h.supertype i o = pure j ∧ mapping[s]? = some value ∧
        j.args[k]? = some (value.expand σ) := by
  obtain ⟨-, hdescribes⟩ := describes_of_build hs ht
  obtain ⟨l, hl⟩ := hdescribes.exists_hasLayout (Hierarchy.isDefined_iff.2 ⟨d, hd⟩)
  have hchecked := hl.checked_of_find? hd
  obtain ⟨mapping, hmapping, hsize, hstored⟩ := hdescribes.exists_compile hl hd
  have hexpand : (⟨c, d.selfArgs⟩ : Instance).expand (d.assignArgs i.args) = i := by
    rw [Instance.expand, ClassDef.map_expand_selfArgs hchecked.nodup hlen, ← hi]
  refine ⟨mapping, d.assignArgs i.args, ?_, ?_, ?_, ?_⟩
  · rw [Run.result_observe_off, hmapping]
  · rw [hdescribes.numSlots_eq hl, hsize]
  · rw [Hierarchy.argumentsOf, Hierarchy.get_eq_ok_iff.2 (hi ▸ hd)]
    rfl
  · intro s hslot
    rw [hsize] at hslot
    obtain ⟨o, k, n, value, horigin, hn, hk⟩ := hdescribes.exists_argument hl hd hslot
    refine ⟨o, k, _, value, horigin, Hierarchy.supertype_of_chain hl hi hn,
      hstored hslot horigin hn hk, ?_⟩
    have hcommute := Hierarchy.iterate_primarySupertype_expand (i := ⟨c, d.selfArgs⟩) hl rfl hd
      d.length_selfArgs
      (hclosed l.chain (hdescribes.chain_eq hl))
      (fun v => get?_assignArgs_of_not_isClassParameter hchecked i.args) n
    rw [hexpand] at hcommute
    rw [hcommute, Instance.args_expand, List.getElem?_map, hk, Option.map_some]

/-- An instance whose argument is itself in terms of type variables, one of them with the identifier
of the type parameter. The bases of the chain are closed, so no variable of the argument is taken
for one of a class. -/
theorem expand_compile_eq_projection_leaf :
    ∃ mapping σ,
      ((Twisted.table.compile Twisted.hierarchy ⟨4⟩).observe Twisted.hierarchy .off).result =
        .ok mapping ∧
      Twisted.table.numSlots Twisted.hierarchy ⟨4⟩ = .ok mapping.length ∧
      Twisted.hierarchy.argumentsOf ⟨⟨4⟩, [.inst ⟨1⟩ [.var ⟨2⟩, .var ⟨1⟩]]⟩ = .ok σ ∧
      ∀ s < mapping.length, ∃ o k j value,
        Twisted.table.slotOrigin Twisted.hierarchy ⟨4⟩ s = .ok (o, k) ∧
        Twisted.hierarchy.supertype ⟨⟨4⟩, [.inst ⟨1⟩ [.var ⟨2⟩, .var ⟨1⟩]]⟩ o = pure j ∧
        mapping[s]? = some value ∧ j.args[k]? = some (value.expand σ) := by
  refine expand_compile_eq_projection (by decide) Twisted.build_hierarchy rfl ?_ rfl rfl
  intro chain hchain
  obtain rfl := Except.ok.inj (hchain.symm.trans Twisted.chain_leaf)
  decide

end SlotTable

end GenericSlots
