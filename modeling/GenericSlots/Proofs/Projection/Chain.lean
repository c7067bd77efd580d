import GenericSlots.Proofs.Projection.Primary
import GenericSlots.Proofs.Slot.Construction
set_option autoImplicit false

/-!
# Projections along the chains of a slot table

Each projection searches for a path of its own, through all declared bases. If a hierarchy has a
slot table, the searches for classes of primary chains agree with each other: the path to a class
and the path that goes on from there make up the path to a class further up. So an instance may be
projected in one step or in several. For ancestors off the primary chain this is not so, because the
search may reach them through another base.

## Main results

* `GenericSlots.Hierarchy.supertype_trans_of_chain`: projecting in two steps along a chain.
* `GenericSlots.SlotTable.supertype_trans_of_build`: projecting in two steps in a hierarchy that has
  a slot table.
-/

namespace GenericSlots

variable {h : Hierarchy} {policy : SlotPolicy} {c a b : ClassId} {i : Instance}

/-- An instance is projected onto a class of its chain, and from there onto a class further up, as
it is projected in one step. Nothing is reported. The bases along the chain decide the result, so it
does not matter what other bases lead to the ancestor.

**Proof sketch.** On a chain each projection is as many primary steps as the chain has classes in
between. If `b` stands `n` classes above the class of the instance, and `a` stands `m` above `b`,
then `a` stands `n + m` above the class of the instance, because the chain of `b` is the part of the
first chain from `b` on. An iteration of `n + m` steps is the one of `m` steps after the one of
`n`. -/
theorem Hierarchy.supertype_trans_of_chain {l lb : Layout} (hl : h.HasLayout policy c l)
    (hi : i.cls = c) (hb : b ∈ l.chain) (hlb : h.HasLayout policy b lb) (ha : a ∈ lb.chain) :
    ∃ j k, h.supertype i b = pure j ∧ h.supertype j a = pure k ∧ h.supertype i a = pure k := by
  obtain ⟨n, hn⟩ := List.mem_iff_getElem?.1 (List.mem_reverse.2 hb)
  obtain ⟨m, hm⟩ := List.mem_iff_getElem?.1 (List.mem_reverse.2 ha)
  have hcls : (h.primarySupertype^[n] i).cls = b := cls_iterate_primarySupertype hl hi hn
  have hsum : l.chain.reverse[n + m]? = some a := by
    rw [hl.getElem?_reverse_chain_add hn hlb, hm]
  refine ⟨_, _, supertype_of_chain hl hi hn, supertype_of_chain hlb hcls hm, ?_⟩
  rw [supertype_of_chain hl hi hsum, Nat.add_comm, Function.iterate_add_apply]

namespace SlotTable

variable {t : SlotTable} {chain : List ClassId}

/-- A table that gives the chain of some class was made below the limit of identifiers, and the
chain is that of the layout of the class. At the limit no table gives a chain, so the hypothesis
`hs` lets the limit itself be reached. -/
lemma exists_hasLayout_of_chain (hs : h.size ≤ ClassId.limit)
    (ht : (build h policy).result = .ok t) (hchain : t.chain h c = .ok chain) :
    t.Describes h ∧ ∃ l, h.HasLayout t.policy c l ∧ l.chain = chain := by
  obtain ⟨l, hlayout, hchain⟩ := bind_eq_ok_iff.1 hchain
  obtain rfl := Except.ok.inj hchain
  obtain ⟨-, hdescribes⟩ := describes_of_layout hs ht hlayout
  obtain ⟨l', hl'⟩ := hdescribes.exists_hasLayout (isDefined_of_layout hlayout)
  obtain rfl := Except.ok.inj (hlayout.symm.trans (hdescribes.layout_eq hl'))
  exact ⟨hdescribes, l, hl', rfl⟩

/-- In a hierarchy that has a slot table, an instance is projected onto a class of the chain of its
class, and from there onto a class of the chain of that one, as it is projected in one step. The
instance may have any number of arguments, and the other bases may be anything. -/
theorem supertype_trans_of_build (hs : h.size ≤ ClassId.limit)
    (ht : (build h policy).result = .ok t) (hchain : t.chain h i.cls = .ok chain)
    (hb : b ∈ chain) :
    ∃ above, t.chain h b = .ok above ∧ ∀ a ∈ above, ∃ j k,
      h.supertype i b = pure j ∧ h.supertype j a = pure k ∧ h.supertype i a = pure k := by
  obtain ⟨hdescribes, l, hl, rfl⟩ := exists_hasLayout_of_chain hs ht hchain
  obtain ⟨lb, hlb, -⟩ := hl.of_mem_chain hb
  exact ⟨lb.chain, hdescribes.chain_eq hlb, fun a ha =>
    Hierarchy.supertype_trans_of_chain hl rfl hb hlb ha⟩

/-- An instance of the class at the bottom of the twisted hierarchy that has an argument too many is
projected in steps. Its way up passes bases that are not defined or lead back down, so only the
bases along the chain are of use. -/
theorem supertype_trans_of_build_leaf :
    Twisted.table.chain Twisted.hierarchy ⟨4⟩ = .ok [⟨1⟩, ⟨2⟩, ⟨3⟩, ⟨4⟩] ∧
      ∃ above, Twisted.table.chain Twisted.hierarchy ⟨3⟩ = .ok above ∧ ∀ a ∈ above, ∃ j k,
        Twisted.hierarchy.supertype ⟨⟨4⟩, [.var ⟨2⟩, .noneType]⟩ ⟨3⟩ = pure j ∧
        Twisted.hierarchy.supertype j a = pure k ∧
        Twisted.hierarchy.supertype ⟨⟨4⟩, [.var ⟨2⟩, .noneType]⟩ a = pure k :=
  ⟨Twisted.chain_leaf, supertype_trans_of_build (i := ⟨⟨4⟩, [.var ⟨2⟩, .noneType]⟩) (by decide)
    Twisted.build_hierarchy Twisted.chain_leaf (by decide)⟩

end SlotTable

/-- Four classes below the class that every hierarchy starts with. The one at the bottom has two
bases, which are boxes of different types. So its secondary base is an ancestor off the chain from
which a class of the chain can be reached. -/
private def forked : Hierarchy where
  classes := #[
    .fresh "object" .object,
    { ClassDef.fresh "Box" ⟨1⟩ with params := [⟨"T", ⟨1⟩⟩] },
    { ClassDef.fresh "Left" ⟨2⟩ with bases := [⟨⟨1⟩, [.noneType]⟩], ancestors := [⟨2⟩, ⟨1⟩] },
    { ClassDef.fresh "Right" ⟨3⟩ with bases := [⟨⟨1⟩, [.any]⟩], ancestors := [⟨3⟩, ⟨1⟩] },
    { ClassDef.fresh "Bottom" ⟨4⟩ with
      bases := [⟨⟨2⟩, []⟩, ⟨⟨3⟩, []⟩]
      ancestors := [⟨4⟩, ⟨2⟩, ⟨3⟩, ⟨1⟩] }]
  names := ∅

-- the secondary base is off the chain, and the steps through it do not make up the single one
example :
    (forked.supertype ⟨⟨4⟩, []⟩ ⟨3⟩ >>= fun j => forked.supertype j ⟨1⟩).result =
        .ok ⟨⟨1⟩, [.any]⟩ ∧
      (forked.supertype ⟨⟨4⟩, []⟩ ⟨1⟩).result = .ok ⟨⟨1⟩, [.noneType]⟩ := by
  decide +kernel

end GenericSlots
