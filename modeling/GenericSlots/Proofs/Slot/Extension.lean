import GenericSlots.Proofs.Hierarchy.Effects
import GenericSlots.Proofs.Slot.Agreement
import GenericSlots.Proofs.Slot.Validation
set_option autoImplicit false

/-!
# Extending a class of a hierarchy that has been accepted

A class without bases that no other class has in its chain may be given a base later on. The chain
of the base lacks the class, so no cycle is closed, and the ancestors that are taken over from the
base list the whole chain. The other classes have chains that lack the class, so nothing that is
computed for them reads it.

## Main results

* `GenericSlots.Hierarchy.HasLayout.of_extended`: the layout of the class that is extended.
* `GenericSlots.SlotTable.build_extend`: the hierarchy is accepted again, the class follows the
  chain of its base, and all other classes get the same answers.
-/

namespace GenericSlots

namespace Hierarchy

variable {h h' : Hierarchy} {policy : SlotPolicy} {c : ClassId} {d e : ClassDef} {base : Instance}
  {lb : Layout}

/-- A class that is extended has a layout in terms of that of its base.

**Proof sketch.** The base has the layout that it had, because its chain lacks the class. Its
ancestors list its chain, so the ancestors that are taken over do too. The type parameters of the
class are as they were, and the class is the first of its new ancestors. -/
theorem HasLayout.of_extended (hh : h.Replaced c (d.withBase c base e.ancestors) h')
    (hd : h.Checked c d) (hbases : d.bases = []) (he : h.find? base.cls = some e)
    (hlen : base.args.length = e.arity) (hlb : h.HasLayout policy base.cls lb)
    (hfree : c ∉ lb.chain) :
    h'.HasLayout policy c (lb.extend c (d.params.map TypeParam.id)
      (policy.reusedSlot? base.args lb.paramSlots)) := by
  have hne : ∀ o ∈ lb.chain, o ≠ c := fun o ho hoc => hfree (hoc ▸ ho)
  have hlb' : h'.HasLayout policy base.cls lb :=
    hlb.of_find?_eq fun o ho => hh.of_ne (hne o ho)
  have he' : h'.find? base.cls = some e := by rw [hh.of_ne (hne _ hlb.mem_chain_self), he]
  have hchecked : h'.Checked c (d.withBase c base e.ancestors) :=
    { find := hh.self, positive := hd.positive, nodup := hd.nodup, head := rfl }
  have hbase : (d.withBase c base e.ancestors).primaryBase? = some base := by
    rw [ClassDef.primaryBase?, ClassDef.withBase, hbases]
    rfl
  have hlisted : ∀ a ∈ lb.chain, a ∈ (d.withBase c base e.ancestors).ancestors := fun a ha =>
    List.mem_cons_of_mem _ (hlb.mem_ancestors he ha)
  have hlayout := HasLayout.extend hchecked hbase he' hlen hlb' hlisted
  exact hlayout

end Hierarchy

namespace SlotTable

variable {t : SlotTable} {h : Hierarchy} {policy : SlotPolicy} {c : ClassId} {d e : ClassDef}
  {base : Instance}

/-- If a class without bases is in no chain but its own and is extended by an instance of another
class, with as many arguments as that class has type parameters, the hierarchy is accepted again.
The class follows the chain of its base and takes over the ancestors. All other classes stay as they
are and get the same answers and mappings.

**Proof sketch.** The chains of other classes lack the class, so their layouts are those of the
extended hierarchy too, and the class has the layout of `HasLayout.of_extended`. So all classes have
layouts, and the hierarchy is accepted. The two hierarchies with their tables agree on all classes
but the one that is extended, which settles questions and mappings. -/
theorem build_extend (hs : h.size < ClassId.limit) (ht : (build h policy).result = .ok t)
    (hd : h.find? c = some d) (hbases : d.bases = [])
    (hfree : ∀ a ≠ c, ∀ chain, t.chain h a = .ok chain → c ∉ chain)
    (he : h.find? base.cls = some e) (hne : base.cls ≠ c) (hlen : base.args.length = e.arity) :
    ∃ h' t', Edit.extend c base h = .ok ((), h') ∧ (build h' policy).result = .ok t' ∧
      (∃ chain, t.chain h base.cls = .ok chain ∧ t'.chain h' c = .ok (chain ++ [c])) ∧
      (∃ d', h'.find? c = some d' ∧ d'.ancestors = c :: e.ancestors) ∧
      (∀ a ≠ c, h'.find? a = h.find? a) ∧ (∀ q : Query, q.cls ≠ c → q.ask t' h' = q.ask t h) ∧
      ∀ a ≠ c, ((t'.compile h' a).observe h' .off).result =
        ((t.compile h a).observe h .off).result := by
  obtain ⟨rfl, hdescribes⟩ := describes_of_build hs ht
  obtain ⟨h', hok, hh⟩ := Edit.exists_extend hd he
  have hsize : h'.size < ClassId.limit := hh.size ▸ hs
  -- the chains of other classes lack the class, so these have the layouts that they had
  have hother : ∀ a l, a ≠ c → h.HasLayout t.policy a l → ∀ o ∈ l.chain, o ≠ c := by
    rintro a l ha hl o ho rfl
    exact hfree a ha l.chain (hdescribes.chain_eq hl) ho
  obtain ⟨lb, hlb⟩ := hdescribes.exists_hasLayout (Hierarchy.isDefined_iff.2 ⟨e, he⟩)
  obtain ⟨lc, hlc⟩ := hdescribes.exists_hasLayout (Hierarchy.isDefined_iff.2 ⟨d, hd⟩)
  have hlc' := hlb.of_extended hh (hlc.checked_of_find? hd) hbases he hlen
    fun hmem => hother _ lb hne hlb c hmem rfl
  have hall : ∀ a, h'.IsDefined a → ∃ l, h'.HasLayout t.policy a l := by
    intro a ha
    by_cases hac : a = c
    · subst hac
      exact ⟨_, hlc'⟩
    · rw [Hierarchy.IsDefined, hh.size] at ha
      obtain ⟨l, hl⟩ := hdescribes.exists_hasLayout ha
      exact ⟨l, hl.of_find?_eq fun o ho => hh.of_ne (hother a l hac hl o ho)⟩
  obtain ⟨t', ht'⟩ := exists_build_of_hasLayout hsize hall
  obtain ⟨hpolicy, hdescribes'⟩ := describes_of_build hsize ht'
  have hagree : AgreeOn (· ≠ c) t h t' h' :=
    hdescribes.agreeOn hdescribes' hpolicy (fun _ => hh.of_ne) hother
  refine ⟨h', t', hok, ht', ⟨lb.chain, hdescribes.chain_eq hlb, ?_⟩, ⟨_, hh.self, rfl⟩,
    hagree.find?_eq, hagree.ask_eq, fun a ha => ?_⟩
  · rw [hdescribes'.chain_eq (hpolicy ▸ hlc'), Layout.chain_extend]
  · rw [Run.result_observe_off, Run.result_observe_off, hagree.compile_eq ha]

/-- The class that every hierarchy starts with may be put below all others, because no class has it
in its chain.

**Proof sketch.** The chains of the other classes are computed, and none of them has the class. The
other conditions hold by evaluation. -/
theorem build_extend_object :
    (∀ a ≠ ⟨0⟩, ∀ chain, Twisted.table.chain Twisted.hierarchy a = .ok chain → ⟨0⟩ ∉ chain) ∧
    ∃ h' t', Edit.extend ⟨0⟩ ⟨⟨4⟩, [.any]⟩ Twisted.hierarchy = .ok ((), h') ∧
      (build h' .shared).result = .ok t' ∧
      (∃ chain, Twisted.table.chain Twisted.hierarchy ⟨4⟩ = .ok chain ∧
        t'.chain h' ⟨0⟩ = .ok (chain ++ [⟨0⟩])) ∧
      (∃ d', h'.find? ⟨0⟩ = some d' ∧ d'.ancestors = ⟨0⟩ :: Twisted.leaf.ancestors) ∧
      (∀ a ≠ ⟨0⟩, h'.find? a = Twisted.hierarchy.find? a) ∧
      (∀ q : Query, q.cls ≠ ⟨0⟩ → q.ask t' h' = q.ask Twisted.table Twisted.hierarchy) ∧
      ∀ a ≠ ⟨0⟩, ((t'.compile h' a).observe h' .off).result =
        ((Twisted.table.compile Twisted.hierarchy a).observe Twisted.hierarchy .off).result := by
  have hfree : ∀ a ≠ ⟨0⟩, ∀ chain,
      Twisted.table.chain Twisted.hierarchy a = .ok chain → ⟨0⟩ ∉ chain := by
    intro a ha chain hchain
    have hchains : ∀ a ∈ Twisted.hierarchy.classIds, a ≠ ⟨0⟩ →
        (Twisted.table.chain Twisted.hierarchy a).toOption.all fun chain => ⟨0⟩ ∉ chain := by
      decide +kernel
    obtain ⟨l, hl, -⟩ := bind_eq_ok_iff.1 hchain
    have hmem := (Hierarchy.mem_classIds (by decide)).2 (isDefined_of_layout hl)
    simpa [hchain, Except.toOption] using hchains a hmem ha
  exact ⟨hfree, build_extend (by decide) Twisted.build_hierarchy rfl rfl hfree rfl (by decide) rfl⟩

end SlotTable

end GenericSlots
