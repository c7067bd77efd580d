import GenericSlots.Proofs.Hierarchy.Growth
import GenericSlots.Proofs.Slot.Profile
set_option autoImplicit false

/-!
# A slot table outlives changes of its hierarchy

A table is made for a hierarchy as it is at some time, and mappings are compiled later, when the
hierarchy may have grown. The table still holds the layouts of the classes that it covers, and the
chains that it goes by are those of before. So what is left to show is that projecting along such a
chain gives the same arguments.

The type of a class as seen from inside has an argument more for each type parameter that was
declared since. From the primary base on, arguments are as many as before, and later type
parameters get none.

## Main results

* `GenericSlots.Hierarchy.followChain_of_extendedBy`,
  `GenericSlots.Hierarchy.exists_followChain_selfArgs`: following a chain in a hierarchy that has
  grown.
* `GenericSlots.SlotTable.compile_of_grows`: the mapping of a class stays the same.
-/

namespace GenericSlots

namespace Hierarchy

variable {h h' : Hierarchy} {policy : SlotPolicy} {c : ClassId} {d d' : ClassDef}
  {base i j : Instance} {l lb : Layout}

/-! ## Following a chain -/

/-- The projection onto the primary base is the one of before, for an instance with as many
arguments as its class had type parameters. Type parameters that were declared since have none. -/
lemma directSupertype_of_extendedBy (hh : h.ExtendedBy h') (hd : h.find? i.cls = some d)
    (hb : d.primaryBase? = some base) (hlen : i.args.length = d.arity) :
    h'.directSupertype i base.cls = .ok (h.primarySupertype i) := by
  obtain ⟨d', hd', hext⟩ := hh _ _ hd
  have hb' := hext.primaryBase? hb
  rw [directSupertype_of_primaryBase? hd' hb', primarySupertype_eq hd' hb',
    primarySupertype_eq hd hb, hext.assignArgs hlen]

/-- Following a chain starts with the instance itself, if it is of the first class. -/
private lemma followChain_cons_self (hi : i.cls = c) (cs : List ClassId) :
    h'.followChain i (c :: cs) = (h'.followChain i cs).map (i :: ·) := by
  simp only [followChain, if_pos hi.symm, pure_bind]
  rfl

/-- The chain of another class may be followed from the projection onto that class. -/
private lemma followChain_eq_next {b : ClassId} (hlb : h.HasLayout policy b lb) (hne : b ≠ i.cls)
    (hj : h'.directSupertype i b = .ok j) (hcls : j.cls = b) :
    h'.followChain i lb.chain.reverse = h'.followChain j lb.chain.reverse := by
  rw [hlb.reverse_chain]
  simp only [followChain, if_neg hne, hj, if_pos hcls.symm, ok_bind, pure_bind]

/-- A chain of before leads to the projections of before, from an instance with as many arguments as
its class had type parameters.

**Proof sketch.** By induction on the layout of before. The first class is that of the instance. The
next one is that of the primary base, which is still the first declared base, and the projection
onto it is the one of before. It has as many arguments as the class of the base had type parameters,
so the induction hypothesis applies. -/
theorem followChain_of_extendedBy (hh : h.ExtendedBy h') (hl : h.HasLayout policy c l)
    (hi : i.cls = c) (hd : h.find? c = some d) (hlen : i.args.length = d.arity) :
    h'.followChain i l.chain.reverse =
      .ok (List.iterate h.primarySupertype i l.chain.length) := by
  induction hl generalizing i d with
  | root _ _ => exact followChain_cons_self hi []
  | @extend c d' b base lb hd' hb hfind harity hlb hlisted ih =>
    obtain rfl := Option.some.inj (hd'.find.symm.trans hd)
    have hi' := hi ▸ hd
    have hne : base.cls ≠ i.cls := by
      rw [hi]
      exact (HasLayout.extend hd' hb hfind harity hlb hlisted).cls_primaryBase_ne hd hb
    have hcls := cls_primarySupertype hi' hb
    have hargs : (h.primarySupertype i).args.length = b.arity := by
      rw [primarySupertype_eq hi' hb, Instance.args_expand, List.length_map, harity]
    rw [Layout.reverse_chain_extend, followChain_cons_self hi,
      followChain_eq_next hlb hne (directSupertype_of_extendedBy hh hi' hb hlen) hcls,
      ih hcls hfind hargs, Layout.chain_extend, List.length_append, List.length_singleton]
    rfl

/-- From a class as seen from inside, a chain of before leads to the class with the arguments that
it has now, and then to the projections of before.

**Proof sketch.** Seen from inside, a class passes on the arguments of its primary base as they are
declared, before and after. From the base on, both chains are followed from the same instance, and
`followChain_of_extendedBy` applies to both. -/
theorem exists_followChain_selfArgs (hh : h.ExtendedBy h') (hl : h.HasLayout policy c l)
    (hd : h.find? c = some d) (hd' : h'.find? c = some d') :
    ∃ rest, h.followChain ⟨c, d.selfArgs⟩ l.chain.reverse = .ok (⟨c, d.selfArgs⟩ :: rest) ∧
      h'.followChain ⟨c, d'.selfArgs⟩ l.chain.reverse = .ok (⟨c, d'.selfArgs⟩ :: rest) := by
  cases hb : d.primaryBase? with
  | none =>
    obtain rfl := hl.eq_root hd hb
    exact ⟨[], followChain_cons_self rfl [], followChain_cons_self rfl []⟩
  | some base =>
    have hne := hl.cls_primaryBase_ne hd hb
    obtain ⟨b, lb, hfind, harity, hlb, -, rfl⟩ := hl.eq_extend hd hb
    obtain ⟨d'', hd'', hext⟩ := hh c d hd
    obtain rfl := Option.some.inj (hd'.symm.trans hd'')
    -- seen from inside, a class passes on the arguments of its primary base as they are declared
    have hnext : ∀ {h₁ : Hierarchy} {e : ClassDef}, h₁.find? c = some e →
        e.primaryBase? = some base → h₁.directSupertype ⟨c, e.selfArgs⟩ base.cls = .ok base := by
      intro h₁ e he hbase
      rw [directSupertype_of_primaryBase? he hbase, primarySupertype_eq he hbase,
        ClassDef.expand_assignArgs_selfArgs]
    refine ⟨List.iterate h.primarySupertype base lb.chain.length, ?_, ?_⟩
    · rw [Layout.reverse_chain_extend, followChain_cons_self rfl,
        followChain_eq_next hlb hne (hnext hd hb) rfl,
        followChain_of_extendedBy (.refl h) hlb rfl hfind harity]
      rfl
    · rw [Layout.reverse_chain_extend, followChain_cons_self rfl,
        followChain_eq_next hlb hne (hnext hd' (hext.primaryBase? hb)) rfl,
        followChain_of_extendedBy hh hlb rfl hfind harity]
      rfl

end Hierarchy

namespace SlotTable

variable {t : SlotTable} {h h' : Hierarchy} {c : ClassId} {d : ClassDef}

/-! ## Mappings -/

/-- The layouts that a table answers with are the same after the hierarchy has grown, since classes
stay defined. -/
lemma coveredBy_of_extendedBy (t : SlotTable) (hh : h.ExtendedBy h') : t.CoveredBy h t h' := by
  intro c l hl
  have hc := isDefined_of_layout hl
  rw [layout, if_pos hc] at hl
  rw [layout, if_pos (hh.isDefined hc), hl]

/-- A slot keeps its value if the first projection is given more arguments.

**Proof sketch.** The origin of the slot is the same. If it is the first class, the value is one of
its arguments, and these are the first ones of what it is given now. Otherwise it is found among the
other projections, which are the same. -/
lemma slotValue_of_coveredBy (ht : t.CoveredBy h t h') {i i' : Instance} {rest : List Instance}
    (hcls : i.cls = i'.cls) (hargs : i.args <+: i'.args) {s : Nat} {value : Ty}
    (hok : t.slotValue h c (i :: rest) s = .ok value) :
    t.slotValue h' c (i' :: rest) s = .ok value := by
  obtain ⟨o, k, j, horigin, hj, hk⟩ := slotValue_eq_ok_iff.1 hok
  rw [slotValue_eq_ok_iff]
  by_cases ho : i.cls = o
  · rw [List.find?_cons_of_pos (by simpa using ho)] at hj
    obtain rfl := Option.some.inj hj
    have ho' : decide (i'.cls = o) = true := decide_eq_true (hcls ▸ ho)
    refine ⟨o, k, i', ht.slotOrigin horigin, List.find?_cons_of_pos ho', ?_⟩
    obtain ⟨more, hmore⟩ := hargs
    rw [← hmore, List.getElem?_append_left (List.getElem?_eq_some_iff.1 hk).1, hk]
  · rw [List.find?_cons_of_neg (by simpa using ho)] at hj
    refine ⟨o, k, j, ht.slotOrigin horigin, ?_, hk⟩
    rw [List.find?_cons_of_neg (by simpa [← hcls] using ho), hj]

/-- The mapping of a class stays the same while the hierarchy grows, even if the hierarchy would be
refused by now.

**Proof sketch.** The table answers with the same number of slots and the same chain. Following the
chain gives the same projections but for the first, which has more arguments. So each slot has the
value that it had. -/
theorem compile_of_grows {policy : SlotPolicy} (hs : h.size < ClassId.limit)
    (ht : (build h policy).result = .ok t) (hg : h.Grows h') (hc : h.IsDefined c) :
    ∃ mapping, ((t.compile h c).observe h .off).result = .ok mapping ∧
      ((t.compile h' c).observe h' .off).result = .ok mapping := by
  obtain ⟨-, hdescribes⟩ := describes_of_build hs ht
  have hcovered := t.coveredBy_of_extendedBy hg.extendedBy
  obtain ⟨l, hl⟩ := hdescribes.exists_hasLayout hc
  obtain ⟨d, hd⟩ := Hierarchy.isDefined_iff.1 hc
  obtain ⟨d', hd', hext⟩ := hg.extendedBy c d hd
  obtain ⟨rest, hfollow, hfollow'⟩ :=
    Hierarchy.exists_followChain_selfArgs hg.extendedBy hl hd hd'
  obtain ⟨mapping, hmapping, -⟩ := hdescribes.exists_compile hl hd
  have hslots := hdescribes.numSlots_eq hl
  have hchain := hdescribes.chain_eq hl
  refine ⟨mapping, by rw [Run.result_observe_off, hmapping], ?_⟩
  rw [result_compile hslots (Hierarchy.selfType_eq hd) hchain hfollow] at hmapping
  rw [Run.result_observe_off, result_compile (hcovered.numSlots hslots) (Hierarchy.selfType_eq hd')
    (hcovered.chain hchain) hfollow']
  refine mapM_eq_ok_of_forall (fun s _ value hok => ?_) hmapping
  refine slotValue_of_coveredBy hcovered ?_ hext.selfArgs hok
  rfl

end SlotTable

/-! ## A hierarchy that has grown -/

namespace Twisted

/-- The classes of `hierarchy` after more changes: `pair` has another type parameter and extends
`leaf`, which closes a cycle, and two type parameters of `leaf` have the same identifier. -/
def grown : Hierarchy :=
  ((((hierarchy.add "Fork").update ⟨1⟩ fun d => d.declareParam ⟨"C", ⟨3⟩⟩).update ⟨4⟩
    fun d => d.declareParam ⟨"W", ⟨1⟩⟩).update ⟨1⟩
    fun d => { d with bases := d.bases ++ [⟨⟨4⟩, [.any]⟩] }).update ⟨3⟩
    fun d => { d with ancestors := [⟨3⟩] }

/-- The hierarchy is made by changes of the kinds that let a hierarchy grow, one after another. -/
lemma grows_grown : hierarchy.Grows grown := by
  have hadded := (Hierarchy.Grows.refl (h := hierarchy)).change (.alloc "Fork") rfl
  have hnew : ∀ d ∈ (hierarchy.add "Fork").find? ⟨1⟩, ∀ q ∈ d.params, q.name ≠ "C" := by
    decide +kernel
  have hnamed := hadded.change (.newParam hnew) rfl
  have hshared :=
    hnamed.change (.declareParam (c := ⟨4⟩) (p := ⟨"W", ⟨1⟩⟩) (by decide +kernel)) rfl
  have hcyclic := hshared.change (.addBase ⟨1⟩ ⟨⟨4⟩, [.any]⟩) rfl
  exact hcyclic.change (.setAncestors ⟨3⟩ []) rfl

end Twisted

/-- The hierarchy would be refused by now, and the mapping of the class at the bottom is still
compiled. -/
theorem SlotTable.compile_of_grows_leaf :
    (build Twisted.grown .shared).result = .error (.error (.cyclicHierarchy "Pair")) ∧
      Twisted.hierarchy.Grows Twisted.grown ∧
      ∃ mapping,
        ((Twisted.table.compile Twisted.hierarchy ⟨4⟩).observe Twisted.hierarchy .off).result =
          .ok mapping ∧
        ((Twisted.table.compile Twisted.grown ⟨4⟩).observe Twisted.grown .off).result =
          .ok mapping :=
  ⟨by decide +kernel, Twisted.grows_grown,
    compile_of_grows (by decide) Twisted.build_hierarchy Twisted.grows_grown (by decide)⟩

end GenericSlots
