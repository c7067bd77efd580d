import GenericSlots.Slot.Mapping
import GenericSlots.Proofs.Projection.Primary
import GenericSlots.Proofs.Slot.Construction
import Mathlib.Data.List.Iterate
set_option autoImplicit false

/-!
# Mappings store projections

A mapping is compiled from the projections of a class onto its primary chain, each one made from the
one before. The projections asked for slot by slot are found by a search through all declared bases.
Both are the projections onto primary bases, so a slot stores the argument that the projection onto
the class that introduced the slot has there.

## Main results

* `GenericSlots.Hierarchy.followChain_of_chain`: following a chain is projecting onto primary bases,
  once more for each class.
* `GenericSlots.SlotTable.Describes.exists_compile`: every class has a mapping, and what its slots
  store.
* `GenericSlots.SlotTable.compile_eq_projection`: each slot stores an argument of the projection
  onto its origin.
-/

namespace GenericSlots

namespace Hierarchy

variable {h : Hierarchy} {policy : SlotPolicy} {c : ClassId} {i : Instance} {l : Layout}

/-- The projection of a class onto a class of its chain has an argument for each type parameter of
that class. The class itself has its own type parameters for arguments, and steps along the chain
keep the arity right. -/
lemma length_args_of_chain {d e : ClassDef} (hl : h.HasLayout policy c l)
    (hd : h.find? c = some d) {n : Nat} {o : ClassId} (hn : l.chain.reverse[n]? = some o)
    (he : h.find? o = some e) :
    (h.primarySupertype^[n] ⟨c, d.selfArgs⟩).args.length = e.arity :=
  length_args_iterate_primarySupertype hl rfl hd d.length_selfArgs hn he

/-! ## Following a chain -/

/-- Beyond the class itself, following its chain is projecting onto primary bases.

**Proof sketch.** By induction on the layout. The next class of the chain is that of the primary
base, and it is a different one from the class itself, so a step onto it is taken. From there the
chain goes on as that of the base. -/
private lemma followChain_tail (hl : h.HasLayout policy c l) (hi : i.cls = c) :
    h.followChain i l.chain.reverse.tail =
      .ok (List.iterate h.primarySupertype (h.primarySupertype i) l.chain.reverse.tail.length) := by
  induction hl generalizing i with
  | root _ _ => rfl
  | @extend c d b base l hd hb hfind harity hbl hlisted ih =>
    have hd' : h.find? i.cls = some d := hi ▸ hd.find
    have hne : base.cls ≠ i.cls := by
      rw [hi]
      exact (HasLayout.extend hd hb hfind harity hbl hlisted).cls_primaryBase_ne hd.find hb
    rw [Layout.reverse_chain_extend, List.tail_cons, hbl.reverse_chain]
    simp only [followChain, if_neg hne, directSupertype_of_primaryBase? hd' hb, ok_bind,
      ih (cls_primarySupertype hd' hb)]
    rfl

/-- Following a chain is projecting onto primary bases, once more for each class. The first class is
the one of the instance, for which no step is taken. -/
theorem followChain_of_chain (hl : h.HasLayout policy c l) (hi : i.cls = c) :
    h.followChain i l.chain.reverse =
      .ok (List.iterate h.primarySupertype i l.chain.length) := by
  have hlen : l.chain.length = l.chain.reverse.tail.length + 1 := by
    rw [← List.length_reverse, hl.reverse_chain]
    rfl
  rw [hl.reverse_chain, hlen]
  simp only [followChain, if_pos hi.symm, pure_bind, followChain_tail hl hi, ok_bind]
  rfl

/-- The projection onto a class of the chain is found among the projections onto all of them.

**Proof sketch.** The projections are instances of the classes of the chain, in the same order. No
class is on the chain twice, so the first projection of the class is the one at its position. -/
lemma find?_iterate_of_chain (hl : h.HasLayout policy c l) (hi : i.cls = c) {n : Nat}
    {o : ClassId} (hn : l.chain.reverse[n]? = some o) :
    (List.iterate h.primarySupertype i l.chain.length).find? (fun j => j.cls = o) =
      some (h.primarySupertype^[n] i) := by
  obtain ⟨hlt, ho⟩ := List.getElem?_eq_some_iff.1 hn
  have hlt' : n < l.chain.length := by simpa using hlt
  refine List.find?_eq_some_iff_getElem.2 ⟨?_, n, by simpa using hlt', ?_, ?_⟩
  · exact decide_eq_true (cls_iterate_primarySupertype hl hi hn)
  · rw [List.getElem_iterate]
  · intro m hm
    have hm' : m < l.chain.reverse.length := Nat.lt_trans hm hlt
    have hcls := cls_iterate_primarySupertype hl hi (List.getElem?_eq_getElem hm')
    have hne : l.chain.reverse[m] ≠ l.chain.reverse[n] := fun heq =>
      Nat.ne_of_lt hm ((List.getElem_inj (List.nodup_reverse.2 hl.nodup_chain)).1 heq)
    rw [List.getElem_iterate, hcls, ← ho]
    simpa using hne

end Hierarchy

namespace SlotTable

variable {t : SlotTable} {h : Hierarchy} {c : ClassId} {d : ClassDef} {l : Layout}

/-! ## The values of slots -/

/-- The value of a slot, given its origin and the argument that the projection onto it has. -/
lemma slotValue_eq {projections : List Instance} {s k : Nat} {o : ClassId} {i : Instance}
    {value : Ty} (horigin : t.slotOrigin h c s = .ok (o, k))
    (hi : projections.find? (fun j => j.cls = o) = some i) (hk : i.args[k]? = some value) :
    t.slotValue h c projections s = .ok value := by
  simp only [slotValue, horigin, ok_bind, hi, Option.bind_eq_bind, Option.bind_some, hk]
  rfl

/-- What it takes for a slot to have a value: an origin, a projection onto its class and an argument
there. If one of them is missing, the slot is refused, which reads names for the error.

**Proof sketch.** From left to right, both look-ups have succeeded, since the steps that follow a
failure end in an error. From right to left, the value is the one that is looked up. -/
lemma slotValue_eq_ok_iff {projections : List Instance} {s : Nat} {value : Ty} :
    t.slotValue h c projections s = .ok value ↔ ∃ o k i, t.slotOrigin h c s = .ok (o, k) ∧
      projections.find? (fun j => j.cls = o) = some i ∧ i.args[k]? = some value := by
  constructor
  · intro hok
    obtain ⟨⟨o, k⟩, horigin, hok⟩ := bind_eq_ok_iff.1 hok
    cases hvalue : projections.find? (fun j => j.cls = o) >>= fun i => i.args[k]? with
    | none =>
      simp only [hvalue] at hok
      obtain ⟨_, -, hok⟩ := bind_eq_ok_iff.1 hok
      obtain ⟨_, -, hok⟩ := bind_eq_ok_iff.1 hok
      cases hok
    | some value' =>
      simp only [hvalue] at hok
      obtain rfl : value' = value := Except.ok.inj hok
      obtain ⟨i, hi, hk⟩ := Option.bind_eq_some_iff.1 hvalue
      exact ⟨o, k, i, horigin, hi, hk⟩
  · rintro ⟨o, k, i, horigin, hi, hk⟩
    exact slotValue_eq horigin hi hk

/-- A mapping consists of the values of slots, given the projections that it is compiled from. The
records that are made for each slot do not change the result.

**Proof sketch.** The four look-ups succeed, so what is left is to compute each value and to report
it. Reporting does not change the value. -/
lemma result_compile {slots : Nat} {self : Instance} {chain : List ClassId}
    {projections : List Instance} (hslots : t.numSlots h c = .ok slots)
    (hself : h.selfType c = .ok self) (hchain : t.chain h c = .ok chain)
    (hprojections : h.followChain self chain.reverse = .ok projections) :
    (t.compile h c).result = (List.range slots).mapM (t.slotValue h c projections) := by
  simp only [compile, hslots, hself, hchain, hprojections, Run.liftM_ok_bind,
    Run.liftM_fault_ok_bind, Run.result_mapM]
  congr 1
  funext slot
  rw [Run.result_bind, Run.result_liftM]
  cases t.slotValue h c projections slot <;> rfl

/-- A class without a layout is refused at once, before its projections are made and before anything
is recorded. -/
lemma compile_of_layout_eq_error {e : Failure SlotError} (hlayout : t.layout h c = .error e) :
    t.compile h c = .ofResult (.error e) := by
  have hslots : t.numSlots h c = .error e := by
    rw [numSlots, hlayout]
    rfl
  rw [compile, hslots]
  rfl

/-- A class that has a mapping has a layout. -/
lemma exists_layout_of_compile {mapping : List Ty}
    (hm : (t.compile h c).result = .ok mapping) :
    ∃ l, t.layout h c = .ok l := by
  cases hlayout : t.layout h c with
  | ok l => exact ⟨l, rfl⟩
  | error e =>
    rw [compile_of_layout_eq_error hlayout] at hm
    cases hm

/-- Each slot has an origin on the chain, and the projection onto the origin has the argument that
the slot stores.

**Proof sketch.** The origin has a type parameter in the slot. The projection has an argument for
each type parameter of its class, since the primary bases on the way have as many arguments as they
need. -/
lemma Describes.exists_argument (ht : t.Describes h) (hl : h.HasLayout t.policy c l)
    (hd : h.find? c = some d) {s : Nat} (hs : s < l.numSlots) :
    ∃ o k n value, t.slotOrigin h c s = .ok (o, k) ∧ l.chain.reverse[n]? = some o ∧
      (h.primarySupertype^[n] ⟨c, d.selfArgs⟩).args[k]? = some value := by
  obtain ⟨o, lo, k, horigin, ho, hlo, hk⟩ := ht.exists_slotOrigin hl hs
  obtain ⟨n, hn⟩ := List.mem_iff_getElem?.1 (List.mem_reverse.2 ho)
  obtain ⟨e, he⟩ := hlo.checked
  have hlen := Hierarchy.length_args_of_chain hl hd hn he.find
  have hlt : k < (h.primarySupertype^[n] ⟨c, d.selfArgs⟩).args.length := by
    rw [hlen, ← hlo.length_paramSlots he.find]
    exact (List.getElem?_eq_some_iff.1 hk).1
  exact ⟨o, k, n, _, horigin, hn, List.getElem?_eq_getElem hlt⟩

/-- Every class has a mapping, which stores in each slot the argument of the projection onto the
origin of the slot.

**Proof sketch.** The mapping is compiled from the projections onto all classes of the chain, so the
one onto the origin is among them, and its argument is there. So each slot has a value, and the list
of values is what compiling gives. -/
theorem Describes.exists_compile (ht : t.Describes h) (hl : h.HasLayout t.policy c l)
    (hd : h.find? c = some d) :
    ∃ mapping, (t.compile h c).result = .ok mapping ∧ mapping.length = l.numSlots ∧
      ∀ {s o k n value}, s < l.numSlots → t.slotOrigin h c s = .ok (o, k) →
        l.chain.reverse[n]? = some o →
        (h.primarySupertype^[n] ⟨c, d.selfArgs⟩).args[k]? = some value →
        mapping[s]? = some value := by
  have hvalue : ∀ {s o k n value}, t.slotOrigin h c s = .ok (o, k) →
      l.chain.reverse[n]? = some o →
      (h.primarySupertype^[n] ⟨c, d.selfArgs⟩).args[k]? = some value →
      t.slotValue h c (List.iterate h.primarySupertype ⟨c, d.selfArgs⟩ l.chain.length) s =
        .ok value := by
    intro s o k n value horigin hn hk
    exact slotValue_eq horigin (Hierarchy.find?_iterate_of_chain hl rfl hn) hk
  have hok : ∀ s ∈ List.range l.numSlots, ∃ value, t.slotValue h c
      (List.iterate h.primarySupertype ⟨c, d.selfArgs⟩ l.chain.length) s = .ok value := by
    intro s hs
    obtain ⟨o, k, n, value, horigin, hn, hk⟩ := ht.exists_argument hl hd (List.mem_range.1 hs)
    exact ⟨value, hvalue horigin hn hk⟩
  obtain ⟨mapping, hmapping, hlen, hget⟩ := exists_mapM_eq_ok hok
  refine ⟨mapping, ?_, ?_, ?_⟩
  · rw [result_compile (ht.numSlots_eq hl) (Hierarchy.selfType_eq hd) (ht.chain_eq hl)
      (Hierarchy.followChain_of_chain hl rfl), hmapping]
  · rw [hlen, List.length_range]
  · intro s o k n value hs horigin hn hk
    exact hget _ _ _ (List.getElem?_range hs) (hvalue horigin hn hk)

/-- Every class has a mapping, which has a value for each of its slots. The value is an argument of
the projection of the class onto the origin of the slot, where this projection is the one that is
found by a search through all bases.

**Proof sketch.** The origin of a slot is on the chain, and the projection onto a class of the chain
is the one onto primary bases, as often as the class is away. `Describes.exists_compile` says that
the slot stores an argument of the latter. -/
theorem compile_eq_projection {policy : SlotPolicy} (hs : h.size < ClassId.limit)
    (ht : (build h policy).result = .ok t) (hc : h.IsDefined c) :
    ∃ mapping self, ((t.compile h c).observe h .off).result = .ok mapping ∧
      t.numSlots h c = .ok mapping.length ∧ h.selfType c = .ok self ∧
      ∀ s < mapping.length, ∃ o k i value, t.slotOrigin h c s = .ok (o, k) ∧
        h.supertype self o = pure i ∧ i.args[k]? = some value ∧ mapping[s]? = some value := by
  obtain ⟨-, hdescribes⟩ := describes_of_build hs ht
  obtain ⟨l, hl⟩ := hdescribes.exists_hasLayout hc
  obtain ⟨d, hd⟩ := Hierarchy.isDefined_iff.1 hc
  obtain ⟨mapping, hmapping, hlen, hvalue⟩ := hdescribes.exists_compile hl hd
  refine ⟨mapping, ⟨c, d.selfArgs⟩, ?_, ?_, Hierarchy.selfType_eq hd, ?_⟩
  · rw [Run.result_observe_off, hmapping]
  · rw [hdescribes.numSlots_eq hl, hlen]
  · intro s hslot
    rw [hlen] at hslot
    obtain ⟨o, k, n, value, horigin, hn, hk⟩ := hdescribes.exists_argument hl hd hslot
    exact ⟨o, k, _, value, horigin, Hierarchy.supertype_of_chain hl rfl hn, hk,
      hvalue hslot horigin hn hk⟩

/-- The slots of the class at the bottom come from two classes above it, and two of them store the
same type. -/
theorem compile_eq_projection_leaf :
    ∃ mapping self,
      ((Twisted.table.compile Twisted.hierarchy ⟨4⟩).observe Twisted.hierarchy .off).result =
        .ok mapping ∧
      Twisted.table.numSlots Twisted.hierarchy ⟨4⟩ = .ok mapping.length ∧
      Twisted.hierarchy.selfType ⟨4⟩ = .ok self ∧
      ∀ s < mapping.length, ∃ o k i value,
        Twisted.table.slotOrigin Twisted.hierarchy ⟨4⟩ s = .ok (o, k) ∧
        Twisted.hierarchy.supertype self o = pure i ∧ i.args[k]? = some value ∧
        mapping[s]? = some value :=
  compile_eq_projection (by decide) Twisted.build_hierarchy (by decide)

end SlotTable

end GenericSlots
