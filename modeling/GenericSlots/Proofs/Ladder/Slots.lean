import GenericSlots.Proofs.Ladder.Derivation
import GenericSlots.Proofs.Log.Observed
set_option autoImplicit false

/-!
# Slots of a ladder

The primary chain of a class of a ladder keeps to the left on its way down, so it takes two classes
for every level. All of them pass on their type parameter. Where nothing is shared, each class of
the chain opens a slot, and all slots store the same. Where slots are shared, there is only one.

## Main definitions

* `GenericSlots.SlotPolicy.slotsAlong`: the number of slots at the end of such a chain.
* `GenericSlots.Hierarchy.HasChain`: a class whose layout is that of such a chain.
* `GenericSlots.SlotTable.StoresParam`: a class whose slots all store its type parameter.

## Main results

* `GenericSlots.Hierarchy.IsLadder.hasChain_top`, `GenericSlots.Hierarchy.IsLadder.hasChain_side`:
  the layouts of joins and sides.
* `GenericSlots.SlotTable.storesParam_of_hasChain`: the mappings of the classes of a ladder.
-/

namespace GenericSlots

/-- The number of slots at the end of a chain of classes that have one type parameter each and pass
it on. Where slots are shared, the first class opens one and the others use it. -/
def SlotPolicy.slotsAlong (policy : SlotPolicy) (classes : Nat) : Nat :=
  match policy with
  | .appended => classes
  | .shared => 1

/-- A class that passes on its type parameter opens a slot unless slots are shared. -/
lemma SlotPolicy.slotsAlong_succ (policy : SlotPolicy) {slots : List Nat}
    (hslots : slots.length = 1) (v : VarId) (n : Nat) :
    policy.slotsAlong (n + 1) =
      policy.slotsAlong n + Layout.opened (policy.reusedSlot? [.var v] slots) [v] := by
  obtain ⟨s, rfl⟩ := List.length_eq_one_iff.1 hslots
  cases policy <;> simp [slotsAlong, Layout.opened, reusedSlot?, Ty.asVar?]

open Ladder (Level top members top_mem_members)

namespace Hierarchy

variable {h : Hierarchy} {policy : SlotPolicy} {bottom b c : ClassId}
  {onto ancestors cs : List ClassId} {level : Level} {levels below : List Level}

/-! ## Layouts -/

/-- A class has a layout like those of a ladder, with a chain of some length among some classes. -/
def HasChain (h : Hierarchy) (policy : SlotPolicy) (c : ClassId) (n : Nat) (cs : List ClassId) :
    Prop :=
  ∃ l, h.HasLayout policy c l ∧ l.chain.length = n ∧ l.numSlots = policy.slotsAlong n ∧
    ∀ o ∈ l.chain, o ∈ cs

/-- A chain that is among some classes is among more classes. -/
lemma HasChain.mono {cs' : List ClassId} {n : Nat} (hc : h.HasChain policy c n cs)
    (hsub : ∀ o ∈ cs, o ∈ cs') : h.HasChain policy c n cs' := by
  obtain ⟨l, hl, hlen, hslots, hchain⟩ := hc
  exact ⟨l, hl, hlen, hslots, fun o ho => hsub o (hchain o ho)⟩

/-- A class of a ladder passes the checks that concern the class alone: its only parameter is
positive, and it is its own first ancestor. -/
lemma IsRung.exists_checked (hc : h.IsRung c onto ancestors) :
    ∃ name, h.Checked c (.rung name c onto ancestors) := by
  obtain ⟨name, hd⟩ := hc
  refine ⟨name, hd, fun p hp => ?_, List.nodup_singleton _, rfl⟩
  obtain rfl := List.mem_singleton.1 hp
  rfl

/-- The chain of a class without bases is the class alone, which has one slot by either policy. -/
lemma IsRung.hasChain_root (hc : h.IsRung c [] ancestors) : h.HasChain policy c 1 [c] := by
  obtain ⟨name, hd⟩ := hc.exists_checked
  refine ⟨_, .root hd rfl, rfl, ?_, fun o ho => ho⟩
  cases policy <;> rfl

/-- A class follows the chain of its first base, if it lists the classes of that chain.

**Proof sketch.** The class passes all checks, so its layout is that of the base with the class at
the end of the chain. It has one slot more, or the same number where slots are shared. -/
lemma IsRung.hasChain_extend {onto' ancestors' : List ClassId} {n : Nat}
    (hc : h.IsRung c (b :: onto) ancestors) (hb : h.IsRung b onto' ancestors')
    (hchain : h.HasChain policy b n cs) (hcs : ∀ o ∈ cs, o ∈ ancestors) :
    h.HasChain policy c (n + 1) (c :: cs) := by
  obtain ⟨name, hd⟩ := hc.exists_checked
  obtain ⟨_, he⟩ := hb
  obtain ⟨lb, hlb, hlen, hslots, hwithin⟩ := hchain
  have hbase : (ClassDef.rung name c (b :: onto) ancestors).primaryBase? =
      some ⟨b, [.var ⟨1⟩]⟩ := rfl
  refine ⟨_, .extend hd hbase he rfl hlb fun o ho => List.mem_cons_of_mem _ (hcs o (hwithin o ho)),
    ?_, ?_, fun o ho => ?_⟩
  · rw [Layout.chain_extend, List.length_append, hlen, List.length_singleton]
  · rw [Layout.numSlots_extend, hslots, policy.slotsAlong_succ (hlb.length_paramSlots he)]
    rfl
  · rw [Layout.chain_extend, List.mem_append, List.mem_singleton] at ho
    rcases ho with ho | rfl
    · exact List.mem_cons_of_mem _ (hwithin o ho)
    · exact List.mem_cons_self

/-- A side follows the chain of the join below, all classes of which it lists. -/
private lemma IsRung.hasChain_of_top {side : ClassId} (hl : h.IsLadder bottom below)
    (hside : h.IsRung side [top bottom below] (members bottom below)) {n : Nat}
    (htop : h.HasChain policy (top bottom below) n (members bottom below)) :
    h.HasChain policy side (n + 1) (side :: members bottom below) := by
  obtain ⟨onto', ancestors', hrung, -⟩ := hl.exists_rung (top_mem_members bottom below)
  exact hside.hasChain_extend hrung htop fun _ ho => ho

/-- The chain of the highest join takes two classes for every level.

**Proof sketch.** Induction on the levels. A join follows the chain of its left side, and that of
the join below. -/
theorem IsLadder.hasChain_top (hl : h.IsLadder bottom levels) :
    h.HasChain policy (top bottom levels) (2 * levels.length + 1) (members bottom levels) := by
  induction hl with
  | bottom join => exact join.hasChain_root
  | @level level below lower left right join _ ih =>
    have hside := left.hasChain_of_top lower ih
    have hjoin := join.hasChain_extend left hside fun o ho => by
      rcases List.mem_cons.1 ho with rfl | ho
      · exact List.mem_cons_self
      · exact List.mem_cons_of_mem _ (List.mem_cons_of_mem _ ho)
    refine hjoin.mono fun o ho => ?_
    simp only [List.mem_cons, members] at ho ⊢
    rcases ho with ho | ho | ho <;> simp [ho]

/-- The chain of a side takes one class less than that of its join, whichever side it is.

**Proof sketch.** A side extends the top of the ladder below, whose chain takes a class for each
side and join on the way. The chain of the side adds the side itself, and all its classes are
members of the higher ladder. -/
theorem IsLadder.hasChain_side (hl : h.IsLadder bottom (level :: below)) {side : ClassId}
    (hside : side ∈ [level.left, level.right]) :
    h.HasChain policy side (2 * (below.length + 1)) (members bottom (level :: below)) := by
  cases hl with
  | level lower left right _ _ =>
    have hchain : h.HasChain policy side (2 * below.length + 2) (side :: members bottom below) := by
      rcases List.mem_pair.1 hside with rfl | rfl
      · exact left.hasChain_of_top lower lower.hasChain_top
      · exact right.hasChain_of_top lower lower.hasChain_top
    refine hchain.mono fun o ho => ?_
    simp only [members, List.mem_cons, List.not_mem_nil, or_false] at ho hside ⊢
    rcases ho with rfl | ho
    · exact Or.inr (hside.imp_right Or.inl)
    · exact Or.inr (Or.inr (Or.inr ho))

/-- Every class of a ladder has a layout, by induction on the levels.

**Proof sketch.** At the bottom there is one class, without bases. A member of a higher ladder is
its join, one of its sides, or a member of the ladder below. -/
lemma IsLadder.exists_hasLayout (hl : h.IsLadder bottom levels)
    (hc : c ∈ members bottom levels) : ∃ l, h.HasLayout policy c l := by
  induction hl with
  | bottom join =>
    obtain rfl := List.mem_singleton.1 hc
    exact join.hasChain_root.imp fun _ => And.left
  | @level level below lower left right join hnodup ih =>
    have hl : h.IsLadder bottom (level :: below) := .level lower left right join hnodup
    rw [members, List.mem_cons, List.mem_cons, List.mem_cons] at hc
    rcases hc with rfl | rfl | rfl | hc
    · exact hl.hasChain_top.imp fun _ => And.left
    · exact (hl.hasChain_side (List.mem_cons_self)).imp fun _ => And.left
    · exact (hl.hasChain_side (by simp)).imp fun _ => And.left
    · exact ih hc

/-! ## Projections along the chain -/

/-- A class of a ladder that is found is one with a single type parameter, which it passes on. -/
lemma IsLadder.exists_eq_rung (hl : h.IsLadder bottom levels) (hc : c ∈ members bottom levels)
    {d : ClassDef} (hd : h.find? c = some d) :
    ∃ name onto ancestors, d = .rung name c onto ancestors := by
  obtain ⟨onto, ancestors, ⟨name, hrung⟩, -⟩ := hl.exists_rung hc
  exact ⟨name, onto, ancestors, Option.some.inj (hd.symm.trans hrung)⟩

/-- The primary base of a class of a ladder gets the type parameter as its only argument. -/
lemma IsLadder.args_primaryBase? (hl : h.IsLadder bottom levels)
    (hc : c ∈ members bottom levels) {d : ClassDef} (hd : h.find? c = some d) {base : Instance}
    (hb : d.primaryBase? = some base) : base.args = [.var ⟨1⟩] := by
  obtain ⟨name, onto, ancestors, rfl⟩ := hl.exists_eq_rung hc hd
  obtain ⟨b, -, rfl⟩ := List.mem_map.1 (List.mem_of_head? hb)
  rfl

/-- The projections of a class onto its chain have its type parameter as their argument.

**Proof sketch.** This holds of the class itself, and is kept by each step of the chain: the
argument of the base is the type parameter, and what stands for it is the type parameter again. -/
lemma IsLadder.args_iterate_primarySupertype {l : Layout} (hl : h.IsLadder bottom levels)
    (hlayout : h.HasLayout policy c l) (hwithin : ∀ o ∈ l.chain, o ∈ members bottom levels)
    {n : Nat} {o : ClassId} (hn : l.chain.reverse[n]? = some o) :
    ∀ a ∈ (h.primarySupertype^[n] ⟨c, [.var ⟨1⟩]⟩).args, a = .var ⟨1⟩ := by
  obtain ⟨d, hd⟩ := hlayout.checked
  obtain ⟨name, onto, ancestors, rfl⟩ :=
    hl.exists_eq_rung (hwithin c hlayout.mem_chain_self) hd.find
  refine forall_args_iterate_primarySupertype hlayout rfl hd.find rfl (by simp) ?_ hn
  intro o ho e he base hb args hlen hall a ha
  obtain rfl : a = .var ⟨1⟩ := by
    simpa [hl.args_primaryBase? (hwithin o ho) he.find hb] using ha
  obtain ⟨_, _, _, rfl⟩ := hl.exists_eq_rung (hwithin o ho) he.find
  exact hall _ (ClassDef.image_assignArgs_mem hlen.ge (by simp [ClassDef.rung]))

end Hierarchy

namespace SlotTable

variable {t : SlotTable} {h : Hierarchy} {policy : SlotPolicy} {bottom c : ClassId}
  {levels : List Level} {n : Nat}

/-! ## Mappings -/

/-- A class has a number of slots, and all of them store its first type parameter, at every
verbosity. -/
structure StoresParam (t : SlotTable) (h : Hierarchy) (c : ClassId) (n : Nat) : Prop where
  /-- The number of slots. -/
  numSlots_eq : t.numSlots h c = .ok n
  /-- The mapping consists of the type parameter alone. -/
  compile_eq : ∀ v, ((t.compile h c).observe h v).result = .ok (List.replicate n (.var ⟨1⟩))

/-- The slots of a class of a ladder store its type parameter.

**Proof sketch.** The mapping consists of arguments of the projections onto the classes of the
chain. These are type parameters of the class, because all primary bases of the chain pass them
on. -/
theorem storesParam_of_hasChain (hs : h.size < ClassId.limit)
    (ht : (build h policy).result = .ok t) (hl : h.IsLadder bottom levels)
    (hc : h.HasChain policy c n (members bottom levels)) :
    t.StoresParam h c (policy.slotsAlong n) := by
  obtain ⟨rfl, hdescribes⟩ := describes_of_build hs ht
  obtain ⟨l, hlayout, -, hslots, hwithin⟩ := hc
  obtain ⟨d, hd⟩ := hlayout.checked
  obtain ⟨name, onto, ancestors, rfl⟩ :=
    hl.exists_eq_rung (hwithin c hlayout.mem_chain_self) hd.find
  -- the bases mention no classes, so the values can be shown at every verbosity
  obtain ⟨mapping, hmapping⟩ := exists_compile_of_resolvedBase hs ht
    (Hierarchy.isDefined_iff.2 ⟨_, hd.find⟩) fun chain hchain o ho e he base hb a ha k hk => by
      obtain rfl := Except.ok.inj ((hdescribes.chain_eq hlayout).symm.trans hchain)
      obtain rfl : a = .var ⟨1⟩ := by
        simpa [hl.args_primaryBase? (hwithin o ho) he hb] using ha
      exact absurd hk Ty.not_mentions_var
  have hm : (t.compile h c).result = .ok mapping := Run.result_of_observe (hmapping .off)
  obtain ⟨mapping', hm', hlen, -⟩ := hdescribes.exists_compile hlayout hd.find
  obtain rfl := Except.ok.inj (hm'.symm.trans hm)
  have hreplicate : mapping' = List.replicate (t.policy.slotsAlong n) (.var ⟨1⟩) := by
    refine List.eq_replicate_iff.2 ⟨hlen.trans hslots, fun value hvalue => ?_⟩
    obtain ⟨k, o, hk, hvalue⟩ := (hdescribes.mem_mapping_iff hlayout hd.find hm).1 hvalue
    exact hl.args_iterate_primarySupertype hlayout hwithin hk value hvalue
  exact ⟨by rw [hdescribes.numSlots_eq hlayout, hslots], hreplicate ▸ hmapping⟩

end SlotTable

end GenericSlots
