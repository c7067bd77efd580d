import GenericSlots.Derivation
import GenericSlots.Proofs.Failure
import GenericSlots.Proofs.Slot.Construction
import GenericSlots.Proofs.Slot.Validity
set_option autoImplicit false

/-!
# Paths of primary bases

The search for the first path tries the bases of a class in the order of declarations, so it turns
to the primary base first. It goes on there unless it has been there before. So if primary bases
lead to the target, and on the way to no class twice, the search follows them to the end and never
tries another base. Other bases may lead to the target by a shorter path, back to where the search
comes from, or to no class at all.

This needs no more of the hierarchy than the primary bases on the way. In a hierarchy that has a
slot table, primary bases lead from each class to the classes of its primary chain and to no class
twice.

## Main definitions

* `GenericSlots.Hierarchy.IsPrimaryPath`: the classes of primary bases from a class up to another.

## Main results

* `GenericSlots.Hierarchy.IsPrimaryPath.firstPath_eq`: what the search makes of the bases of a class
  if primary bases lead to the target.
* `GenericSlots.Hierarchy.IsPrimaryPath.path_eq`: the path that is found is that of primary bases.
* `GenericSlots.Hierarchy.IsPrimaryPath.exists_chain_eq`: a path of primary bases is the part of the
  primary chain between its ends.
* `GenericSlots.SlotTable.primaryPath_of_build`: the paths to the classes of a primary chain.
-/

namespace GenericSlots

namespace Hierarchy

/-- The classes of primary bases from a class up to the target: the first is that of the class, and
each of the others is that of the one before. The class itself is not among them, and the target is
the last. -/
inductive IsPrimaryPath (h : Hierarchy) (target : ClassId) : ClassId → List ClassId → Prop
  /-- The primary base of the class is the target. -/
  | last {c : ClassId} (base : h.PrimaryBase c target) : IsPrimaryPath h target c [target]
  /-- The primary base of the class has a path of primary bases to the target. -/
  | step {c b : ClassId} {path : List ClassId} (base : h.PrimaryBase c b)
      (onward : IsPrimaryPath h target b path) : IsPrimaryPath h target c (b :: path)

variable {h h' : Hierarchy} {policy : SlotPolicy} {target c b : ClassId} {path : List ClassId}
  {l : Layout}

/-- The first trail from a class leads to its primary base, since the primary base is the one
declared first. -/
lemma PrimaryBase.trailsFrom_eq (hb : h.PrimaryBase c b) (way : List ClassId) :
    ∃ trails, h.trailsFrom c way = ⟨b, way⟩ :: trails := by
  obtain ⟨d, base, hd, hbase, rfl⟩ := hb
  obtain ⟨bs, hbs⟩ := List.head?_eq_some_iff.1 hbase
  exact ⟨bs.map fun b => ⟨b.cls, way⟩, by simp [trailsFrom, basesOf, hd, hbs]⟩

namespace IsPrimaryPath

/-- A class that has a primary base is defined, so a path of primary bases starts from a class that
is. -/
lemma isDefined (hp : h.IsPrimaryPath target c path) : h.IsDefined c := by
  cases hp with
  | last hb | step hb _ =>
    obtain ⟨d, -, hd, -⟩ := hb
    exact isDefined_iff.2 ⟨d, hd⟩

/-- A path of primary bases ends with the target, which is therefore on it. -/
lemma target_mem (hp : h.IsPrimaryPath target c path) : target ∈ path := by
  induction hp with
  | last _ => exact List.mem_cons_self
  | step _ _ ih => exact List.mem_cons_of_mem _ ih

/-- Only the primary bases on the way count: a path of primary bases is one in every hierarchy that
has the same primary bases. -/
lemma mono (hp : h.IsPrimaryPath target c path)
    (hsub : ∀ a b, h.PrimaryBase a b → h'.PrimaryBase a b) :
    h'.IsPrimaryPath target c path := by
  induction hp with
  | last hb => exact .last (hsub _ _ hb)
  | step hb _ ih => exact .step (hsub _ _ hb) ih

/-! ## The search -/

/-- If primary bases lead to the target, past classes that were not seen and none of them twice, the
search follows them, whatever other trails are left.

**Proof sketch.** Induction on the path. The first trail leads to the primary base, which is the
target or else may be entered. So the search goes on there, and comes back with a path before it
turns to any other trail. -/
theorem firstPath_eq (hp : h.IsPrimaryPath target c path) (hnodup : path.Nodup)
    {seen way : List ClassId} {rest : List Trail} (hseen : ∀ a ∈ path, a ∉ seen) :
    h.firstPath target seen (h.trailsFrom c way ++ rest) = some (way.reverse ++ path) := by
  induction hp generalizing seen way rest with
  | last hb =>
    obtain ⟨trails, htrails⟩ := hb.trailsFrom_eq way
    rw [htrails, List.cons_append, firstPath, if_pos rfl, Trail.path, List.reverse_cons]
  | @step c b path hb hp ih =>
    obtain ⟨trails, htrails⟩ := hb.trailsFrom_eq way
    obtain ⟨hnot, hnodup⟩ := List.nodup_cons.1 hnodup
    rw [List.forall_mem_cons] at hseen
    -- the target is still to come, and a path passes no class twice
    have hne : b ≠ target := by
      rintro rfl
      exact hnot hp.target_mem
    have hseen' : ∀ a ∈ path, a ∉ b :: seen := by
      intro a ha hmem
      rcases List.mem_cons.1 hmem with rfl | hmem
      · exact hnot ha
      · exact hseen.2 a ha hmem
    rw [htrails, List.cons_append, firstPath, if_neg hne, dif_pos ⟨hp.isDefined, hseen.1⟩]
    dsimp only
    rw [ih hnodup hseen', List.reverse_cons, List.append_assoc, List.singleton_append]

/-- The path that is found is that of primary bases, if these lead to no class twice. Other bases
are not even looked at.

**Proof sketch.** `firstPath_eq` at the start of the search, where only the class itself was seen,
and it is not on the path. -/
theorem path_eq (hp : h.IsPrimaryPath target c path) (hnodup : (c :: path).Nodup) :
    h.path c target = .ok (some path) := by
  obtain ⟨d, hd⟩ := isDefined_iff.1 hp.isDefined
  obtain ⟨hnot, hnodup⟩ := List.nodup_cons.1 hnodup
  have hseen : ∀ a ∈ path, a ∉ [c] := by
    intro a ha hmem
    exact hnot (List.mem_singleton.1 hmem ▸ ha)
  have hpath : h.firstPath target [c] (h.trailsFrom c [] ++ []) = some path :=
    hp.firstPath_eq hnodup hseen
  rw [List.append_nil] at hpath
  rw [path_eq_firstPath hd, hpath]

/-! ## Primary chains -/

/-- A path of primary bases is the part of the primary chain between its ends, from the class
upwards.

**Proof sketch.** Induction on the path. The chain of a class is that of its primary base with the
class at its end, and the chain of the target ends with the target. -/
theorem exists_chain_eq (hp : h.IsPrimaryPath target c path) (hl : h.HasLayout policy c l) :
    ∃ above below, l.chain = above ++ target :: below ++ [c] ∧
      path = (target :: below).reverse := by
  induction hp generalizing l with
  | last hb =>
    obtain ⟨lb, hlb, hchain⟩ := hl.of_primaryBase hb
    obtain ⟨above, habove⟩ := List.getLast?_eq_some_iff.1 hlb.getLast?_chain
    exact ⟨above, [], by rw [hchain, habove], rfl⟩
  | @step c b path hb _ ih =>
    obtain ⟨lb, hlb, hchain⟩ := hl.of_primaryBase hb
    obtain ⟨above, below, hbase, rfl⟩ := ih hlb
    exact ⟨above, below ++ [b], by simp [hchain, hbase], by simp⟩

/-- Primary bases lead to no class twice, if the class that they start from has a layout: the path
is a part of its chain, which has no class twice. -/
lemma nodup_cons (hp : h.IsPrimaryPath target c path) (hl : h.HasLayout policy c l) :
    (c :: path).Nodup := by
  obtain ⟨above, below, hchain, rfl⟩ := hp.exists_chain_eq hl
  have hsuffix : (target :: below ++ [c]).Nodup := by
    refine List.Nodup.sublist ?_ hl.nodup_chain
    rw [hchain, List.append_assoc]
    exact List.sublist_append_right _ _
  simpa using List.nodup_reverse.2 hsuffix

/-- From a class that has a layout, there is only one path of primary bases to the target. -/
lemma eq_of_hasLayout {path' : List ClassId} (hp : h.IsPrimaryPath target c path)
    (hp' : h.IsPrimaryPath target c path') (hl : h.HasLayout policy c l) : path' = path := by
  -- both are what the search finds
  have hpath := hp.path_eq (hp.nodup_cons hl)
  rw [hp'.path_eq (hp'.nodup_cons hl)] at hpath
  exact Option.some.inj (Except.ok.inj hpath)

end IsPrimaryPath

/-- Upwards, a primary chain consists of primary bases: its first classes after the class itself are
a path of primary bases.

**Proof sketch.** Induction on the layout. The chain read upwards is the class followed by that of
its base, so the path takes one step to the base and goes on as for the base. -/
lemma HasLayout.isPrimaryPath_take (hl : h.HasLayout policy c l) {n : Nat}
    (hn : l.chain.reverse[n + 1]? = some target) :
    h.IsPrimaryPath target c (l.chain.reverse.tail.take (n + 1)) := by
  induction hl generalizing n with
  | root _ _ => simp at hn
  | @extend c d b base l hd hb _ _ hbl _ ih =>
    have hstep : h.PrimaryBase c base.cls := ⟨d, base, hd.find, hb, rfl⟩
    rw [Layout.reverse_chain_extend, List.getElem?_cons_succ] at hn
    rw [Layout.reverse_chain_extend, List.tail_cons, hbl.reverse_chain, List.take_succ_cons]
    cases n with
    | zero =>
      rw [hbl.reverse_chain] at hn
      obtain rfl : base.cls = target := by simpa using hn
      exact .last hstep
    | succ n => exact .step hstep (ih hn)

end Hierarchy

namespace SlotTable

variable {h : Hierarchy} {policy : SlotPolicy} {t : SlotTable} {c : ClassId}

/-- In a hierarchy that has a slot table, each class lists the other classes of its chain among its
ancestors. The path to such a class is the part of the chain from there to just below the class,
from the class upwards. These are the primary bases on the way, which are the only ones that lead
there, and the path is the same in every hierarchy that has these primary bases, whatever other
bases it declares.

**Proof sketch.** A class of the chain other than the class itself is at some place above it, so
`HasLayout.isPrimaryPath_take` gives a path of primary bases to it. By `exists_chain_eq` the path is
a part of the chain, and by `path_eq` it is what the search finds. -/
theorem primaryPath_of_build (hs : h.size < ClassId.limit) (ht : (build h policy).result = .ok t)
    (hc : h.IsDefined c) :
    ∃ chain, t.chain h c = .ok chain ∧ ∀ o ∈ chain, o ≠ c →
      h.hasAncestor c o = .ok true ∧
        ∃ above below, chain = above ++ o :: below ++ [c] ∧
          (∀ path, h.IsPrimaryPath o c path ↔ path = (o :: below).reverse) ∧
          h.path c o = .ok (some (o :: below).reverse) ∧
          ∀ h' : Hierarchy, (∀ a b, h.PrimaryBase a b → h'.PrimaryBase a b) →
            h'.path c o = .ok (some (o :: below).reverse) := by
  obtain ⟨-, hdescribes⟩ := describes_of_build hs ht
  obtain ⟨l, hl⟩ := hdescribes.exists_hasLayout hc
  obtain ⟨d, hd⟩ := Hierarchy.isDefined_iff.1 hc
  refine ⟨l.chain, hdescribes.chain_eq hl, fun o ho hne => ⟨?_, ?_⟩⟩
  · rw [Hierarchy.hasAncestor_eq hd, decide_eq_true (hl.mem_ancestors hd ho)]
  · obtain ⟨n, hn⟩ := List.mem_iff_getElem?.1 (List.mem_reverse.2 ho)
    cases n with
    | zero =>
      rw [hl.reverse_chain] at hn
      exact absurd (Option.some.inj hn).symm hne
    | succ n =>
      have hp := hl.isPrimaryPath_take hn
      have hnodup := hp.nodup_cons hl
      obtain ⟨above, below, hchain, hpath⟩ := hp.exists_chain_eq hl
      rw [hpath] at hp hnodup
      refine ⟨above, below, hchain, fun path => ⟨fun hp' => hp.eq_of_hasLayout hp' hl, ?_⟩,
        hp.path_eq hnodup, fun h' hsub => (hp.mono hsub).path_eq hnodup⟩
      rintro rfl
      exact hp

/-- On the way up from the class at the bottom, one class has the class at the top as a secondary
base, and another the class at the bottom. -/
theorem primaryPath_of_build_leaf :
    ∃ chain, Twisted.table.chain Twisted.hierarchy ⟨4⟩ = .ok chain ∧ ∀ o ∈ chain, o ≠ ⟨4⟩ →
      Twisted.hierarchy.hasAncestor ⟨4⟩ o = .ok true ∧
        ∃ above below, chain = above ++ o :: below ++ [⟨4⟩] ∧
          (∀ path, Twisted.hierarchy.IsPrimaryPath o ⟨4⟩ path ↔ path = (o :: below).reverse) ∧
          Twisted.hierarchy.path ⟨4⟩ o = .ok (some (o :: below).reverse) ∧
          ∀ h' : Hierarchy, (∀ a b, Twisted.hierarchy.PrimaryBase a b → h'.PrimaryBase a b) →
            h'.path ⟨4⟩ o = .ok (some (o :: below).reverse) :=
  primaryPath_of_build (by decide) Twisted.build_hierarchy (by decide)

-- the path passes the class that has the target as a secondary base, and goes on to its primary one
example : Twisted.hierarchy.path ⟨4⟩ ⟨1⟩ = .ok (some [⟨3⟩, ⟨2⟩, ⟨1⟩]) := by
  decide +kernel

end SlotTable

end GenericSlots
