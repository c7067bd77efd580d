import GenericSlots.Proofs.Slot.Construction
set_option autoImplicit false

/-!
# A slot table asked about another hierarchy

Questions to a slot table name a hierarchy, and nothing ensures that it is the one that the table
was made for. A table looks up layouts of its own and takes from the hierarchy only which classes
there are and what they are called. So whatever hierarchy is named, a question is answered as for
the hierarchy of the table, or refused because a class is missing.

## Main definitions

* `GenericSlots.SlotTable.Query`, `GenericSlots.SlotTable.Query.ask`: the questions to a slot table.
* `GenericSlots.SlotTable.Query.Lacks`: a class that is missing for a question to be answered.
* `GenericSlots.SlotError.withClass`: an error in which the class asked about has another name.

## Main results

* `GenericSlots.SlotTable.hasLayout_of_covers`: a class that a table covers has its layout.
* `GenericSlots.SlotTable.Query.ask_elsewhere`: what becomes of a question that names another
  hierarchy.
-/

namespace GenericSlots

/-! ## Questions -/

namespace SlotTable

/-- A question to a slot table. There is one constructor for each of the queries, with the arguments
that it takes besides the hierarchy. -/
inductive Query where
  /-- How many slots does a class have? -/
  | numSlots (c : ClassId)
  /-- How many slots does a class introduce? -/
  | ownSlots (c : ClassId)
  /-- What is the primary chain of a class? -/
  | chain (c : ClassId)
  /-- Which slot stores the type parameter at a position? -/
  | paramSlot (c : ClassId) (index : Nat)
  /-- Which type parameter does a slot come from? -/
  | slotOrigin (c : ClassId) (slot : Nat)

/-- An answer to a question to a slot table, whatever the kind of the question. -/
inductive Answer where
  /-- A slot or a number of slots. -/
  | number (n : Nat)
  /-- A primary chain. -/
  | classes (cs : List ClassId)
  /-- The type parameter of a class at a position. -/
  | param (c : ClassId) (index : Nat)
  deriving DecidableEq

namespace Query

/-- The class that a question is about. It is the first class that is looked up. -/
def cls : Query → ClassId
  | numSlots c | ownSlots c | chain c | paramSlot c _ | slotOrigin c _ => c

/-- Asks a table, where the hierarchy that is named need not be the one that the table was made
for. -/
def ask (t : SlotTable) (h : Hierarchy) : Query → Except (Failure SlotError) Answer
  | numSlots c => Answer.number <$> t.numSlots h c
  | ownSlots c => Answer.number <$> t.ownSlots h c
  | chain c => Answer.classes <$> t.chain h c
  | paramSlot c index => Answer.number <$> t.paramSlot h c index
  | slotOrigin c slot => (fun o => Answer.param o.1 o.2) <$> t.slotOrigin h c slot

end Query

/-- Whether a table holds a layout for a class. This depends on the table alone. -/
def Covers (t : SlotTable) (c : ClassId) : Prop :=
  c.index < t.layouts.size

/-- A class that is missing for a question to be answered: the class asked about, or the class that
introduced a slot. -/
inductive Query.Lacks (t : SlotTable) (h : Hierarchy) : Query → ClassId → Prop
  /-- The hierarchy lacks the class. -/
  | undefined {q : Query} (undefined : ¬h.IsDefined q.cls) : Lacks t h q q.cls
  /-- The table lacks the class. -/
  | uncovered {q : Query} (uncovered : ¬t.Covers q.cls) : Lacks t h q q.cls
  /-- The class and the slot are there, and the hierarchy lacks the class that introduced the slot.
  -/
  | origin {c : ClassId} {l : Layout} {slot : Nat} (defined : h.IsDefined c)
      (covered : t.layouts[c.index]? = some l) (inRange : slot < l.numSlots)
      (undefined : ¬h.IsDefined (l.originStage slot inRange).cls) :
      Lacks t h (.slotOrigin c slot) (l.originStage slot inRange).cls

end SlotTable

/-- The error that a question gives if the class that it is about has another name. Only the
complaints about numbers out of range mention this name. -/
def SlotError.withClass (name : String) : SlotError → SlotError
  | slotOutOfRange _ slot slots => slotOutOfRange name slot slots
  | parameterOutOfRange _ index parameters => parameterOutOfRange name index parameters
  | e => e

/-- The outcome of a question if the class that it is about has another name. Answers and faults
stay as they are. -/
def SlotTable.withClass {α : Type} (name : String) :
    Except (Failure SlotError) α → Except (Failure SlotError) α
  | .error (.error e) => .error (.error (e.withClass name))
  | outcome => outcome

namespace SlotTable

variable {t : SlotTable} {h h' : Hierarchy} {policy : SlotPolicy} {c : ClassId} {d d' : ClassDef}
  {l : Layout}

/-! ## Layouts -/

/-- A table has no more layouts than its hierarchy has classes. At the limit of identifiers it has
fewer. -/
lemma size_layouts_le (ht : (build h policy).result = .ok t) : t.layouts.size ≤ h.size := by
  rw [build, Run.result_bind, bind_eq_ok_iff] at ht
  obtain ⟨ls, hls, ht⟩ := ht
  rw [Run.result_bind, Run.result_report, ok_bind] at ht
  obtain rfl : SlotTable.mk policy (ls.filterMap id) = t := Except.ok.inj ht
  obtain ⟨hsound, -⟩ := Hierarchy.layOutChains_sound (Layouts.sound_replicate h policy) hls
  rw [← hsound.size_eq]
  exact Array.size_filterMap_le

/-- The table answers with the layout of a class wherever the class is defined, since the layout
itself is the table's own. -/
lemma layout_of_isDefined (hl : t.layout h c = .ok l) (hc : h'.IsDefined c) :
    t.layout h' c = .ok l := by
  rw [layout, if_pos (isDefined_of_layout hl)] at hl
  rw [layout, if_pos hc, hl]

/-- A class that is not defined, or not covered, is refused, and in both cases in the same words. -/
lemma layout_eq_refuse (hc : ¬(h'.IsDefined c ∧ t.Covers c)) :
    t.layout h' c = refuse (.undefinedClass c) := by
  by_cases hdef : h'.IsDefined c
  · have hnone : t.layouts[c.index]? = none :=
      Array.getElem?_eq_none (Nat.le_of_not_lt fun hlt => hc ⟨hdef, hlt⟩)
    rw [layout, if_pos hdef, hnone]
  · rw [layout, if_neg hdef]

/-- A class that the table covers has its layout, as the recursion along primary bases gives it. If
a table covers anything, it describes its hierarchy.

**Proof sketch.** There is a layout at the place of the class, and the class is defined, since there
are no more layouts than classes. So the table answers with this layout, which means that it
describes its hierarchy. -/
theorem hasLayout_of_covers (hs : h.size ≤ ClassId.limit) (ht : (build h policy).result = .ok t)
    (hc : t.Covers c) :
    ∃ l, t.layouts[c.index]? = some l ∧ t.Describes h ∧ h.HasLayout t.policy c l := by
  have hdef : h.IsDefined c := Nat.lt_of_lt_of_le hc (size_layouts_le ht)
  have hget := Array.getElem?_eq_getElem hc
  have hl : t.layout h c = .ok t.layouts[c.index] := by rw [layout, if_pos hdef, hget]
  obtain ⟨-, hdescribes⟩ := describes_of_layout hs ht hl
  obtain ⟨l, hlayout⟩ := hdescribes.exists_hasLayout hdef
  obtain rfl := Except.ok.inj (hl.symm.trans (hdescribes.layout_eq hlayout))
  exact ⟨_, hget, hdescribes, hlayout⟩

/-! ## Outcomes -/

/-- A question is refused if the class that it is about is missing, because all questions begin by
looking up its layout. -/
private lemma Query.ask_of_refuse {q : Query} {e : SlotError}
    (hl : t.layout h' q.cls = refuse e) : q.ask t h' = refuse e := by
  cases q with
  | numSlots c | ownSlots c | chain c | paramSlot c index | slotOrigin c slot =>
    simp only [cls] at hl
    simp only [ask, SlotTable.numSlots, SlotTable.ownSlots, SlotTable.chain, SlotTable.paramSlot,
      SlotTable.slotOrigin, hl]
    rfl

/-- A question that lacks a class is refused, naming the class.

**Proof sketch.** If the class asked about is missing in the hierarchy or in the table, its layout
is refused. If the class that introduced a slot is missing, the layout of the class asked about is
found, the slot is in range, and the second look-up is refused. -/
lemma Query.Lacks.ask_eq {q : Query} (hlack : q.Lacks t h' c) :
    q.ask t h' = refuse (.undefinedClass c) := by
  cases hlack with
  | undefined hundefined => exact ask_of_refuse (layout_eq_refuse fun hq => hundefined hq.1)
  | uncovered huncovered => exact ask_of_refuse (layout_eq_refuse fun hq => huncovered hq.2)
  | @origin c l slot hc hget hs ho =>
    have hl : t.layout h' c = .ok l := by rw [layout, if_pos hc, hget]
    have hrefused := t.layout_eq_refuse (fun hdef => ho hdef.1)
    simp only [ask, SlotTable.slotOrigin, hl, ok_bind, dif_pos hs, hrefused]
    rfl

/-- An answer, or the complaint that a number in the question is out of range. So no class is
missing, nothing is unmapped, and there is no fault. -/
inductive Settled : Except (Failure SlotError) Answer → Prop
  /-- The question is answered. -/
  | answer (a : Answer) : Settled (.ok a)
  /-- The class has no such slot. -/
  | slotOutOfRange (name : String) (slot slots : Nat) :
      Settled (refuse (.slotOutOfRange name slot slots))
  /-- The class has no such type parameter. -/
  | parameterOutOfRange (name : String) (index parameters : Nat) :
      Settled (refuse (.parameterOutOfRange name index parameters))

/-- Another name for the class does not unsettle a question. -/
lemma Settled.withClass {x : Except (Failure SlotError) Answer} (hx : Settled x)
    (name : String) : Settled (withClass name x) := by
  cases hx with
  | answer a => exact .answer a
  | slotOutOfRange _ slot slots => exact .slotOutOfRange name slot slots
  | parameterOutOfRange _ index parameters => exact .parameterOutOfRange name index parameters

/-- A question that lacks no class is settled, and in the same way for every hierarchy that has the
classes, up to the name of the class asked about.

**Proof sketch.** By the kinds of questions. The layouts that are looked up are those of the table,
whatever the hierarchy. A slot that is in range has an origin, whose layout has the slot, so no slot
turns out to be unmapped. A number that is out of range is refused with the name that the hierarchy
has for the class. -/
lemma Query.ask_of_not_lacks {q : Query} (ht : t.Describes h)
    (hget : t.layouts[q.cls.index]? = some l) (hl : h.HasLayout t.policy q.cls l)
    (hd : h.find? q.cls = some d) (hd' : h'.find? q.cls = some d')
    (hnot : ∀ o, ¬q.Lacks t h' o) :
    Settled (q.ask t h) ∧ q.ask t h' = withClass d'.name (q.ask t h) := by
  have hlayout := ht.layout_eq hl
  have hc : h'.IsDefined q.cls := Hierarchy.isDefined_iff.2 ⟨d', hd'⟩
  have hlayout' := layout_of_isDefined hlayout hc
  cases q with
  | numSlots c | ownSlots c | chain c =>
    simp only [cls] at hlayout hlayout'
    simp only [ask, SlotTable.numSlots, SlotTable.ownSlots, SlotTable.chain, hlayout, hlayout']
    exact ⟨.answer _, rfl⟩
  | paramSlot c index =>
    simp only [cls] at hlayout hlayout' hd hd'
    simp only [ask, SlotTable.paramSlot, hlayout, hlayout', ok_bind]
    cases l.paramSlots[index]? with
    | some slot => exact ⟨.answer _, rfl⟩
    | none =>
      simp only [Hierarchy.nameOf_eq hd, Hierarchy.nameOf_eq hd', liftM_ok, ok_bind]
      exact ⟨.parameterOutOfRange _ _ _, rfl⟩
  | slotOrigin c slot =>
    simp only [cls] at hget hlayout hlayout' hd hd' hl hc
    by_cases hs : slot < l.numSlots
    · obtain ⟨o, -, k, horigin, -⟩ := ht.exists_slotOrigin hl hs
      obtain ⟨l₁, lo, hl₁, ⟨hs₁, rfl⟩, hlo, hk⟩ := slotOrigin_eq_ok_iff.1 horigin
      obtain rfl := Except.ok.inj (hlayout.symm.trans hl₁)
      have ho : h'.IsDefined (l.originStage slot hs).cls := by
        by_contra ho
        exact hnot _ (.origin hc hget hs ho)
      have horigin' := slotOrigin_eq_ok_iff.2
        ⟨l, lo, hlayout', ⟨hs, rfl⟩, layout_of_isDefined hlo ho, hk⟩
      rw [ask, ask, horigin, horigin']
      exact ⟨.answer _, rfl⟩
    · simp only [ask, SlotTable.slotOrigin, hlayout, hlayout', ok_bind, dif_neg hs,
        Hierarchy.nameOf_eq hd, Hierarchy.nameOf_eq hd', liftM_ok]
      exact ⟨.slotOutOfRange _ _ _, rfl⟩

/-- What is looked up in a layout is there: a class has at least the slots that it inherits, and
each of its slots was introduced in its chain. -/
structure WithinBounds (l : Layout) : Prop where
  /-- A class has at least the slots that it inherits. -/
  inheritedSlots_le : l.inheritedSlots ≤ l.numSlots
  /-- Each slot was introduced in the chain. -/
  originIndex_lt : ∀ slot < l.numSlots, l.originIndex slot < l.chain.length

/-- The layouts of a table can be asked for anything. Each of them is the layout of some class, so
its stages ascend and the bisection ends within the chain.

**Proof sketch.** The place of a layout is that of an identifier, since there are no more layouts
than identifiers. The table covers this class, so the layout is the one that recursion gives, and
such a layout is within bounds. -/
lemma withinBounds_of_build (hs : h.size ≤ ClassId.limit) (ht : (build h policy).result = .ok t) :
    ∀ l ∈ t.layouts, WithinBounds l := by
  intro l hmem
  obtain ⟨n, hn, rfl⟩ := Array.mem_iff_getElem.1 hmem
  have hlimit : n < ClassId.limit := Nat.lt_of_lt_of_le hn (Nat.le_trans (size_layouts_le ht) hs)
  have hindex := ClassId.index_ofIndex hlimit
  have hcov : t.Covers (.ofIndex n) := by rwa [Covers, hindex]
  obtain ⟨l, hget, -, hl⟩ := hasLayout_of_covers hs ht hcov
  rw [hindex, Array.getElem?_eq_getElem hn] at hget
  obtain rfl := Option.some.inj hget
  exact ⟨hl.inheritedSlots_le, fun slot hslot => by
    rw [Layout.length_chain]
    exact Layout.originIndex_lt hslot⟩

/-- A question that names any other hierarchy than that of the table ends neither in a fault nor in
the complaint that a slot is unmapped. It is refused for a class that is missing exactly if it lacks
the class, and otherwise has the outcome that it has for the hierarchy of the table, with the name
that the class asked about has in the other hierarchy. Nothing is looked up that is not there.

**Proof sketch.** If the question lacks a class, it is refused for this class and no other, since it
has one outcome only. If it lacks none, the class is covered and defined, so the table describes its
own hierarchy, and the question is settled by `Query.ask_of_not_lacks`. -/
theorem Query.ask_elsewhere (hs : h.size ≤ ClassId.limit) (ht : (build h policy).result = .ok t)
    (h' : Hierarchy) (q : Query) :
    (∀ f, q.ask t h' ≠ .error (.fault f)) ∧
      (∀ name slot, q.ask t h' ≠ refuse (.unmappedSlot name slot)) ∧
      (∀ c, q.ask t h' = refuse (.undefinedClass c) ↔ q.Lacks t h' c) ∧
      ((∀ c, ¬q.Lacks t h' c) →
        ∃ d, h'.find? q.cls = some d ∧ q.ask t h' = withClass d.name (q.ask t h)) ∧
      ∀ l ∈ t.layouts, WithinBounds l := by
  by_cases hlack : ∃ c, q.Lacks t h' c
  · obtain ⟨c, hlack⟩ := hlack
    rw [hlack.ask_eq]
    refine ⟨?_, ?_, ?_, fun hnot => absurd hlack (hnot c), withinBounds_of_build hs ht⟩
    · intro f hf
      cases hf
    · intro name slot hunmapped
      cases hunmapped
    · intro o
      constructor
      · intro heq
        cases heq
        exact hlack
      · intro hlack'
        rw [← hlack.ask_eq, hlack'.ask_eq]
  · have hnot : ∀ c, ¬q.Lacks t h' c := not_exists.1 hlack
    have hcov : t.Covers q.cls := Classical.not_not.1 fun hcov => hnot _ (.uncovered hcov)
    have hdef : h'.IsDefined q.cls := Classical.not_not.1 fun hdef => hnot _ (.undefined hdef)
    obtain ⟨l, hget, hdescribes, hl⟩ := hasLayout_of_covers hs ht hcov
    obtain ⟨d, hd⟩ := hl.checked
    obtain ⟨d', hd'⟩ := Hierarchy.isDefined_iff.1 hdef
    obtain ⟨hsettled, hask⟩ := ask_of_not_lacks hdescribes hget hl hd.find hd' hnot
    have hsettled' := hsettled.withClass d'.name
    rw [← hask] at hsettled'
    refine ⟨?_, ?_, ?_, fun _ => ⟨d', hd', hask⟩, withinBounds_of_build hs ht⟩
    · intro f hf
      rw [hf] at hsettled'
      cases hsettled'
    · intro name slot hunmapped
      rw [hunmapped] at hsettled'
      cases hsettled'
    · intro c
      refine iff_of_false (fun hundefined => ?_) (hnot c)
      rw [hundefined] at hsettled'
      cases hsettled'

end SlotTable

/-! ## A hierarchy that lacks the origin of a slot -/

namespace Crated

/-- A class that extends one defined after it, so that its slot comes from a class with a larger
identifier. -/
def hierarchy : Hierarchy where
  classes := #[.fresh "object" .object, ⟨"Crate", false, [], [⟨⟨2⟩, [.any]⟩], [⟨1⟩, ⟨2⟩]⟩,
    ⟨"Box", false, [⟨"T", ⟨1⟩⟩], [], [⟨2⟩]⟩]
  names := ∅

/-- The slots of the classes, where `Crate` has the slot of `Box`. -/
def table : SlotTable where
  policy := .appended
  layouts := #[⟨#[⟨⟨0⟩, 0⟩], []⟩, ⟨#[⟨⟨2⟩, 1⟩, ⟨⟨1⟩, 1⟩], []⟩, ⟨#[⟨⟨2⟩, 1⟩], [0]⟩]

/-- The table is the one that laying out the hierarchy gives, by evaluation. -/
lemma build_hierarchy : (SlotTable.build hierarchy .appended).result = .ok table := by
  decide +kernel

/-- A hierarchy with another class in the place of `Crate`, and none in that of `Box`. -/
def other : Hierarchy where
  classes := #[.fresh "object" .object, .fresh "Bag" ⟨1⟩]
  names := ∅

end Crated

/-- The slot of `Crate` comes from `Box`, which the other hierarchy lacks. The question about it has
an answer in the one hierarchy and is refused in the other. -/
theorem SlotTable.Query.ask_elsewhere_crate :
    (slotOrigin ⟨1⟩ 0).ask Crated.table Crated.hierarchy = .ok (.param ⟨2⟩ 0) ∧
      (slotOrigin ⟨1⟩ 0).ask Crated.table Crated.other = refuse (.undefinedClass ⟨2⟩) ∧
      (∀ f, (slotOrigin ⟨1⟩ 0).ask Crated.table Crated.other ≠ .error (.fault f)) ∧
      (∀ name slot, (slotOrigin ⟨1⟩ 0).ask Crated.table Crated.other ≠
        refuse (.unmappedSlot name slot)) ∧
      (∀ c, (slotOrigin ⟨1⟩ 0).ask Crated.table Crated.other = refuse (.undefinedClass c) ↔
        (slotOrigin ⟨1⟩ 0).Lacks Crated.table Crated.other c) ∧
      ((∀ c, ¬(slotOrigin ⟨1⟩ 0).Lacks Crated.table Crated.other c) →
        ∃ d, Crated.other.find? (slotOrigin ⟨1⟩ 0).cls = some d ∧
          (slotOrigin ⟨1⟩ 0).ask Crated.table Crated.other =
            withClass d.name ((slotOrigin ⟨1⟩ 0).ask Crated.table Crated.hierarchy)) ∧
      ∀ l ∈ Crated.table.layouts, WithinBounds l :=
  ⟨by decide +kernel, by decide +kernel,
    ask_elsewhere (by decide) Crated.build_hierarchy Crated.other (slotOrigin ⟨1⟩ 0)⟩

end GenericSlots
