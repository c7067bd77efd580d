import GenericSlots.Proofs.Slot.Elsewhere
import GenericSlots.Proofs.Slot.Validation
set_option autoImplicit false

/-!
# The order in which classes are laid out

Climbs start from each class in turn, stop at classes that are laid out already, and are then laid
out from the top down. So the classes are laid out in an order that is neither that of identifiers
nor that of declarations. What a run reports shows this order: no class comes twice, and none comes
before its primary base. This is also true of a run that is cut short by an error.

## Main definitions

* `GenericSlots.Hierarchy.BasesFirst`: classes in an order in which primary bases come first.
* `GenericSlots.Hierarchy.Progress`: what is laid out and reported at some point of a run.
* `GenericSlots.Record.Tells`: a record of the number of slots of a class.

## Main results

* `GenericSlots.Hierarchy.Progress.step`: laying out one more class.
* `GenericSlots.Hierarchy.Progress.layOutAll`, `GenericSlots.Hierarchy.Progress.layOutChains`: any
  number of classes, up to an error.
* `GenericSlots.SlotTable.records_of_build`: what is recorded of laying out a hierarchy.
-/

namespace GenericSlots

namespace Hierarchy

open Relation (ReflTransGen)

variable {h : Hierarchy} {policy : SlotPolicy} {ls : Layouts} {c : ClassId} {l : Layout}

/-! ## Primary bases first -/

/-- Classes in an order in which each comes after the class of its primary base, and none comes
twice. There may be many such orders. -/
structure BasesFirst (h : Hierarchy) (cs : List ClassId) : Prop where
  /-- No class comes twice. -/
  nodup : cs.Nodup
  /-- The class of a primary base comes before. -/
  base : ∀ before c after, cs = before ++ c :: after → ∀ b, h.PrimaryBase c b → b ∈ before

/-- No classes are in such an order. -/
lemma basesFirst_nil : h.BasesFirst [] where
  nodup := List.nodup_nil
  base before c after heq := by simp at heq

/-- A class may come next if its primary base came before.

**Proof sketch.** A class of the longer list is one of those before, for which nothing changes, or
the one that was added. -/
lemma BasesFirst.append_singleton {cs : List ClassId} (hcs : h.BasesFirst cs) (hnew : c ∉ cs)
    (hbase : ∀ b, h.PrimaryBase c b → b ∈ cs) : h.BasesFirst (cs ++ [c]) where
  nodup := List.nodup_append.2 ⟨hcs.nodup, by simp, fun a ha b hb => by
    rw [List.mem_singleton.1 hb]
    exact fun heq => hnew (heq ▸ ha)⟩
  base before d after heq := by
    rcases List.eq_nil_or_concat' after with rfl | ⟨after, e, rfl⟩
    · obtain ⟨rfl, hd⟩ := List.append_inj' heq rfl
      obtain rfl : c = d := by simpa using hd
      exact hbase
    · rw [← List.cons_append, ← List.append_assoc] at heq
      exact hcs.base before d after (List.append_inj' heq rfl).1

/-! ## One class -/

/-- A class that is laid out has a primary base that is laid out, because its layout extends that of
the base. -/
lemma isSome_of_layOut (hok : h.layOut policy ls c = .ok l) {b : ClassId}
    (hb : h.PrimaryBase c b) : (ls.of? b).isSome := by
  obtain ⟨d, base, hd, hbase, rfl⟩ := hb
  obtain ⟨d', hchecked, hcases⟩ := layOut_eq_ok_iff.1 hok
  obtain rfl := Option.some.inj (hd.symm.trans hchecked.find)
  rcases hcases with ⟨hnone, -⟩ | ⟨base', -, lb, hbase', -, -, hlb, -⟩
  · cases hbase.symm.trans hnone
  · obtain rfl := Option.some.inj (hbase.symm.trans hbase')
    rw [hlb]
    rfl

/-- A climb passes no class twice and none that is laid out.

**Proof sketch.** By the recursion of the climb, which goes on from a class only if the class is
neither laid out nor passed. If the climb fails, there is nothing to show. -/
lemma fresh_of_climb {walk w : List ClassId} (hnodup : walk.Nodup)
    (hnone : ∀ a ∈ walk, ls.of? a = none) (hok : h.climb ls walk c = .ok w) :
    w.Nodup ∧ ∀ a ∈ w, ls.of? a = none := by
  fun_induction climb h ls walk c with
  | case1 walk c hsome =>
    obtain rfl : walk = w := Except.ok.inj hok
    exact ⟨hnodup, hnone⟩
  | case2 walk c hc hfresh ih =>
    have hnodup' : (c :: walk).Nodup := List.nodup_cons.2 ⟨hfresh.2, hnodup⟩
    have hnone' : ∀ a ∈ c :: walk, ls.of? a = none := by
      intro a ha
      rcases List.mem_cons.1 ha with rfl | ha
      · simpa using hc
      · exact hnone a ha
    obtain ⟨d, -, hok⟩ := bind_eq_ok_iff.1 hok
    cases hb : d.primaryBase? with
    | none =>
      simp only [hb] at hok
      obtain rfl : c :: walk = w := Except.ok.inj hok
      exact ⟨hnodup', hnone'⟩
    | some base =>
      simp only [hb] at hok
      by_cases hdef : h.IsDefined base.cls
      · rw [if_pos hdef] at hok
        exact ih base hnodup' hnone' hok
      · rw [if_neg hdef] at hok
        cases hok
  | case3 walk c hc hstale =>
    obtain ⟨name, -, hok⟩ := bind_eq_ok_iff.1 hok
    cases hok

/-- The event tells that a class was laid out, and how many slots it has. -/
def Reports (h : Hierarchy) (policy : SlotPolicy) (c : ClassId) (e : Event) : Prop :=
  ∃ l, h.HasLayout policy c l ∧ e = .layoutComputed c l.numSlots

/-- What is laid out and reported at some point of a run: the layouts are those of the classes laid
out so far, which came in an order in which primary bases come first, and each was reported when its
turn came. This is the invariant of the run. -/
structure Progress (h : Hierarchy) (policy : SlotPolicy) (ls : Layouts) (order : List ClassId)
    (log : List Event) : Prop where
  /-- The layouts are those that recursion gives. -/
  sound : ls.Sound h policy
  /-- Primary bases come first. -/
  basesFirst : h.BasesFirst order
  /-- The classes with layouts are those that were laid out. -/
  mem_iff : ∀ c, c ∈ order ↔ (ls.of? c).isSome
  /-- Each class is reported in its turn. -/
  reports : List.Forall₂ (h.Reports policy) order log

/-- Nothing is laid out and reported at first. -/
lemma progress_replicate (h : Hierarchy) (policy : SlotPolicy) :
    h.Progress policy (Array.replicate h.size none) [] [] where
  sound := Layouts.sound_replicate h policy
  basesFirst := basesFirst_nil
  mem_iff c := by
    rw [Layouts.of?, Array.getElem?_replicate]
    split <;> simp
  reports := .nil

namespace Progress

variable {order : List ClassId} {log : List Event}

/-- Laying out one more class keeps the invariant: the class comes last in the order and last among
the reports.

**Proof sketch.** The class is given its layout, so the layouts stay sound. It was not laid out
before, and its primary base was, so the order is still one in which bases come first. The classes
with layouts are those of before and the new one. -/
theorem step (hp : h.Progress policy ls order log) (hnone : ls.of? c = none)
    (hok : h.layOut policy ls c = .ok l) :
    h.Progress policy (ls.setIfInBounds c.index (some l)) (order ++ [c])
      (log ++ [.layoutComputed c l.numSlots]) := by
  have hl := hasLayout_of_layOut hp.sound hok
  have hnew : c ∉ order := fun hc => by simpa [hnone] using (hp.mem_iff c).1 hc
  refine ⟨hp.sound.set hl, ?_, fun a => ?_, ?_⟩
  · exact hp.basesFirst.append_singleton hnew fun b hb =>
      (hp.mem_iff b).2 (isSome_of_layOut hok hb)
  · rw [Layouts.of?_set (hp.sound.index_lt hl), List.mem_append, List.mem_singleton, hp.mem_iff]
    by_cases hca : c = a
    · simp [hca]
    · simp [hca, Ne.symm hca]
  · exact List.rel_append hp.reports (.cons ⟨l, hl, rfl⟩ .nil)

/-- Laying out classes one after another, up to an error, keeps the invariant. If there is an error,
the invariant holds of the classes before it.

**Proof sketch.** By induction on the classes. If the first one is refused, nothing more is
reported. Otherwise the invariant holds after one step, and the other classes are still not laid
out, since they differ from the first. -/
theorem layOutAll {cs : List ClassId} (hp : h.Progress policy ls order log) (hnodup : cs.Nodup)
    (hnone : ∀ c ∈ cs, ls.of? c = none) :
    ∃ ls' order', h.Progress policy ls' order' (log ++ (h.layOutAll policy ls cs).log) ∧
      ∀ ls'', (h.layOutAll policy ls cs).result = .ok ls'' → ls'' = ls' := by
  induction cs generalizing ls order log with
  | nil =>
    refine ⟨ls, order, ?_, fun ls'' hok => (Except.ok.inj hok).symm⟩
    rwa [Hierarchy.layOutAll, Run.log_pure, List.append_nil]
  | cons c cs ih =>
    obtain ⟨hc, hnodup⟩ := List.nodup_cons.1 hnodup
    rw [Hierarchy.layOutAll]
    cases hl : h.layOut policy ls c with
    | error f =>
      refine ⟨ls, order, ?_, fun ls'' hok => ?_⟩
      · simpa [Run.log_bind] using hp
      · rw [Run.result_bind] at hok
        cases hok
    | ok l =>
      have hlt := hp.sound.index_lt (hasLayout_of_layOut hp.sound hl)
      have hp' := hp.step (hnone c List.mem_cons_self) hl
      have hnone' : ∀ a ∈ cs, Layouts.of? (ls.setIfInBounds c.index (some l)) a = none := by
        intro a ha
        have hne : c ≠ a := fun heq => hc (heq ▸ ha)
        rw [Layouts.of?_set hlt, if_neg hne]
        exact hnone a (List.mem_cons_of_mem _ ha)
      obtain ⟨ls', order', hrest, hresult⟩ := ih hp' hnodup hnone'
      refine ⟨ls', order', ?_, hresult⟩
      rw [List.append_assoc] at hrest
      exact hrest

/-- Laying out classes with their primary chains, up to an error, keeps the invariant.

**Proof sketch.** By induction on the classes. A climb reports nothing and passes classes that are
not laid out, none of them twice, so `layOutAll` applies to them. If the climb or one of its classes
fails, the run ends there, and otherwise it goes on with the invariant. -/
theorem layOutChains (hp : h.Progress policy ls order log) (cs : List ClassId) :
    ∃ ls' order', h.Progress policy ls' order' (log ++ (h.layOutChains policy ls cs).log) ∧
      ∀ ls'', (h.layOutChains policy ls cs).result = .ok ls'' → ls'' = ls' := by
  induction cs generalizing ls order log with
  | nil =>
    refine ⟨ls, order, ?_, fun ls'' hok => (Except.ok.inj hok).symm⟩
    rwa [Hierarchy.layOutChains, Run.log_pure, List.append_nil]
  | cons c cs ih =>
    rw [Hierarchy.layOutChains]
    cases hw : h.climb ls [] c with
    | error f =>
      refine ⟨ls, order, ?_, fun ls'' hok => ?_⟩
      · simpa [Run.log_bind] using hp
      · rw [Run.result_bind] at hok
        cases hok
    | ok w =>
      obtain ⟨hnodup, hnone⟩ := fresh_of_climb List.nodup_nil (by simp) hw
      obtain ⟨ls₁, order₁, hp₁, hresult₁⟩ := hp.layOutAll hnodup hnone
      rw [Run.liftM_ok_bind]
      cases hall : (h.layOutAll policy ls w).result with
      | error f =>
        refine ⟨ls₁, order₁, ?_, fun ls'' hok => ?_⟩
        · simpa [Run.log_bind, hall] using hp₁
        · rw [Run.result_bind, hall] at hok
          cases hok
      | ok ls₂ =>
        obtain rfl := hresult₁ ls₂ hall
        obtain ⟨ls', order', hp', hresult⟩ := ih hp₁
        refine ⟨ls', order', ?_, fun ls'' hok => hresult ls'' ?_⟩
        · rw [List.append_assoc] at hp'
          rwa [Run.log_bind, hall]
        · rwa [Run.result_bind, hall] at hok

end Progress

end Hierarchy

/-! ## What is recorded -/

/-- The record that a class of the given name was laid out, with the given number of slots. -/
def Record.laidOut (name : String) (slots : Nat) : Record :=
  ⟨.trace, s!"'{name}' uses {slots} slot(s)"⟩

/-- The record that a number of classes were laid out by a policy. -/
def Record.allLaidOut (classes : Nat) (policy : SlotPolicy) : Record :=
  ⟨.debug, s!"computed the slot layouts of {classes} classes using the {policy.name} policy"⟩

/-- The record tells that the class was laid out, with a number of slots that it has. What it means
to have a number of slots is left open, since a run that fails has no table. -/
def Record.Tells (h : Hierarchy) (slots : ClassId → Nat → Prop) (c : ClassId) (r : Record) : Prop :=
  ∃ d n, h.find? c = some d ∧ slots c n ∧ r = .laidOut d.name n

namespace SlotTable

open Relation (ReflTransGen)

variable {h : Hierarchy} {policy : SlotPolicy} {t : SlotTable} {order : List ClassId}
  {log : List Event}

/-- Classes that are reported to be laid out are recorded in that order, before all else.

**Proof sketch.** By induction on the reports. Each of them is recorded at this verbosity, and has a
text, since the class is defined. -/
private lemma exists_records {ε α : Type} (result : Except (Failure ε) α) (rest : List Event)
    (hlog : List.Forall₂ (h.Reports policy) order log) :
    ∃ records, List.Forall₂
        (Record.Tells h fun c n => ∃ l, h.HasLayout policy c l ∧ n = l.numSlots) order records ∧
      (Run.recordAll h .trace result (log ++ rest)).log =
        records ++ (Run.recordAll h .trace result rest).log := by
  induction hlog with
  | nil => exact ⟨[], .nil, rfl⟩
  | @cons c e order log he _ ih =>
    obtain ⟨l, hl, rfl⟩ := he
    obtain ⟨d, hd⟩ := hl.checked
    obtain ⟨records, htells, hrecords⟩ := ih
    have htext : (Event.layoutComputed c l.numSlots).text h =
        .ok s!"'{d.name}' uses {l.numSlots} slot(s)" := by
      rw [Event.text, Hierarchy.nameOf_eq hd.find]
      rfl
    have hrecorded : Verbosity.trace.records (Event.layoutComputed c l.numSlots).severity = true :=
      rfl
    refine ⟨.laidOut d.name l.numSlots :: records,
      .cons ⟨d, _, hd.find, ⟨l, hl, rfl⟩, rfl⟩ htells, ?_⟩
    rw [List.cons_append, Run.recordAll, if_pos hrecorded, htext, List.cons_append, ← hrecords]
    rfl

/-- A table has a layout for each class of its hierarchy, below the limit of identifiers. If it had
fewer, the first class that it lacks would have none. -/
lemma size_layouts_eq (hs : h.size < ClassId.limit) (ht : (build h policy).result = .ok t) :
    t.layouts.size = h.size := by
  refine Nat.le_antisymm (size_layouts_le ht) (Nat.le_of_not_lt fun hlt => ?_)
  have hindex := ClassId.index_ofIndex (Nat.lt_trans hlt hs)
  obtain ⟨l, hl, -⟩ := (describes_of_build hs ht).2 (.ofIndex t.layouts.size) (by
    rwa [Hierarchy.IsDefined, hindex])
  rw [hindex, Array.getElem?_eq_none (Nat.le_refl _)] at hl
  cases hl

/-- What laying out a hierarchy reports: the classes that are laid out, and their number once all of
them are.

**Proof sketch.** The invariant holds at first and is kept up to an error. If there is one, nothing
more is reported. Otherwise the number of layouts is reported at the end. -/
lemma exists_progress_of_build (h : Hierarchy) (policy : SlotPolicy) :
    ∃ ls order log, h.Progress policy ls order log ∧
      ((∃ f, (build h policy).result = .error f ∧ (build h policy).log = log) ∨
        ∃ t, (build h policy).result = .ok t ∧ t.layouts = ls.filterMap id ∧
          (h.layOutChains policy (Array.replicate h.size none) h.classIds).result = .ok ls ∧
          (build h policy).log = log ++ [.tableComputed t.layouts.size policy]) := by
  obtain ⟨ls, order, hp, hresult⟩ :=
    (Hierarchy.progress_replicate h policy).layOutChains h.classIds
  refine ⟨ls, order, _, hp, ?_⟩
  rw [build, Run.result_bind, Run.log_bind, List.nil_append]
  cases hls : (h.layOutChains policy (Array.replicate h.size none) h.classIds).result with
  | error f => exact Or.inl ⟨f, rfl, List.append_nil _⟩
  | ok ls' =>
    obtain rfl := hresult ls' hls
    exact Or.inr ⟨_, rfl, rfl, rfl, rfl⟩

/-- While steps are recorded, a hierarchy that is accepted leaves one record for each class, with
its number of slots, after that of its primary base, and then one with the number of classes. One
that is refused leaves only records for different classes, each after that of its primary base, and
for these classes nothing is wrong with their primary chains.

**Proof sketch.** Recording does not change the result, and what is reported is given by the
invariant. If the hierarchy is accepted, all classes are covered, and the number of slots of each is
what the table answers. If it is refused, the classes laid out so far have layouts, and so have all
classes of their chains, which are therefore valid. -/
theorem records_of_build (hs : h.size < ClassId.limit) (policy : SlotPolicy) :
    (∀ t, ((build h policy).observe h .trace).result = .ok t →
      ∃ order records, h.BasesFirst order ∧ (∀ c, c ∈ order ↔ h.IsDefined c) ∧
        List.Forall₂ (Record.Tells h fun c n => t.numSlots h c = .ok n) order records ∧
        ((build h policy).observe h .trace).log = records ++ [.allLaidOut h.size policy]) ∧
    ∀ f, ((build h policy).observe h .trace).result = .error f →
      ∃ order, h.BasesFirst order ∧
        (∀ c ∈ order, ∀ a, ReflTransGen h.PrimaryBase c a →
          ∃ d, h.find? a = some d ∧ h.Valid a d) ∧
        List.Forall₂ (Record.Tells h fun c n => ∃ l, h.HasLayout policy c l ∧ n = l.numSlots) order
          ((build h policy).observe h .trace).log := by
  rw [(legible_build h policy).result_observe]
  obtain ⟨ls, order, log, hp, hcases⟩ := exists_progress_of_build h policy
  constructor
  · intro t ht
    obtain ⟨hpolicy, hdescribes⟩ := describes_of_build hs ht
    rcases hcases with ⟨f, hf, -⟩ | ⟨t', ht', -, hls, hlog⟩
    · cases ht.symm.trans hf
    · obtain rfl := Except.ok.inj (ht.symm.trans ht')
      obtain ⟨-, hcover⟩ := Hierarchy.layOutChains_sound (Layouts.sound_replicate h policy) hls
      obtain ⟨records, htells, hrecords⟩ :=
        exists_records (build h policy).result [.tableComputed t.layouts.size policy] hp.reports
      refine ⟨order, records, hp.basesFirst, fun c => ?_, ?_, ?_⟩
      · rw [hp.mem_iff]
        constructor
        · intro hsome
          obtain ⟨l, hl⟩ := Option.isSome_iff_exists.1 hsome
          obtain ⟨d, hd⟩ := (hp.sound.hasLayout c l hl).checked
          exact Hierarchy.isDefined_iff.2 ⟨d, hd.find⟩
        · exact fun hc => hcover c (Or.inl ((Hierarchy.mem_classIds hs).2 hc))
      · refine htells.imp ?_
        rintro c r ⟨d, n, hd, ⟨l, hl, rfl⟩, rfl⟩
        exact ⟨d, _, hd, hdescribes.numSlots_eq (hpolicy ▸ hl), rfl⟩
      · rw [Run.observe, hlog, hrecords, size_layouts_eq hs ht]
        rfl
  · intro f hf
    rcases hcases with ⟨-, -, hlog⟩ | ⟨t, ht, -⟩
    · obtain ⟨records, htells, hrecords⟩ :=
        exists_records (build h policy).result [] hp.reports
      refine ⟨order, hp.basesFirst, fun c hc a hmet => ?_, ?_⟩
      · obtain ⟨l, hl⟩ := Option.isSome_iff_exists.1 ((hp.mem_iff c).1 hc)
        have hlayout := hp.sound.hasLayout c l hl
        obtain ⟨la, hla, -⟩ := hlayout.of_mem_chain (hlayout.mem_chain_iff.2 hmet)
        obtain ⟨d, hd⟩ := hla.checked
        exact ⟨d, hd.find, hla.valid hd.find⟩
      · rw [List.append_nil] at hrecords
        rw [Run.observe, hlog, hrecords]
        simpa [Run.recordAll] using htells
    · cases hf.symm.trans ht

/-- A hierarchy whose class `Leaf` does not list its primary base among its ancestors. So it is
refused, but only when the turn of `Leaf` comes. -/
def unlisted : Hierarchy :=
  ((Hierarchy.initial.add "Leaf").add "Base").update ⟨1⟩
    fun d => { d with bases := d.bases ++ [⟨⟨2⟩, []⟩] }

/-- A hierarchy that is accepted, and one that is refused after a climb from `Leaf` has laid out
`Base`. -/
theorem records_of_build_unlisted :
    ((build Twisted.hierarchy .shared).observe Twisted.hierarchy .trace).result =
        .ok Twisted.table ∧
      (∃ order records, Twisted.hierarchy.BasesFirst order ∧
        (∀ c, c ∈ order ↔ Twisted.hierarchy.IsDefined c) ∧
        List.Forall₂ (Record.Tells Twisted.hierarchy fun c n =>
          Twisted.table.numSlots Twisted.hierarchy c = .ok n) order records ∧
        ((build Twisted.hierarchy .shared).observe Twisted.hierarchy .trace).log =
          records ++ [.allLaidOut Twisted.hierarchy.size .shared]) ∧
      ((build unlisted .shared).observe unlisted .trace).result =
        .error (.error (.invalidAncestors "Leaf")) ∧
      ∃ order, unlisted.BasesFirst order ∧
        (∀ c ∈ order, ∀ a, ReflTransGen unlisted.PrimaryBase c a →
          ∃ d, unlisted.find? a = some d ∧ unlisted.Valid a d) ∧
        List.Forall₂
          (Record.Tells unlisted fun c n => ∃ l, unlisted.HasLayout .shared c l ∧ n = l.numSlots)
          order ((build unlisted .shared).observe unlisted .trace).log := by
  have haccepted : ((build Twisted.hierarchy .shared).observe Twisted.hierarchy .trace).result =
      .ok Twisted.table := by
    rw [(legible_build _ _).result_observe, Twisted.build_hierarchy]
  have hrefused : ((build unlisted .shared).observe unlisted .trace).result =
      .error (.error (.invalidAncestors "Leaf")) := by
    decide +kernel
  exact ⟨haccepted, (records_of_build (by decide) .shared).1 _ haccepted, hrefused,
    (records_of_build (by decide) .shared).2 _ hrefused⟩

end SlotTable

end GenericSlots
