import GenericSlots.Proofs.Slot.Closed
import GenericSlots.Proofs.Slot.Validation
import GenericSlots.Slot.Mappings
set_option autoImplicit false

/-!
# Outcomes at all verbosities

What is computed should not depend on what is recorded. Laying out a hierarchy and projecting
instances have the same outcome at every verbosity. So has compiling a mapping, unless steps are
recorded: the values of slots are shown then, and showing a value reads classes that computing it
does not. Laying out a hierarchy does not look for these classes, because they are mentioned in the
arguments of primary bases only.

## Main definitions

* `GenericSlots.SlotTable.Showable`: a mapping whose values can be shown.
* `GenericSlots.SlotTable.ObservedAlike`: all mappings have the same outcome at a verbosity as
  without recording.
* `GenericSlots.SlotTable.Observed`: the outcomes of compiling mappings at all verbosities.

## Main results

* `GenericSlots.Hierarchy.result_observe_supertype`: projections at all verbosities.
* `GenericSlots.SlotTable.observe_compile_cases`: a mapping is compiled while steps are recorded
  exactly if its values can be shown.
* `GenericSlots.SlotTable.Describes.showable_of_resolvedBase`: values can be shown if the primary
  bases of the chain mention only classes that are defined.
* `GenericSlots.SlotTable.observed_of_build`: the outcomes of all operations at all verbosities.
-/

namespace GenericSlots

namespace Run

variable {ε α β : Type}

/-- A run that reports each value that it computes reports all of them in order if it succeeds.

**Proof sketch.** Induction on the list. The first value is computed and reported, and what is
reported afterwards is what the rest reports. -/
lemma log_mapM_report {ω : Type} {f : α → Except (Failure ε) β} {event : α → β → ω} {as : List α}
    {bs : List β} (hok : as.mapM f = .ok bs) :
    (as.mapM fun a => do
      let b ← (liftM (f a) : Run ω ε β)
      report (event a b)
      return b).log = List.zipWith event as bs := by
  induction as generalizing bs with
  | nil =>
    obtain rfl : [] = bs := Except.ok.inj hok
    rfl
  | cons a as ih =>
    rw [List.mapM_cons] at hok ⊢
    obtain ⟨b, hb, hok⟩ := bind_eq_ok_iff.1 hok
    obtain ⟨bs', hbs, hok⟩ := bind_eq_ok_iff.1 hok
    obtain rfl : b :: bs' = bs := Except.ok.inj hok
    have hrest := ih hbs
    simp only [hb, liftM_ok_bind, log_bind, result_bind, log_report, result_report, log_pure,
      ok_bind, result_pure, hrest, List.append_nil, List.singleton_append, List.zipWith_cons_cons]
    split <;> rw [List.append_nil]

end Run

namespace ClassDef

/-- A class whose primary base mentions only classes that are defined. The base itself is checked
when slots are laid out, but its arguments are not. -/
def ResolvedBase (d : ClassDef) (h : Hierarchy) : Prop :=
  ∀ base ∈ d.primaryBase?, ∀ a ∈ base.args, ∀ k, a.Mentions k → h.IsDefined k

end ClassDef

namespace Hierarchy

variable {h : Hierarchy} {i : Instance} {a : ClassId}

/-! ## Projecting instances -/

/-- What is reported of a projection: the ancestor is reached by no base, and its arguments could be
anything.

**Proof sketch.** The cases of the projection are gone through. An instance of the ancestor itself,
an instance of a class that is not defined or does not list the ancestor, and one with a path to the
ancestor report nothing. -/
lemma of_mem_log_supertype {e : Event} (he : e ∈ (h.supertype i a).log) :
    e = .baselessAncestor i.cls a ∧ h.IsDefined i.cls ∧
      (h.supertype i a).result = liftM (h.filled a .any) := by
  unfold supertype at he ⊢
  by_cases hi : i.cls = a
  · rw [if_pos hi] at he
    cases he
  · simp only [if_neg hi] at he ⊢
    cases hd : h.find? i.cls with
    | none => simp [hasAncestor, get, hd, Run.log_bind] at he
    | some d =>
      by_cases hmem : a ∈ d.ancestors
      · have hancestor : h.hasAncestor i.cls a = .ok true := by
          rw [hasAncestor_eq hd, decide_eq_true hmem]
        cases hpath : h.path i.cls a with
        | error f => simp [hancestor, hpath, Run.log_bind] at he
        | ok path? =>
          cases path? with
          | some path => simp [hancestor, hpath, Run.liftM_fault_ok_bind] at he
          | none =>
            simp only [hancestor, hpath, Run.liftM_fault_ok_bind] at he ⊢
            rw [if_pos trivial] at he ⊢
            refine ⟨by simpa [Run.log_bind] using he, isDefined_iff.2 ⟨d, hd⟩, ?_⟩
            rw [Run.result_bind, Run.result_report, ok_bind, Run.result_liftM_fault]
      · have hancestor : h.hasAncestor i.cls a = .ok false := by
          rw [hasAncestor_eq hd, decide_eq_false hmem]
        cases hname : h.nameOf a <;>
          simp [hancestor, nameOf_eq hd, hname, Run.log_bind] at he

/-- Projecting an instance has the same outcome at every verbosity. If the ancestor is not defined,
either the text of the event is at fault or its arguments, for the same class.

**Proof sketch.** Observing changes the result only if an event is recorded whose text is at fault.
The only event of a projection is that no base leads to the ancestor. Its text reads both classes,
of which the first is defined, and the made-up instance that follows reads the ancestor and is at
fault for it too. -/
theorem result_observe_supertype (h : Hierarchy) (i : Instance) (a : ClassId) (v : Verbosity) :
    ((h.supertype i a).observe h v).result = (h.supertype i a).result := by
  rcases (h.supertype i a).observe_cases h v with ⟨hresult, -⟩ | ⟨e, he, -, f, hf, hresult⟩
  · exact hresult
  · obtain ⟨rfl, hc, hfilled⟩ := of_mem_log_supertype he
    obtain ⟨k, hk, hundefined, rfl⟩ :=
      (Event.reads_text_baselessAncestor h i.cls a).exists_not_isDefined hf
    rcases hk with rfl | rfl
    · exact absurd hc hundefined
    · rw [hresult, hfilled, filled, get_of_not_isDefined hundefined]
      rfl

end Hierarchy

namespace SlotTable

variable {t : SlotTable} {h : Hierarchy} {c : ClassId} {mapping : List Ty}

/-! ## Compiling a mapping -/

/-- A class that has a mapping is defined, and its values are reported in order.

**Proof sketch.** The compilation succeeded, so each of its steps did, and reading the class was one
of them. Only the last step reports anything, which is the one that `log_mapM_report` is about. -/
lemma log_compile (hm : (t.compile h c).result = .ok mapping) :
    h.IsDefined c ∧ (t.compile h c).log =
      List.zipWith (Event.slotCompiled c) (List.range mapping.length) mapping := by
  have hm' := hm
  simp only [compile, Run.result_bind, Run.result_liftM, Run.result_liftM_fault] at hm'
  obtain ⟨slots, hslots, hm'⟩ := bind_eq_ok_iff.1 hm'
  obtain ⟨self, hself, hm'⟩ := bind_eq_ok_iff.1 hm'
  obtain ⟨chain, hchain, hm'⟩ := bind_eq_ok_iff.1 hm'
  obtain ⟨projections, hprojections, -⟩ := bind_eq_ok_iff.1 hm'
  rw [liftM_eq_ok_iff] at hself hprojections
  have hvalues := (result_compile hslots hself hchain hprojections).symm.trans hm
  constructor
  · obtain ⟨d, hd, -⟩ := bind_eq_ok_iff.1 hself
    exact Hierarchy.isDefined_iff.2 ⟨d, Hierarchy.get_eq_ok_iff.1 hd⟩
  · rw [length_eq_of_mapM_eq_ok hvalues, List.length_range, ← Run.log_mapM_report hvalues]
    simp only [compile, hslots, hself, hchain, hprojections, Run.liftM_ok_bind,
      Run.liftM_fault_ok_bind]

/-- What is reported of a mapping are its values, each with its slot.

**Proof sketch.** The events are the slots and the values of the mapping, paired by position. -/
lemma mem_log_compile (hm : (t.compile h c).result = .ok mapping) {e : Event} :
    e ∈ (t.compile h c).log ↔ ∃ (s : Nat) (value : Ty), mapping[s]? = some value ∧
      e = .slotCompiled c s value := by
  rw [(log_compile hm).2, List.mem_iff_getElem?]
  constructor
  · rintro ⟨s, hs⟩
    obtain ⟨s', value, hs', hvalue, rfl⟩ := List.getElem?_zipWith_eq_some.1 hs
    obtain rfl : s = s' := by simpa using (List.getElem?_eq_some_iff.1 hs').2
    exact ⟨s, value, hvalue, rfl⟩
  · rintro ⟨s, value, hvalue, rfl⟩
    have hs : s < mapping.length := (List.getElem?_eq_some_iff.1 hvalue).1
    exact ⟨s, List.getElem?_zipWith_eq_some.2 ⟨s, value, by simp [hs], hvalue, rfl⟩⟩

/-- A table that was made for a hierarchy compiles the mapping of a class, or refuses the class at
once without reporting anything.

**Proof sketch.** A class without a layout is refused before anything is reported. A class with one
belongs to a hierarchy that the table describes, so it has a mapping and there is no error. -/
lemma log_compile_eq_nil_of_error {policy : SlotPolicy} (hs : h.size ≤ ClassId.limit)
    (ht : (build h policy).result = .ok t) {e : Failure SlotError}
    (herror : (t.compile h c).result = .error e) : (t.compile h c).log = [] := by
  cases hlayout : t.layout h c with
  | error e' => rw [compile_of_layout_eq_error hlayout, Run.log_ofResult]
  | ok l' =>
    obtain ⟨-, hdescribes⟩ := describes_of_layout hs ht hlayout
    obtain ⟨l, hl⟩ := hdescribes.exists_hasLayout (isDefined_of_layout hlayout)
    obtain ⟨d, hd⟩ := hl.checked
    obtain ⟨mapping, hmapping, -⟩ := hdescribes.exists_compile hl hd.find
    cases herror.symm.trans hmapping

/-- All classes are defined that are read to show the values of a mapping. Values are shown in the
scope of the class that has the slots. -/
def Showable (h : Hierarchy) (c : ClassId) (mapping : List Ty) : Prop :=
  ∀ value ∈ mapping, ∀ k, value.Shows (some c) Hierarchy.shownLevels k → h.IsDefined k

/-- If steps are recorded, a mapping is compiled as without recording if its values can be shown. If
not, a class that is not defined is at fault.

**Proof sketch.** By `observe_cases`, either all events have a text or one of them is at fault. The
events are the values of the mapping, and the text of a value reads the class, which is defined, and
the classes that are shown. -/
theorem observe_compile_cases (hm : (t.compile h c).result = .ok mapping) :
    ((t.compile h c).observe h .trace).result = .ok mapping ∧ Showable h c mapping ∨
      ∃ value ∈ mapping, ∃ k, value.Shows (some c) Hierarchy.shownLevels k ∧ ¬h.IsDefined k ∧
        ((t.compile h c).observe h .trace).result = .error (.fault (.undefinedClass k)) := by
  have hc := (log_compile hm).1
  rcases (t.compile h c).observe_cases h .trace with ⟨hresult, hall⟩ | ⟨e, he, -, f, hf, hresult⟩
  · refine Or.inl ⟨hresult.trans hm, fun value hvalue k hk => ?_⟩
    obtain ⟨s, hs⟩ := List.mem_iff_getElem?.1 hvalue
    obtain ⟨text, htext⟩ := hall _ ((mem_log_compile hm).2 ⟨s, value, hs, rfl⟩) rfl
    exact (Event.reads_text_slotCompiled h c s value).isDefined htext (Or.inr hk)
  · obtain ⟨s, value, hs, rfl⟩ := (mem_log_compile hm).1 he
    obtain ⟨k, hk, hundefined, rfl⟩ :=
      (Event.reads_text_slotCompiled h c s value).exists_not_isDefined hf
    rcases hk with rfl | hk
    · exact absurd hc hundefined
    · exact Or.inr ⟨value, List.mem_of_getElem? hs, k, hk, hundefined, hresult⟩

/-- Compiling the mapping of a class has the same outcome at every verbosity, except where steps are
recorded and a value cannot be shown.

**Proof sketch.** A class that is refused reports nothing. Values are steps on the way, so they are
only recorded at one verbosity, and `observe_compile_cases` is about that one. -/
lemma result_observe_compile {policy : SlotPolicy} (hs : h.size ≤ ClassId.limit)
    (ht : (build h policy).result = .ok t) {v : Verbosity}
    (hv : v = .trace → ∀ mapping, (t.compile h c).result = .ok mapping → Showable h c mapping) :
    ((t.compile h c).observe h v).result = (t.compile h c).result := by
  cases hm : (t.compile h c).result with
  | error e =>
    rw [← hm]
    refine Run.result_observe_of_not_records fun e' he' => ?_
    rw [log_compile_eq_nil_of_error hs ht hm] at he'
    cases he'
  | ok mapping =>
    by_cases htrace : v = .trace
    · subst htrace
      rcases observe_compile_cases hm with ⟨hresult, -⟩ | ⟨value, hvalue, k, hk, hundefined, -⟩
      · exact hresult
      · exact absurd (hv rfl mapping hm value hvalue k hk) hundefined
    · rw [← hm]
      refine Run.result_observe_of_not_records fun e he => ?_
      obtain ⟨s, value, -, rfl⟩ := (mem_log_compile hm).1 he
      exact decide_eq_false htrace

end SlotTable

namespace SlotMappings

variable {m : SlotMappings} {v : Verbosity}

/-! ## Mappings on demand -/

/-- Asking for a mapping does not change the hierarchy. -/
@[simp] lemma hierarchy_compile (m : SlotMappings) (v : Verbosity) (c : ClassId) :
    (m.compile v c).2.hierarchy = m.hierarchy := by
  unfold compile
  split
  · rfl
  · dsimp only
    split <;> rfl

/-- Asking for a mapping does not change the table. -/
@[simp] lemma table_compile (m : SlotMappings) (v : Verbosity) (c : ClassId) :
    (m.compile v c).2.table = m.table := by
  unfold compile
  split
  · rfl
  · dsimp only
    split <;> rfl

/-- Two computations that also give what is kept afterwards have the same outcome: the same result,
and the same kept. What is recorded may differ. -/
def SameOutcome {α : Type} (x y : Run Record SlotError α × SlotMappings) : Prop :=
  x.1.result = y.1.result ∧ x.2 = y.2

/-- A mapping is asked for with the same outcome as without recording, if it is compiled so. A
mapping that is kept is not compiled at all.

**Proof sketch.** By cases on whether a mapping is kept and on the outcome of compiling it, which is
the same for both by assumption. -/
lemma sameOutcome_compile {c : ClassId}
    (hobserve : ((m.table.compile m.hierarchy c).observe m.hierarchy v).result =
      (m.table.compile m.hierarchy c).result) : SameOutcome (m.compile v c) (m.compile .off c) := by
  have hoff := (m.table.compile m.hierarchy c).result_observe_off m.hierarchy
  unfold compile
  cases m.compiled[c]? with
  | some mapping => exact ⟨rfl, rfl⟩
  | none =>
    simp only [hobserve, hoff]
    cases hresult : (m.table.compile m.hierarchy c).result with
    | ok mapping => exact ⟨by rw [hobserve, hoff], rfl⟩
    | error e => exact ⟨by rw [hobserve, hoff], rfl⟩

/-- The mappings of some classes are asked for with the same outcome as without recording, if all
mappings are compiled so.

**Proof sketch.** Induction on the classes, with what is kept generalized. A class without slots is
passed over, and after a class with slots the same is kept in both cases. -/
lemma sameOutcome_compileEach (cs : List ClassId)
    (hobserve : ∀ c, ((m.table.compile m.hierarchy c).observe m.hierarchy v).result =
      (m.table.compile m.hierarchy c).result) :
    SameOutcome (m.compileEach v cs) (m.compileEach .off cs) := by
  induction cs generalizing m with
  | nil => exact ⟨rfl, rfl⟩
  | cons c cs ih =>
    rw [compileEach, compileEach]
    cases m.table.numSlots m.hierarchy c with
    | error e => exact ⟨rfl, rfl⟩
    | ok slots =>
      cases slots with
      | zero => exact ih hobserve
      | succ slots =>
        obtain ⟨hresult, hkept⟩ := sameOutcome_compile (hobserve c)
        have hrest : SameOutcome ((m.compile v c).2.compileEach v cs)
            ((m.compile v c).2.compileEach .off cs) := ih (by simpa using hobserve)
        dsimp only
        rw [← hresult]
        cases hmapping : (m.compile v c).1.result with
        | error e => exact ⟨rfl, hkept⟩
        | ok mapping =>
          rw [← hkept]
          exact ⟨congrArg (((c, mapping) :: ·) <$> ·) hrest.1, hrest.2⟩

/-- The mappings of all classes are asked for with the same outcome as without recording, if all of
them are compiled so. The event at the end always has a text. -/
lemma sameOutcome_compileAll
    (hobserve : ∀ c, ((m.table.compile m.hierarchy c).observe m.hierarchy v).result =
      (m.table.compile m.hierarchy c).result) :
    SameOutcome (m.compileAll v) (m.compileAll .off) := by
  obtain ⟨hresult, hkept⟩ := sameOutcome_compileEach m.hierarchy.classIds hobserve
  have hreport : ∀ (h : Hierarchy) (v : Verbosity) (n : Nat),
      ((Run.report (.mappingsCompiled n) : Run Event SlotError Unit).observe h v).result = .ok () :=
    fun h v n => (Run.legible_report ⟨_, rfl⟩).result_observe v
  refine ⟨?_, hkept⟩
  simp only [compileAll, Run.result_bind, hreport, hresult]

end SlotMappings

namespace SlotTable

variable {t : SlotTable} {h : Hierarchy} {c : ClassId} {d : ClassDef} {l : Layout}
  {mapping : List Ty}

/-! ## Classes that are defined -/

/-- The values of a mapping can be shown if the primary bases of the chain mention only classes that
are defined.

**Proof sketch.** A value is an argument of a projection onto a class of the chain. The arguments of
the class itself are variables and mention no class. What the next projection mentions is mentioned
by the base or by what is put in for its variables. -/
theorem Describes.showable_of_resolvedBase (ht : t.Describes h) (hl : h.HasLayout t.policy c l)
    (hd : h.find? c = some d) (hm : (t.compile h c).result = .ok mapping)
    (hresolved : ∀ o ∈ l.chain, ∀ e ∈ h.find? o, e.ResolvedBase h) : Showable h c mapping := by
  intro value hvalue k hk
  obtain ⟨n, o, hn, hvalue⟩ := (ht.mem_mapping_iff hl hd hm).1 hvalue
  have hmentioned : ∀ a ∈ (h.primarySupertype^[n] ⟨c, d.selfArgs⟩).args,
      ∀ k, a.Mentions k → h.IsDefined k := by
    refine Hierarchy.forall_args_iterate_primarySupertype (P := fun a => ∀ k, a.Mentions k →
      h.IsDefined k) hl rfl hd d.length_selfArgs ?_ ?_ hn
    · intro a ha k hk
      obtain ⟨p, -, rfl⟩ := List.mem_map.1 ha
      exact absurd hk Ty.not_mentions_var
    · intro o ho e he base hb args hargs hP a ha k hk
      rcases Ty.mentions_expand_iff.1 hk with hk | ⟨v, -, hk⟩
      · exact hresolved o ho e he.find base hb a ha k hk
      · by_cases hv : v ∈ e.params.map TypeParam.id
        · exact hP _ (ClassDef.image_assignArgs_mem (Nat.le_of_eq hargs.symm) hv) k hk
        · rw [ClassDef.image_assignArgs_of_notMem hv] at hk
          exact absurd hk Ty.not_mentions_var
  rcases hk.mentions with hk | hk
  · exact hmentioned value hvalue k hk
  · exact Option.some.inj hk ▸ Hierarchy.isDefined_iff.2 ⟨d, hd⟩

/-! ## All outcomes -/

/-- Compiling mappings, at once or on demand, has the same outcome at a verbosity as without
recording, whatever mappings are kept. -/
structure ObservedAlike (t : SlotTable) (h : Hierarchy) (v : Verbosity) : Prop where
  /-- The mapping of a class is compiled with the same outcome. -/
  compile : ∀ c, ((t.compile h c).observe h v).result = ((t.compile h c).observe h .off).result
  /-- The mapping of a class is asked for with the same outcome. -/
  demand : ∀ kept c, SlotMappings.SameOutcome (SlotMappings.compile ⟨h, t, kept⟩ v c)
    (SlotMappings.compile ⟨h, t, kept⟩ .off c)
  /-- The mappings of all classes are asked for with the same outcome. -/
  demandAll : ∀ kept, SlotMappings.SameOutcome (SlotMappings.compileAll ⟨h, t, kept⟩ v)
    (SlotMappings.compileAll ⟨h, t, kept⟩ .off)

/-- The outcomes of compiling mappings at all verbosities. They agree with each other except for one
verbosity, for which the exact condition is given. -/
structure Observed (t : SlotTable) (h : Hierarchy) : Prop where
  /-- Unless steps are recorded, they are those without recording. -/
  untraced : ∀ v, v ≠ .trace → t.ObservedAlike h v
  /-- Also if steps are recorded, exactly if the values of all mappings can be shown. -/
  traced_iff : t.ObservedAlike h .trace ↔
    ∀ c mapping, ((t.compile h c).observe h .off).result = .ok mapping → Showable h c mapping
  /-- Where a value cannot be shown, a class that is not defined is at fault. -/
  fault : ∀ c mapping, ((t.compile h c).observe h .off).result = .ok mapping →
    ¬Showable h c mapping → ∃ k, ¬h.IsDefined k ∧
      ((t.compile h c).observe h .trace).result = .error (.fault (.undefinedClass k))
  /-- Below the limit of identifiers, a class has the same mapping at every verbosity if the primary
  bases of its chain mention only classes that are defined. -/
  resolved : h.size < ClassId.limit → ∀ c, h.IsDefined c →
    (∀ chain, t.chain h c = .ok chain → ∀ o ∈ chain, ∀ e ∈ h.find? o, e.ResolvedBase h) →
    ∃ mapping, ∀ v, ((t.compile h c).observe h v).result = .ok mapping

/-- If mappings are compiled with the same outcome, so are mappings on demand. -/
lemma observedAlike_of_compile {v : Verbosity}
    (hobserve : ∀ c, ((t.compile h c).observe h v).result = (t.compile h c).result) :
    t.ObservedAlike h v where
  compile c := by rw [hobserve, Run.result_observe_off]
  demand kept c := SlotMappings.sameOutcome_compile (m := ⟨h, t, kept⟩) (hobserve c)
  demandAll kept := SlotMappings.sameOutcome_compileAll (m := ⟨h, t, kept⟩) hobserve

/-- A class has the same mapping at every verbosity if the primary bases of its chain mention only
classes that are defined.

**Proof sketch.** The class has a mapping without recording. Its values mention only classes that
are defined, since the bases of the chain do, so each event has a text and recording it cannot
fail. -/
lemma exists_compile_of_resolvedBase {policy : SlotPolicy} (hs : h.size < ClassId.limit)
    (ht : (build h policy).result = .ok t) (hc : h.IsDefined c)
    (hresolved : ∀ chain, t.chain h c = .ok chain → ∀ o ∈ chain, ∀ e ∈ h.find? o,
      e.ResolvedBase h) :
    ∃ mapping, ∀ v, ((t.compile h c).observe h v).result = .ok mapping := by
  obtain ⟨-, hdescribes⟩ := describes_of_build hs ht
  obtain ⟨l, hl⟩ := hdescribes.exists_hasLayout hc
  obtain ⟨d, hd⟩ := Hierarchy.isDefined_iff.1 hc
  obtain ⟨mapping, hm, -⟩ := hdescribes.exists_compile hl hd
  refine ⟨mapping, fun v => ?_⟩
  rw [result_observe_compile (Nat.le_of_lt hs) ht, hm]
  intro _ mapping' hm'
  obtain rfl := Except.ok.inj (hm.symm.trans hm')
  exact hdescribes.showable_of_resolvedBase hl hd hm (hresolved l.chain (hdescribes.chain_eq hl))

/-- The table of a hierarchy is observed with the same outcomes, except where steps are recorded and
a value cannot be shown.

**Proof sketch.** Unless steps are recorded, this is `result_observe_compile`. If they are, a value
that cannot be shown makes the outcome differ by `observe_compile_cases`, so the outcomes agree only
if all values can be shown. -/
lemma observed {policy : SlotPolicy} (hs : h.size ≤ ClassId.limit)
    (ht : (build h policy).result = .ok t) : t.Observed h where
  untraced v hv := observedAlike_of_compile fun c =>
    result_observe_compile hs ht fun htrace => absurd htrace hv
  traced_iff := by
    constructor
    · intro halike c mapping hm
      rcases observe_compile_cases (Run.result_of_observe hm) with
        ⟨-, hshow⟩ | ⟨_, _, k, -, -, hfault⟩
      · exact hshow
      · cases hfault.symm.trans ((halike.compile c).trans hm)
    · intro hshow
      refine observedAlike_of_compile fun c => result_observe_compile hs ht fun _ mapping hm => ?_
      exact hshow c mapping (by rw [Run.result_observe_off, hm])
  fault c mapping hm hshow := by
    rcases observe_compile_cases (Run.result_of_observe hm) with
      ⟨-, hshow'⟩ | ⟨_, _, k, -, hk, hfault⟩
    · exact absurd hshow' hshow
    · exact ⟨k, hk, hfault⟩
  resolved hlt _ hc hresolved := exists_compile_of_resolvedBase hlt ht hc hresolved

/-- Laying out a hierarchy and projecting instances have the same outcome at all verbosities. So has
compiling mappings, except where steps are recorded and a value cannot be shown. -/
theorem observed_of_build (hs : h.size ≤ ClassId.limit) :
    (∀ policy v, ((build h policy).observe h v).result = ((build h policy).observe h .off).result) ∧
    (∀ i a v, ((h.supertype i a).observe h v).result = ((h.supertype i a).observe h .off).result) ∧
    ∀ policy t, (build h policy).result = .ok t → t.Observed h := by
  refine ⟨?_, ?_, fun policy t ht => observed hs ht⟩
  · intro policy v
    rw [(legible_build h policy).result_observe, (legible_build h policy).result_observe]
  · intro i a v
    rw [Hierarchy.result_observe_supertype, Hierarchy.result_observe_supertype]

/-- The outcomes for a hierarchy in which other bases mention a class that is not defined. -/
theorem observed_of_build_twisted :
    (∀ policy v, ((build Twisted.hierarchy policy).observe Twisted.hierarchy v).result =
      ((build Twisted.hierarchy policy).observe Twisted.hierarchy .off).result) ∧
    (∀ i a v, ((Twisted.hierarchy.supertype i a).observe Twisted.hierarchy v).result =
      ((Twisted.hierarchy.supertype i a).observe Twisted.hierarchy .off).result) ∧
    ∀ policy t, (build Twisted.hierarchy policy).result = .ok t → t.Observed Twisted.hierarchy :=
  observed_of_build (by decide)

end SlotTable

/-! ## A class that is missing -/

/-- A hierarchy has a table although a class is missing that the argument of a base mentions. A
mapping is compiled without recording, and not while steps are recorded. -/
theorem Boxed.observe_compile_ne :
    (SlotTable.build (hierarchy (.inst ⟨9⟩ [])) .appended).result = .ok table ∧
      ((table.compile (hierarchy (.inst ⟨9⟩ [])) ⟨2⟩).observe
        (hierarchy (.inst ⟨9⟩ [])) .off).result = .ok [.inst ⟨9⟩ []] ∧
      ((table.compile (hierarchy (.inst ⟨9⟩ [])) ⟨2⟩).observe
        (hierarchy (.inst ⟨9⟩ [])) .trace).result = .error (.fault (.undefinedClass ⟨9⟩)) := by
  refine ⟨?_, ?_, ?_⟩
  · decide +kernel
  · decide +kernel
  · decide +kernel

end GenericSlots
