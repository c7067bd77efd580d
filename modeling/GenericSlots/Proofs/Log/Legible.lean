import GenericSlots.Log.Run
import GenericSlots.Proofs.Ty.Text
set_option autoImplicit false

/-!
# Legible runs

Recording an event needs its text, and an event that shows a class that is not defined has none. A
run that reports only events with a text can be observed at every verbosity without changing what it
computes.

## Main definitions

* `GenericSlots.Run.Legible`: a run that reports only events with a text.

## Main results

* `GenericSlots.Run.Legible.bind`: a run is legible if its parts are.
* `GenericSlots.Run.observe_cases`: observing a run changes its result only where a text is missing.
* `GenericSlots.Run.Legible.result_observe`: observing a legible run does not change its result.
* `GenericSlots.Run.result_of_observe`: what an observed run succeeds with is its result.
-/

namespace GenericSlots

namespace Event

/-- An event about the layout of a class has a text if the class is defined, as its name is all that
has to be looked up. -/
lemma exists_text_layoutComputed {h : Hierarchy} {c : ClassId} (hc : h.IsDefined c)
    (slots : Nat) : ∃ text, (layoutComputed c slots).text h = .ok text := by
  obtain ⟨d, hd⟩ := Hierarchy.isDefined_iff.1 hc
  simp only [text, Hierarchy.nameOf, Hierarchy.get_eq_ok_iff.2 hd]
  exact ⟨_, rfl⟩

/-- The text of an event about an ancestor reads the two classes. -/
lemma reads_text_baselessAncestor (h : Hierarchy) (c a : ClassId) :
    h.Reads (fun k => k = c ∨ k = a) ((baselessAncestor c a).text h) :=
  (h.reads_nameOf c).bind fun _ => (h.reads_nameOf a).bind_pure _

/-- The text of an event about a slot reads the class and what is shown of the value. What lies too
deep in the value to be shown is not read. -/
lemma reads_text_slotCompiled (h : Hierarchy) (c : ClassId) (slot : Nat) (value : Ty) :
    h.Reads (fun k => k = c ∨ value.Shows (some c) Hierarchy.shownLevels k)
      ((slotCompiled c slot value).text h) :=
  (h.reads_nameOf c).bind fun _ =>
    (value.reads_render h (some c) Hierarchy.shownLevels).bind_pure _

end Event

namespace Run

variable {ε α β : Type} {h : Hierarchy}

/-- A run that reports only events that have a text. Such a run can be observed at any verbosity
without being changed. -/
def Legible (h : Hierarchy) (r : Run Event ε α) : Prop :=
  ∀ e ∈ r.log, ∃ text, e.text h = .ok text

/-- A run that only gives a value reports nothing. -/
lemma legible_pure (a : α) : Legible h (pure a : Run Event ε α) :=
  fun _ he => absurd he List.not_mem_nil

/-- A run that is made of a result reports nothing. -/
lemma legible_liftM (x : Except (Failure ε) α) : Legible h (liftM x : Run Event ε α) :=
  fun _ he => absurd he List.not_mem_nil

/-- A run that only reports an event with a text is legible. -/
lemma legible_report {e : Event} (he : ∃ text, e.text h = .ok text) :
    Legible h (report e : Run Event ε Unit) := by
  intro e' he'
  rwa [List.mem_singleton.1 he']

/-- A run is legible if its parts are, the second one where the first succeeds.

**Proof sketch.** An event of the whole run is one of the first part, or one of the second part,
which is only carried out if the first succeeds. -/
theorem Legible.bind {r : Run Event ε α} {f : α → Run Event ε β} (hr : r.Legible h)
    (hf : ∀ a, r.result = .ok a → (f a).Legible h) : (r >>= f).Legible h := by
  intro e he
  rw [log_bind, List.mem_append] at he
  rcases he with he | he
  · exact hr e he
  · cases ha : r.result with
    | error => simp [ha] at he
    | ok a =>
      rw [ha] at he
      exact hf a ha e he

/-- Observing a run does not change its result, unless an event is to be recorded that has no text.
In this case, the text is at fault.

**Proof sketch.** Induction on the events. An event that is to be recorded and has no text ends the
observation with its fault. Every other event leaves things to those after it. -/
theorem observe_cases (h : Hierarchy) (r : Run Event ε α) (v : Verbosity) :
    (r.observe h v).result = r.result ∧
        (∀ e ∈ r.log, v.records e.severity = true → ∃ text, e.text h = .ok text) ∨
      ∃ e ∈ r.log, v.records e.severity = true ∧
        ∃ f, e.text h = .error f ∧ (r.observe h v).result = .error (.fault f) := by
  obtain ⟨log, result⟩ := r
  show (recordAll h v result log).result = result ∧ _ ∨ ∃ e ∈ log, v.records e.severity = true ∧
    ∃ f, e.text h = .error f ∧ (recordAll h v result log).result = .error (.fault f)
  induction log with
  | nil => exact Or.inl ⟨rfl, by simp⟩
  | cons e es ih =>
    rw [recordAll]
    by_cases hv : v.records e.severity = true
    · rw [if_pos hv]
      cases htext : e.text h with
      | error f => exact Or.inr ⟨e, List.mem_cons_self, hv, f, htext, rfl⟩
      | ok text =>
        rcases ih with ⟨hresult, hall⟩ | ⟨e', he', hrest⟩
        · refine Or.inl ⟨hresult, fun e' he' hv' => ?_⟩
          rcases List.mem_cons.1 he' with rfl | he'
          · exact ⟨text, htext⟩
          · exact hall e' he' hv'
        · exact Or.inr ⟨e', List.mem_cons_of_mem _ he', hrest⟩
    · rw [if_neg hv]
      rcases ih with ⟨hresult, hall⟩ | ⟨e', he', hrest⟩
      · refine Or.inl ⟨hresult, fun e' he' hv' => ?_⟩
        rcases List.mem_cons.1 he' with rfl | he'
        · exact absurd hv' hv
        · exact hall e' he' hv'
      · exact Or.inr ⟨e', List.mem_cons_of_mem _ he', hrest⟩

/-- Observing a run whose events are not recorded does not change its result. -/
lemma result_observe_of_not_records {r : Run Event ε α} {v : Verbosity}
    (hr : ∀ e ∈ r.log, v.records e.severity = false) : (r.observe h v).result = r.result := by
  rcases r.observe_cases h v with ⟨hresult, -⟩ | ⟨e, he, hv, -⟩
  · exact hresult
  · rw [hr e he] at hv
    cases hv

/-- Observing a legible run does not change its result, at any verbosity. -/
theorem Legible.result_observe {r : Run Event ε α} (hr : r.Legible h) (v : Verbosity) :
    (r.observe h v).result = r.result := by
  rcases r.observe_cases h v with ⟨hresult, -⟩ | ⟨e, he, -, f, hf, -⟩
  · exact hresult
  · obtain ⟨text, htext⟩ := hr e he
    cases hf.symm.trans htext

/-- A run that succeeds while it is observed succeeds with the same result unobserved. -/
theorem result_of_observe {r : Run Event ε α} {v : Verbosity} {a : α}
    (hok : (r.observe h v).result = .ok a) : r.result = .ok a := by
  rcases r.observe_cases h v with ⟨hresult, -⟩ | ⟨e, -, -, f, -, hresult⟩
  · rw [← hresult, hok]
  · cases hok.symm.trans hresult

end Run

end GenericSlots
