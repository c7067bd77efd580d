import GenericSlots.Failure
import GenericSlots.Log.Event
set_option autoImplicit false

/-!
# Runs

A run is a computation that reports as it goes and then succeeds or fails. It may fail because its
hierarchy lacks a class, or for a reason of its own. What it reported before it failed stays
reported.

## Main definitions

* `GenericSlots.Run`: a log together with a result.
* `GenericSlots.Run.observe`: a run as seen at a verbosity, where events become records.

## Main results

* `GenericSlots.Run.result_bind`, `GenericSlots.Run.log_bind`: a run continues where the one before
  it succeeds, and the logs follow each other.
* `GenericSlots.Run.result_observe_off`: with recording off, observing a run does not change its
  result.

## Implementation notes

Results do not depend on logs, so what a run computes is read off `Run.result`. Observing a run can
change the result: an event that is recorded but has no text is a fault.
-/

namespace GenericSlots

/-- A log together with a result. The log is there whether the computation succeeds or fails, and
says how far it got. -/
structure Run (ω ε α : Type) where
  /-- What was reported, in order. -/
  log : List ω
  /-- How the computation ended. -/
  result : Except (Failure ε) α

namespace Run

variable {ω ε α β : Type}

/-- A run that reports nothing and ends with a given result. -/
def ofResult (r : Except (Failure ε) α) : Run ω ε α :=
  ⟨[], r⟩

/-- A run that fails for a reason of its own, without reporting anything. -/
def fail (e : ε) : Run ω ε α :=
  ⟨[], .error (.error e)⟩

/-- A run that reports one event and does nothing else. -/
def report (w : ω) : Run ω ε Unit :=
  ⟨[w], .ok ()⟩

/-- Continues a run where it succeeds. What is reported afterwards comes after what was reported
before, and a run that failed is not continued. -/
def andThen (r : Run ω ε α) (f : α → Run ω ε β) : Run ω ε β :=
  match r.result with
  | .ok a => ⟨r.log ++ (f a).log, (f a).result⟩
  | .error e => ⟨r.log, .error e⟩

/-- A run may be written as a sequence of steps. The first step that fails ends it. -/
instance : Monad (Run ω ε) where
  pure a := ⟨[], .ok a⟩
  bind := andThen

/-- A computation that reports nothing may be a step of a run. -/
instance : MonadLift (Except (Failure ε)) (Run ω ε) where
  monadLift := ofResult

/-- Steps of a run may be grouped in any way, and a step that does nothing makes no difference. The
log is the reason that this needs an argument: it relies on joining lists being associative. -/
instance : LawfulMonad (Run ω ε) :=
  LawfulMonad.mk' _
    (by
      rintro α ⟨log, _ | a⟩
      · rfl
      · show Run.mk (log ++ []) _ = _
        rw [List.append_nil]
        rfl)
    (by
      intro α β a f
      rfl)
    (by
      rintro α β γ ⟨log, _ | a⟩ f g
      · rfl
      · show andThen ⟨log ++ (f a).log, (f a).result⟩ g =
          ⟨log ++ (andThen (f a) g).log, (andThen (f a) g).result⟩
        unfold andThen
        cases (f a).result <;> simp [List.append_assoc])

/-- A run that gives a value without doing anything succeeds with this value. -/
@[simp] theorem result_pure (a : α) : (pure a : Run ω ε α).result = .ok a := rfl

/-- A run that gives a value without doing anything reports nothing. -/
@[simp] theorem log_pure (a : α) : (pure a : Run ω ε α).log = [] := rfl

/-- A run continues where the one before it succeeds. Its result depends on the results of its steps
and not on what they report. -/
theorem result_bind (r : Run ω ε α) (f : α → Run ω ε β) :
    (r >>= f).result = r.result >>= fun a => (f a).result := by
  show (andThen r f).result = _
  unfold andThen
  cases r.result <;> rfl

/-- The logs of runs follow each other, up to the first that fails. -/
theorem log_bind (r : Run ω ε α) (f : α → Run ω ε β) :
    (r >>= f).log = r.log ++ match r.result with
      | .ok a => (f a).log
      | .error _ => [] := by
  show (andThen r f).log = _
  unfold andThen
  cases r.result <;> simp

/-- Reporting always succeeds. -/
@[simp] theorem result_report (w : ω) : (report w : Run ω ε Unit).result = .ok () := rfl

/-- A run that only reports leaves the event in its log. -/
@[simp] theorem log_report (w : ω) : (report w : Run ω ε Unit).log = [w] := rfl

/-- A run that is made of a result has this result. -/
@[simp] theorem result_ofResult (r : Except (Failure ε) α) :
    (ofResult r : Run ω ε α).result = r := rfl

/-- A run that is made of a result reports nothing. -/
@[simp] theorem log_ofResult (r : Except (Failure ε) α) : (ofResult r : Run ω ε α).log = [] := rfl

/-- A run that fails has its reason as its result, as an error and not as a fault. -/
@[simp] theorem result_fail (e : ε) : (fail e : Run ω ε α).result = .error (.error e) := rfl

/-- A run that fails reports nothing. -/
@[simp] theorem log_fail (e : ε) : (fail e : Run ω ε α).log = [] := rfl

/-- A computation that reports nothing has the same result as a step of a run. -/
@[simp] theorem result_liftM (r : Except (Failure ε) α) :
    (liftM r : Run ω ε α).result = r := rfl

/-- A computation that reports nothing adds nothing to the log as a step of a run. -/
@[simp] theorem log_liftM (r : Except (Failure ε) α) : (liftM r : Run ω ε α).log = [] := rfl

/-- Reading the hierarchy as a step of a run gives the same result as it does in a computation that
reports nothing. -/
@[simp] theorem result_liftM_fault (r : Except Fault α) :
    (liftM r : Run ω ε α).result = liftM r := rfl

/-- Reading the hierarchy as a step of a run adds nothing to the log. -/
@[simp] theorem log_liftM_fault (r : Except Fault α) : (liftM r : Run ω ε α).log = [] := rfl

/-- The results of runs one after another are the results of a computation that reports nothing. So
what a loop computes can be studied without its log. -/
theorem result_mapM (f : α → Run ω ε β) (as : List α) :
    (as.mapM f).result = as.mapM fun a => (f a).result := by
  induction as with
  | nil => rfl
  | cons a as ih =>
    simp only [List.mapM_cons, result_bind, result_pure, ih]
    rfl

/-! ## Observation -/

/-- Records events in order. What follows an event that should be recorded but has no text is lost,
and so is the result: the run ends there with the fault. -/
def recordAll (h : Hierarchy) (v : Verbosity) (r : Except (Failure ε) α) :
    List Event → Run Record ε α
  | [] => ⟨[], r⟩
  | e :: es =>
    if v.records e.severity then
      match e.text h with
      | .ok text =>
        let rest := recordAll h v r es
        ⟨⟨e.severity, text⟩ :: rest.log, rest.result⟩
      | .error f => ⟨[], .error (.fault f)⟩
    else
      recordAll h v r es

/-- A run as seen at a verbosity: its events are recorded, if they are important enough, and its
result comes after them. -/
def observe (h : Hierarchy) (v : Verbosity) (r : Run Event ε α) : Run Record ε α :=
  recordAll h v r.result r.log

/-- With recording off, observing a run does not change its result. -/
theorem result_observe_off (h : Hierarchy) (r : Run Event ε α) :
    (r.observe h .off).result = r.result := by
  show (recordAll h .off r.result r.log).result = r.result
  induction r.log with
  | nil => rfl
  | cons e es ih =>
    rw [recordAll, Verbosity.not_records_off]
    exact ih

/-- With recording off, nothing is recorded, whatever the run reports. -/
theorem log_observe_off (h : Hierarchy) (r : Run Event ε α) : (r.observe h .off).log = [] := by
  show (recordAll h .off r.result r.log).log = []
  induction r.log with
  | nil => rfl
  | cons e es ih =>
    rw [recordAll, Verbosity.not_records_off]
    exact ih

end Run

end GenericSlots
