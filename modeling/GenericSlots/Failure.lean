import GenericSlots.Hierarchy.Basic
set_option autoImplicit false

/-!
# Failures

A computation on a hierarchy fails because the hierarchy lacks a class, or for a reason of its own.

## Main definitions

* `GenericSlots.Failure`: why a computation fails.
* `GenericSlots.refuse`: fails for a reason of the computation.
-/

namespace GenericSlots

/-- Why a computation on a hierarchy fails. A fault is the caller's mistake, who named a class that
the hierarchy lacks, and stops a program; an error is an answer of the computation, which a program
may go on from. -/
inductive Failure (ε : Type) where
  /-- The hierarchy cannot provide what is asked of it. -/
  | fault (f : Fault)
  /-- The computation has a reason of its own. -/
  | error (e : ε)
  deriving DecidableEq

/-- A fault is a failure of every computation, whatever errors that has of its own. So a computation
that may be refused can read classes and names without further ado. -/
instance (ε : Type) : MonadLift (Except Fault) (Except (Failure ε)) where
  monadLift x := x.mapError .fault

/-- Fails for a reason of the computation, as opposed to a fault of the hierarchy. -/
def refuse {ε α : Type} (e : ε) : Except (Failure ε) α :=
  .error (.error e)

section Lift

variable {ε α : Type}

/-- A reading that succeeds gives the same value when it is a step of a computation with errors of
its own. -/
@[simp] theorem liftM_ok (a : α) :
    (liftM (Except.ok a : Except Fault α) : Except (Failure ε) α) = .ok a := rfl

/-- A reading that faults makes the computation that it is a step of fail with that fault. -/
@[simp] theorem liftM_error (f : Fault) :
    (liftM (Except.error f : Except Fault α) : Except (Failure ε) α) = .error (.fault f) := rfl

end Lift

end GenericSlots
