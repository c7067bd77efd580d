import GenericSlots.Ty.Printer
import GenericSlots.Slot.Policy
set_option autoImplicit false

/-!
# Log events

Computations report what they do as events. An event holds what its text needs, and the text is only
made where the event is recorded: it may show types, and types that mention classes that are not
defined have no text.

## Main definitions

* `GenericSlots.Severity`, `GenericSlots.Verbosity`: how important an event is, and what is
  recorded.
* `GenericSlots.Event`: what is reported.
* `GenericSlots.Event.text`: the text of an event.
* `GenericSlots.Record`: an event as it is recorded.

## Main results

* `GenericSlots.Verbosity.not_records_off`: nothing is recorded while recording is off.
-/

namespace GenericSlots

/-- How important an event is. Only these two occur, though a program may record more kinds than
that. -/
inductive Severity where
  /-- What a computation came to. -/
  | debug
  /-- A step on the way. -/
  | trace
  deriving DecidableEq

/-- Which events are recorded. Each level includes those before it, and the first three admit none
of the events here. -/
inductive Verbosity where
  /-- None. -/
  | off
  /-- Errors. -/
  | error
  /-- Also warnings. -/
  | warn
  /-- Also notices. -/
  | info
  /-- Also what computations came to. -/
  | debug
  /-- Also the steps on the way. -/
  | trace
  deriving DecidableEq

/-- Whether events of a severity are recorded at a verbosity. -/
def Verbosity.records (v : Verbosity) (s : Severity) : Bool :=
  match s with
  | .debug => v = .debug || v = .trace
  | .trace => v = .trace

/-- Nothing is recorded while recording is off, whatever its severity. -/
theorem Verbosity.not_records_off (s : Severity) : Verbosity.off.records s = false := by
  cases s <;> rfl

/-- What a computation reports, with what is needed to write it: classes by identifier, types as
data. Reporting an event therefore never fails, and only writing it may. -/
inductive Event where
  /-- No declared base of the class leads to one of its listed ancestors. -/
  | baselessAncestor (cls ancestor : ClassId)
  /-- The slots of a class were laid out. -/
  | layoutComputed (cls : ClassId) (slots : Nat)
  /-- The slots of all classes were laid out. -/
  | tableComputed (classes : Nat) (policy : SlotPolicy)
  /-- The value of a slot of a class was determined. -/
  | slotCompiled (cls : ClassId) (slot : Nat) (value : Ty)
  /-- The values of the slots of all classes were determined. -/
  | mappingsCompiled (classes : Nat)

namespace Event

/-- How important an event is. What concerns a single class or slot is a step on the way; what
concerns all of them is a result, and so is an ancestor that no base leads to. -/
def severity : Event → Severity
  | baselessAncestor .. => .debug
  | layoutComputed .. => .trace
  | tableComputed .. => .debug
  | slotCompiled .. => .trace
  | mappingsCompiled .. => .debug

/-- The text of an event. Classes are shown by name, and the value of a slot in the scope of the
class that has the slot. It faults if it would have to show a class that is not defined. -/
def text (h : Hierarchy) : Event → Except Fault String
  | baselessAncestor c a => do
    let name ← h.nameOf c
    let ancestor ← h.nameOf a
    return s!"'{name}' lists '{ancestor}' as an ancestor without a base leading to it"
  | layoutComputed c slots => do
    let name ← h.nameOf c
    return s!"'{name}' uses {slots} slot(s)"
  | tableComputed classes policy =>
    let name := policy.name
    return s!"computed the slot layouts of {classes} classes using the {name} policy"
  | slotCompiled c slot value => do
    let name ← h.nameOf c
    let stored ← h.format (some c) value
    return s!"slot {slot} of '{name}' stores {stored}"
  | mappingsCompiled classes =>
    return s!"compiled the slot mappings of {classes} classes"

end Event

/-- An event as it is recorded, which holds text and no longer refers to a hierarchy. -/
structure Record where
  /-- How important the event is. -/
  severity : Severity
  /-- The text of the event. -/
  text : String

end GenericSlots
