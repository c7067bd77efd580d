import GenericSlots.Ident
set_option autoImplicit false

/-!
# Slot errors

Laying out the slots of a hierarchy fails if the hierarchy is not what a compiler may hand over.
Asking for the slots of a class fails if there is no such class, slot or type parameter.

## Main definitions

* `GenericSlots.SlotError`: the errors.
* `GenericSlots.SlotError.message`: the text of an error.
* `GenericSlots.SlotError.isInternal`: whether the hierarchy is to blame, and not the question.

## Implementation notes

An error holds the names of the classes that it is about, as they were when it arose.
-/

namespace GenericSlots

/-- Why slots cannot be laid out or looked up. Classes are named rather than identified wherever
they have a name, since these errors are shown to people. -/
inductive SlotError where
  /-- An identifier refers to no class. -/
  | undefinedClass (id : ClassId)
  /-- The primary base of a class refers to no class. -/
  | undefinedBase (cls : String) (base : ClassId)
  /-- The primary bases of a class lead back to it. -/
  | cyclicHierarchy (cls : String)
  /-- The primary base of a class has the wrong number of type arguments. -/
  | invalidBase (cls base : String) (expected found : Nat)
  /-- The listed ancestors of a class lack a class of its primary chain, or start with another
  class. -/
  | invalidAncestors (cls : String)
  /-- A type parameter has an identifier that is not positive or belongs to another parameter of the
  class. -/
  | invalidTypeParameter (cls name : String) (id : VarId)
  /-- A class has no slot of this number. -/
  | slotOutOfRange (cls : String) (slot slots : Nat)
  /-- A class has no type parameter at this position. -/
  | parameterOutOfRange (cls : String) (index parameters : Nat)
  /-- No type parameter of the class that introduced a slot is stored in it. -/
  | unmappedSlot (cls : String) (slot : Nat)
  /-- The projection of a class onto the class that introduced a slot lacks the argument for it. -/
  | missingArgument (cls : String) (slot : Nat) (origin : String) (index : Nat)
  deriving DecidableEq

namespace SlotError

/-- Whether the error is the fault of the hierarchy, and not of the question. A compiler that hands
over a hierarchy should only ever see errors about questions. -/
def isInternal : SlotError → Bool
  | undefinedClass .. | slotOutOfRange .. | parameterOutOfRange .. => false
  | undefinedBase .. | cyclicHierarchy .. | invalidBase .. | invalidAncestors .. => true
  | invalidTypeParameter .. | unmappedSlot .. | missingArgument .. => true

/-- The text of an error, which puts the names of classes and parameters in quotation marks and
gives counts as they are expected and found. -/
def message : SlotError → String
  | undefinedClass id => s!"the class ID {id} is undefined"
  | undefinedBase c base => s!"the primary base of '{c}' refers to the undefined class ID {base}"
  | cyclicHierarchy c => s!"the primary base chain of '{c}' is cyclic"
  | invalidBase c base expected found =>
    s!"the primary base '{base}' of '{c}' expects {expected} type argument(s), " ++
      s!"but {found} are given"
  | invalidAncestors c => s!"the ancestors of '{c}' don't match its primary base chain"
  | invalidTypeParameter c name id =>
    s!"the type parameter '{name}' of '{c}' uses the invalid ID {id}"
  | slotOutOfRange c slot slots =>
    s!"the slot {slot} is out of range for '{c}', which has {slots} slot(s)"
  | parameterOutOfRange c index parameters =>
    s!"the type parameter index {index} is out of range for '{c}', " ++
      s!"which has {parameters} type parameter(s)"
  | unmappedSlot c slot => s!"the slot {slot} of '{c}' isn't mapped to any type parameter"
  | missingArgument c slot origin index =>
    s!"the slot {slot} of '{c}' maps to type argument {index} of '{origin}', " ++
      "but the projection doesn't provide it"

end SlotError

end GenericSlots
