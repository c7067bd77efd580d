import GenericSlots.Failure
import GenericSlots.Slot.Error
import GenericSlots.Slot.Layout
set_option autoImplicit false

/-!
# Slot tables

A slot table holds the layouts of all classes of a hierarchy. Questions to it name the hierarchy
again, because classes may have been added since the table was made: a class that the table does not
cover counts as undefined, and so does one that the hierarchy lacks.

## Main definitions

* `GenericSlots.SlotTable`: the layouts of the classes, by identifier.
* `GenericSlots.SlotTable.numSlots`, `GenericSlots.SlotTable.ownSlots`,
  `GenericSlots.SlotTable.chain`: the slots and the primary chain of a class.
* `GenericSlots.SlotTable.slotOrigin`: the class that introduced a slot and its type parameter.
* `GenericSlots.SlotTable.paramSlot`: the slot of a type parameter.
-/

namespace GenericSlots

/-- The slot layouts of the classes of a hierarchy. The table does not hold the hierarchy, nor
anything of its classes but their slots. -/
structure SlotTable where
  /-- The policy that the layouts follow. -/
  policy : SlotPolicy
  /-- The layouts, at the positions that the identifiers of the classes name. -/
  layouts : Array Layout
  deriving DecidableEq

namespace SlotTable

/-- The layout of a class, which both the hierarchy and the table have to know. All other questions
begin with this one, so all of them are refused for the same classes. -/
def layout (t : SlotTable) (h : Hierarchy) (c : ClassId) : Except (Failure SlotError) Layout :=
  if h.IsDefined c then
    match t.layouts[c.index]? with
    | some l => .ok l
    | none => refuse (.undefinedClass c)
  else
    refuse (.undefinedClass c)

/-- The number of slots of a class, with those of its primary base. -/
def numSlots (t : SlotTable) (h : Hierarchy) (c : ClassId) : Except (Failure SlotError) Nat :=
  return (← t.layout h c).numSlots

/-- The number of slots that a class introduces, which follow those of its primary base. -/
def ownSlots (t : SlotTable) (h : Hierarchy) (c : ClassId) : Except (Failure SlotError) Nat :=
  return (← t.layout h c).ownSlots

/-- The chain of primary bases of a class, from the root to the class itself. -/
def chain (t : SlotTable) (h : Hierarchy) (c : ClassId) :
    Except (Failure SlotError) (List ClassId) :=
  return (← t.layout h c).chain

/-- The class that introduced a slot, which is the class itself or one of its primary chain, and the
position of the type parameter of that class that is stored in the slot. If the class stores several
parameters there, the position is that of the first. -/
def slotOrigin (t : SlotTable) (h : Hierarchy) (c : ClassId) (slot : Nat) :
    Except (Failure SlotError) (ClassId × Nat) := do
  let l ← t.layout h c
  if hs : slot < l.numSlots then
    let origin := (l.originStage slot hs).cls
    match (← t.layout h origin).paramSlots.findIdx? fun s => s = slot with
    | some index => return (origin, index)
    | none => refuse (.unmappedSlot (← h.nameOf origin) slot)
  else
    refuse (.slotOutOfRange (← h.nameOf c) slot l.numSlots)

/-- The slot that stores the type parameter of a class at a position. A parameter that was declared
after the table was made has no slot. -/
def paramSlot (t : SlotTable) (h : Hierarchy) (c : ClassId) (index : Nat) :
    Except (Failure SlotError) Nat := do
  let l ← t.layout h c
  match l.paramSlots[index]? with
  | some slot => return slot
  | none => refuse (.parameterOutOfRange (← h.nameOf c) index l.paramSlots.length)

end SlotTable

end GenericSlots
