import GenericSlots.Projection
import GenericSlots.Slot.Table
set_option autoImplicit false

/-!
# Slot mappings

The mapping of a class gives the value that each slot of an object of the class stores, in terms of
the type parameters of the class. Code that constructs an object only has to put the type arguments
in their place, also for the slots that the class has from its bases.

For example, let `D` have the type parameter `S`, and let `C` have the type parameters `T` and `S`
and the base `D[E[S]]`. The mapping of `C` is `[E[S], T, S]`: slot 0 stores the parameter of `D`,
which `C` sets to `E[S]`, and slots 1 and 2 store the parameters of `C`.

## Main definitions

* `GenericSlots.Hierarchy.followChain`: the projections of an instance onto its primary chain.
* `GenericSlots.SlotTable.compile`: the mapping of a class.
-/

namespace GenericSlots

/-- The projections of an instance onto the classes of a chain, each one primary base further from
the instance than the one before. A class that is that of the current instance repeats it, so the
chain may begin with the class itself. -/
def Hierarchy.followChain (h : Hierarchy) (current : Instance) :
    List ClassId → Except Fault (List Instance)
  | [] => return []
  | c :: cs => do
    let next ← if c = current.cls then pure current else h.directSupertype current c
    return next :: (← followChain h next cs)

namespace SlotTable

/-- The value that a slot of a class stores, given the projections onto its primary chain: the
argument that the projection onto the origin of the slot has for the parameter stored there. -/
def slotValue (t : SlotTable) (h : Hierarchy) (c : ClassId) (projections : List Instance)
    (slot : Nat) : Except (Failure SlotError) Ty := do
  let (origin, index) ← t.slotOrigin h c slot
  match projections.find? (fun i => i.cls = origin) >>= fun i => i.args[index]? with
  | some value => return value
  | none => refuse (.missingArgument (← h.nameOf c) slot (← h.nameOf origin) index)

/-- The values that the slots of a class store, in the order of slots and in terms of the type
parameters of the class. All projections are made before the first value is determined, and every
value is reported once it is. -/
def compile (t : SlotTable) (h : Hierarchy) (c : ClassId) : Run Event SlotError (List Ty) := do
  let slots ← t.numSlots h c
  let self ← h.selfType c
  let chain ← t.chain h c
  let projections ← h.followChain self chain.reverse
  (List.range slots).mapM fun slot => do
    let value ← t.slotValue h c projections slot
    Run.report (.slotCompiled c slot value)
    return value

end SlotTable

end GenericSlots
