import GenericSlots.Derivation
import GenericSlots.Log.Run
import GenericSlots.Slot.Table
set_option autoImplicit false

/-!
# Laying out a hierarchy

The slots of a class are laid out once those of its primary base are. For each class in turn, the
primary chain is climbed up to a class that is laid out already or has no base, and the classes
passed are then laid out from the top of the climb down. A hierarchy is refused at the first class
that is found to be invalid.

## Main definitions

* `GenericSlots.SlotTable.build`: lays out all classes of a hierarchy.
* `GenericSlots.Hierarchy.climb`: the classes of a primary chain that are not laid out yet.
* `GenericSlots.Hierarchy.layOut`: checks a class and lays it out.

## Implementation notes

Meeting a class again on one climb is the only way for a primary chain to be cyclic: classes met on
an earlier climb are laid out, or the hierarchy has been refused.
-/

namespace GenericSlots

/-- The layouts computed so far, at the positions that the identifiers of the classes name. There is
a place for each class from the start. -/
abbrev Layouts : Type :=
  Array (Option Layout)

/-- The layout of a class, if it is computed. A class for which there is no place has none. -/
def Layouts.of? (ls : Layouts) (c : ClassId) : Option Layout :=
  ls[c.index]?.join

/-- The first type parameter whose identifier is not positive or is among those seen, where each
parameter is seen by the ones after it. -/
def TypeParam.firstInvalid? (seen : List VarId) : List TypeParam → Option TypeParam
  | [] => none
  | p :: ps =>
    if p.id.isClassParameter ∧ p.id ∉ seen then
      firstInvalid? (p.id :: seen) ps
    else
      some p

namespace Hierarchy

/-- The primary chain of a class up to a class that is laid out or has no base, the topmost class
first. The classes passed on the way are those of `walk`.

A climb is refused if it comes back to a class that it has passed, or would go on to a class that is
not defined. It checks nothing else about the classes. -/
def climb (h : Hierarchy) (ls : Layouts) (walk : List ClassId) (c : ClassId) :
    Except (Failure SlotError) (List ClassId) :=
  if (ls.of? c).isSome then
    return walk
  else if _hc : h.IsDefined c ∧ c ∉ walk then do
    let d ← h.get c
    match d.primaryBase? with
    | none => return c :: walk
    | some base =>
      if h.IsDefined base.cls then
        climb h ls (c :: walk) base.cls
      else
        refuse (.undefinedBase d.name base.cls)
  else do
    refuse (.cyclicHierarchy (← h.nameOf c))
termination_by h.unseen walk
decreasing_by exact unseen_cons_lt _hc.1 _hc.2

/-- Checks a class, and lays it out if it passes. The layout of the primary base has to be computed
before. The checks are made one after another, and the first that the class does not pass is what it
is refused for: its parameters, the class itself as its first ancestor, the number of arguments of
its base, and the chain of its base among its ancestors. -/
def layOut (h : Hierarchy) (policy : SlotPolicy) (ls : Layouts) (c : ClassId) :
    Except (Failure SlotError) Layout := do
  let d ← h.get c
  if let some p := TypeParam.firstInvalid? [] d.params then
    refuse (.invalidTypeParameter d.name p.name p.id)
  if d.ancestors.head? ≠ some c then
    refuse (.invalidAncestors d.name)
  match d.primaryBase? with
  | none => return .root c d.arity
  | some base =>
    let b ← h.get base.cls
    if base.args.length ≠ b.arity then
      refuse (.invalidBase d.name b.name b.arity base.args.length)
    match ls.of? base.cls with
    | none => refuse (.cyclicHierarchy d.name)
    | some l =>
      unless l.chain.all fun a => a ∈ d.ancestors do
        refuse (.invalidAncestors d.name)
      return l.extend c (d.params.map TypeParam.id) (policy.reusedSlot? base.args l.paramSlots)

/-- Lays out classes one after another, and reports each. A class that is refused ends this, but
what was reported before stays reported. -/
def layOutAll (h : Hierarchy) (policy : SlotPolicy) (ls : Layouts) :
    List ClassId → Run Event SlotError Layouts
  | [] => return ls
  | c :: cs => do
    let l ← h.layOut policy ls c
    Run.report (.layoutComputed c l.numSlots)
    layOutAll h policy (ls.setIfInBounds c.index (some l)) cs

/-- Lays out classes one after another, each together with its primary chain. A class that was laid
out as part of another chain is passed over. -/
def layOutChains (h : Hierarchy) (policy : SlotPolicy) (ls : Layouts) :
    List ClassId → Run Event SlotError Layouts
  | [] => return ls
  | c :: cs => do
    let walk ← h.climb ls [] c
    let ls ← h.layOutAll policy ls walk
    layOutChains h policy ls cs

end Hierarchy

/-- Lays out all classes of a hierarchy by a policy. The result is a table, or the first defect that
was found; what was laid out before is reported in either case. -/
def SlotTable.build (h : Hierarchy) (policy : SlotPolicy) : Run Event SlotError SlotTable := do
  let ls ← h.layOutChains policy (Array.replicate h.size none) h.classIds
  let layouts := ls.filterMap id
  Run.report (.tableComputed layouts.size policy)
  return ⟨policy, layouts⟩

end GenericSlots
