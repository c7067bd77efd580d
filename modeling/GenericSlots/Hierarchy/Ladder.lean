import GenericSlots.Hierarchy.Edit
set_option autoImplicit false

/-!
# Ladders of diamonds

A ladder is a hierarchy of generic classes with one type parameter each. At the bottom stands the
join `D0`. Every level above has two sides that extend the join below it, and a join of both sides.
The number of ways from a join down to `D0` doubles with every level, while the number of classes
grows by three, which makes ladders the hard case for enumerating derivations.

## Main definitions

* `GenericSlots.Ladder`: the classes of a ladder.
* `GenericSlots.Edit.ladder`: adds a ladder of a given height to a hierarchy.
-/

namespace GenericSlots

/-- A level of a ladder: three classes that stand in the shape of a diamond above a join. Both sides
extend the join below, and the join of the level has both sides as bases, the left one first. -/
structure Ladder.Level where
  /-- The first base of the join. -/
  left : ClassId
  /-- The second base of the join. -/
  right : ClassId
  /-- The class that joins both sides. -/
  join : ClassId

/-- A ladder of diamonds, given by the identifiers of its classes. What these classes are like is up
to the hierarchy that they belong to. -/
structure Ladder where
  /-- The join at the bottom. -/
  bottom : ClassId
  /-- The levels above, from the lowest to the highest. -/
  levels : List Ladder.Level

/-- All joins, from the bottom to the top. There is one more join than there are levels. -/
def Ladder.joins (l : Ladder) : List ClassId :=
  l.bottom :: l.levels.map Ladder.Level.join

namespace Edit

/-- An instance of a class with one parameter, in terms of the first parameter of the class that
uses it. All bases in a ladder are of this form, so arguments are passed on as they are. -/
private def passOn (c : ClassId) : Instance :=
  ⟨c, [.var ⟨1⟩]⟩

/-- Adds a level above a join. Classes are added before any base is declared, and the ancestors of
the new join are its two sides and then those of the join below. -/
def ladderLevel (number : Nat) (below : ClassId) : Edit Ladder.Level := do
  let left ← defineGeneric s!"L{number}" ["T"]
  let right ← defineGeneric s!"R{number}" ["T"]
  let join ← defineGeneric s!"D{number}" ["T"]
  extend left (passOn below)
  extend right (passOn below)
  addBase join (passOn left)
  addBase join (passOn right)
  setAncestors join ([left, right] ++ (← get below).ancestors)
  return ⟨left, right, join⟩

/-- Adds as many levels as asked for above a join, numbered from a start. Each level stands on the
join of the level before. -/
def ladderLevels (number : Nat) (below : ClassId) : Nat → Edit (List Ladder.Level)
  | 0 => return []
  | height + 1 => do
    let level ← ladderLevel number below
    return level :: (← ladderLevels (number + 1) level.join height)

/-- Adds a ladder of the given height, which is the number of its levels. A ladder without levels
consists of the join at the bottom. -/
def ladder (height : Nat) : Edit Ladder := do
  let bottom ← defineGeneric "D0" ["T"]
  return ⟨bottom, ← ladderLevels 1 bottom height⟩

end Edit

end GenericSlots
