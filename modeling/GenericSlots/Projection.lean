import GenericSlots.Derivation
import GenericSlots.Log.Run
set_option autoImplicit false

/-!
# Projections

An instance of a class is also an instance of each ancestor of the class. Its projection onto an
ancestor has the type arguments that the declared bases on the way give to the ancestor, where the
type arguments of the instance stand for the type parameters of its class.

## Main definitions

* `GenericSlots.Hierarchy.directSupertype`: the projection onto a declared base.
* `GenericSlots.Hierarchy.supertype`: the projection onto an ancestor along the first path to it.
* `GenericSlots.Hierarchy.supertypes`: the projections onto an ancestor along all paths to it.

## Implementation notes

A path is followed class by class, and each step takes the first base that the class declares for
the next class on the path.
-/

namespace GenericSlots

/-- Why an instance has no projection onto a class. There is one reason, and it is given by the
names of the classes, so that it can be shown after the hierarchy has changed. -/
inductive ProjectionError where
  /-- The class does not list the other among its ancestors. -/
  | notAnAncestor (cls ancestor : String)
  deriving DecidableEq

/-- The text of an error, which puts the names of classes in quotation marks. -/
def ProjectionError.message : ProjectionError → String
  | notAnAncestor c a => s!"the class '{a}' isn't an ancestor of the class '{c}'"

namespace Hierarchy

/-- The projection of an instance onto a declared base of its class. If the class declares no such
base, every argument could be anything. If it declares several with the same class, the first is
taken. -/
def directSupertype (h : Hierarchy) (i : Instance) (base : ClassId) : Except Fault Instance := do
  let d ← h.get i.cls
  match d.baseOf? base with
  | some b => return b.expand (d.assignArgs i.args)
  | none => h.filled base .any

/-- The projection of an instance along a path of classes, step by step. An empty path leads back to
the instance itself. -/
def followPath (h : Hierarchy) (i : Instance) (path : List ClassId) : Except Fault Instance :=
  path.foldlM h.directSupertype i

/-- The projection of an instance onto an ancestor of its class, along the first path of declared
bases. If no path leads to the ancestor, every argument could be anything, and this is reported.

An instance of the ancestor itself is its own projection, whatever its arguments. Otherwise, a class
that is not listed among the ancestors is refused, even if the bases lead to it. -/
def supertype (h : Hierarchy) (i : Instance) (ancestor : ClassId) :
    Run Event ProjectionError Instance := do
  if i.cls = ancestor then
    return i
  unless ← h.hasAncestor i.cls ancestor do
    let name ← h.nameOf i.cls
    let ancestorName ← h.nameOf ancestor
    Run.fail (.notAnAncestor name ancestorName)
  match ← h.path i.cls ancestor with
  | some path => h.followPath i path
  | none =>
    Run.report (.baselessAncestor i.cls ancestor)
    h.filled ancestor .any

/-- The projections of an instance onto an ancestor of its class, one for each path, in the order of
declarations. Whether the ancestor is listed does not matter here, and a class without a path to it
has no projections. -/
def supertypes (h : Hierarchy) (i : Instance) (ancestor : ClassId) :
    Except Fault (List Instance) := do
  (← h.paths i.cls ancestor).mapM (h.followPath i)

end Hierarchy

end GenericSlots
