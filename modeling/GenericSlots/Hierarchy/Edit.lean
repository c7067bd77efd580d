import GenericSlots.Hierarchy.Basic
set_option autoImplicit false

/-!
# Changing a hierarchy

A change is a computation on a hierarchy that may fault, in which case it has no effect. Classes are
added and never removed, and a class keeps its name.

## Main definitions

* `GenericSlots.Edit`: changes of a hierarchy that give a value.
* `GenericSlots.Hierarchy.initial`: the hierarchy that every program starts with.
* `GenericSlots.Edit.alloc`, `GenericSlots.Edit.defineGeneric`, `GenericSlots.Edit.defineWithIds`:
  add a class.
* `GenericSlots.Edit.declareParam`, `GenericSlots.Edit.newParam`, `GenericSlots.Edit.addBase`,
  `GenericSlots.Edit.setAncestors`, `GenericSlots.Edit.setAbstract`, `GenericSlots.Edit.extend`:
  change a class.

## Main results

* `GenericSlots.Hierarchy.find?_update`: a change of one class leaves the others as they are.
* `GenericSlots.Hierarchy.find?_add`: adding a class leaves the others as they are.
* `GenericSlots.Edit.alloc_eq_ok_iff`, `GenericSlots.Edit.update_eq_ok_iff`: when a class is added
  and changed, and what this does.
-/

namespace GenericSlots

namespace ClassDef

/-- Declares a type parameter. A parameter of the same name is replaced where it stands, and a new
name comes last. So names stay distinct, but nothing keeps identifiers distinct. -/
def declareParam (d : ClassDef) (p : TypeParam) : ClassDef :=
  if d.params.any fun q => q.name = p.name then
    { d with params := d.params.map fun q => if q.name = p.name then p else q }
  else
    { d with params := d.params ++ [p] }

/-- The identifier for the next type parameter, which is its position counted from one. It depends
on how many parameters there are and not on the identifiers that they have. -/
def nextParamId (d : ClassDef) : VarId :=
  ⟨Int32.ofNat d.arity + 1⟩

end ClassDef

namespace Hierarchy

/-- The name of the class at the root of every hierarchy. -/
def objectName : String :=
  "builtins.object"

/-- Adds a class under the next identifier, which the name then refers to. An earlier class of that
name stays, but can no longer be found by its name. -/
def add (h : Hierarchy) (name : String) : Hierarchy :=
  let c := ClassId.ofIndex h.size
  ⟨h.classes.push (.fresh name c), h.names.insert name c⟩

/-- Changes a class, if it is defined. No other class is touched, and neither is what names refer
to. -/
def update (h : Hierarchy) (c : ClassId) (f : ClassDef → ClassDef) : Hierarchy :=
  { h with classes := h.classes.modify c.index f }

/-- The hierarchy that consists of the root class alone, which is where every program starts. -/
def initial : Hierarchy :=
  add ⟨#[], ∅⟩ objectName

/-- Changing a class does not change the number of classes. -/
@[simp] theorem size_update (h : Hierarchy) (c : ClassId) (f : ClassDef → ClassDef) :
    (h.update c f).size = h.size := by
  simp [size, update]

/-- Adding a class makes the number of classes larger by one. -/
@[simp] theorem size_add (h : Hierarchy) (name : String) : (h.add name).size = h.size + 1 := by
  simp [size, add]

/-- A change of one class leaves the others as they are, and changes that one if it is defined. -/
theorem find?_update (h : Hierarchy) (c d : ClassId) (f : ClassDef → ClassDef) :
    (h.update c f).find? d = if c = d then (h.find? d).map f else h.find? d := by
  simp only [find?, update, Array.getElem?_modify, ClassId.index_inj]

/-- Adding a class leaves the others as they are. At the first position that was free stands a class
to which nothing has been done. -/
theorem find?_add (h : Hierarchy) (name : String) (d : ClassId) :
    (h.add name).find? d =
      if d.index = h.size then some (.fresh name (.ofIndex h.size)) else h.find? d := by
  simp only [find?, add, Array.getElem?_push, size]
  rfl

end Hierarchy

/-- A change of a hierarchy that gives a value. If it faults, there is no changed hierarchy, so a
change that fails half-way has no effect. -/
abbrev Edit (α : Type) : Type :=
  StateT Hierarchy (Except Fault) α

namespace Edit

/-- Adds a class without parameters, bases or ancestors, and gives its identifier. This faults
exactly if there is no identifier left. -/
def alloc (name : String) : Edit ClassId := fun h =>
  if h.size < ClassId.limit then
    .ok (.ofIndex h.size, h.add name)
  else
    .error .tooManyClasses

/-- Reads a class in the course of a change, which leaves the hierarchy as it is. -/
def get (c : ClassId) : Edit ClassDef := fun h =>
  return (← h.get c, h)

/-- Changes a class, which has to be defined. -/
def update (c : ClassId) (f : ClassDef → ClassDef) : Edit Unit := fun h =>
  if h.IsDefined c then
    .ok ((), h.update c f)
  else
    .error (.undefinedClass c)

/-- A class is added unless all identifiers are in use, and then the result is the hierarchy with
the class at its end. -/
theorem alloc_eq_ok_iff {name : String} {h h' : Hierarchy} {c : ClassId} :
    alloc name h = .ok (c, h') ↔
      h.size < ClassId.limit ∧ c = .ofIndex h.size ∧ h' = h.add name := by
  rw [alloc]
  by_cases hs : h.size < ClassId.limit
  · simp [hs, eq_comm]
  · simp [hs]

/-- A class is changed exactly if it is defined, and then the result is the hierarchy with this one
change. -/
theorem update_eq_ok_iff {c : ClassId} {f : ClassDef → ClassDef} {h h' : Hierarchy} {a : Unit} :
    update c f h = .ok (a, h') ↔ h.IsDefined c ∧ h' = h.update c f := by
  rw [update]
  by_cases hc : h.IsDefined c
  · simp [hc, eq_comm]
  · simp [hc]

/-- Marks a class as an interface. The mark is kept for those who read the class; nothing here
depends on it. -/
def setAbstract (c : ClassId) : Edit Unit :=
  update c fun d => { d with isAbstract := true }

/-- Declares a type parameter with an identifier that the caller chooses, which may be in use
already. -/
def declareParam (c : ClassId) (p : TypeParam) : Edit Unit :=
  update c fun d => d.declareParam p

/-- Declares a type parameter with the next identifier, and gives this identifier. -/
def newParam (c : ClassId) (name : String) : Edit VarId := do
  let id := (← get c).nextParamId
  declareParam c ⟨name, id⟩
  return id

/-- Adds a declared base after those that the class has. The first base that is added to a class is
its primary base. -/
def addBase (c : ClassId) (base : Instance) : Edit Unit :=
  update c fun d => { d with bases := d.bases ++ [base] }

/-- Lists the ancestors of a class, in place of those listed before. The class itself is always the
first and is not part of the argument. -/
def setAncestors (c : ClassId) (ancestors : List ClassId) : Edit Unit :=
  update c fun d => { d with ancestors := c :: ancestors }

/-- Adds a declared base and lists its ancestors as those of the class. The ancestors are read
before the base is added, and replace those that the class had. -/
def extend (c : ClassId) (base : Instance) : Edit Unit := do
  let ancestors := (← get base.cls).ancestors
  addBase c base
  setAncestors c ancestors

/-- Adds a class with type parameters, whose identifiers are chosen one by one. They are the
positions of the parameters, counted from one, if no name is repeated. -/
def defineGeneric (name : String) (params : List String) : Edit ClassId := do
  let c ← alloc name
  params.forM fun p => discard (newParam c p)
  return c

/-- Adds a class with type parameters and their identifiers, which the caller chooses. -/
def defineWithIds (name : String) (params : List TypeParam) : Edit ClassId := do
  let c ← alloc name
  params.forM (declareParam c)
  return c

end Edit

end GenericSlots
