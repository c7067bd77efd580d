import GenericSlots.Hierarchy.Basic
set_option autoImplicit false

/-!
# Formatting types

Types are formatted for people to read. Instances and callables are shown down to a fixed number of
levels, below which an ellipsis stands for them. A type variable is shown as a backtick and its
number, after the name that the class in scope gives it, if there is one.

## Main definitions

* `GenericSlots.Ty.render`: the text of a type, showing a given number of levels.
* `GenericSlots.Hierarchy.format`, `GenericSlots.Hierarchy.formatList`: the text of a type and of a
  list of types.

## Main results

* `GenericSlots.Ty.render_inst_succ`, `GenericSlots.Ty.render_callable_succ`: the text of an
  instance and of a callable in terms of the texts of their parts.

## Implementation notes

Formatting faults only on what it shows: a class name that is needed but not defined, or a variable
in the scope of a class that is not defined.
-/

namespace GenericSlots

/-- The text of a type variable in the scope of a class, or outside of any. It ends with a backtick
and the number of the variable, before which stands the name of the parameter of the class in scope
that has this number. A variable that the class does not declare is written without a name. -/
def VarId.render (h : Hierarchy) (scope : Option ClassId) (v : VarId) : Except Fault String :=
  match scope with
  | none => return s!"`{v}"
  | some c => do
    let name := ((← h.get c).paramWithId? v).elim "" TypeParam.name
    return s!"{name}`{v}"

namespace Argument

/-- What stands before the type of an argument when a callable is written: a star if the argument
stands for any number of arguments. -/
def opening {α : Type} (a : Argument α) : String :=
  match a.kind with
  | .rest => "*"
  | .positional | .optional => ""

/-- What stands after the type of an argument when a callable is written: an equals sign if the
argument may be left out. -/
def closing {α : Type} (a : Argument α) : String :=
  match a.kind with
  | .optional => " ="
  | .positional | .rest => ""

end Argument

namespace Ty

/-- The text of an instance, given that of its arguments. They stand in brackets after the name of
the class, and an instance without arguments is written without brackets. -/
def instText (name : String) (args : List String) : String :=
  match args with
  | [] => name
  | _ => name ++ "[" ++ ", ".intercalate args ++ "]"

/-- The text of a callable, given that of its arguments and of its result, if that is shown. A class
used as a value is marked by a word of its own. -/
def callableText (isTypeObject : Bool) (arguments : List String) (result : Option String) :
    String :=
  (if isTypeObject then "def type (" else "def (") ++ ", ".intercalate arguments ++ ")" ++
    result.elim "" (" -> " ++ ·)

/-- What stands for an instance or a callable that lies below the levels shown, whatever it is. -/
def ellipsis : String :=
  "..."

mutual

/-- The text of a type of which a number of levels are shown. Only instances and callables take up a
level, and they are the only types that are cut off when no level is left. The result of a callable
is shown unless it is `void`.

The name of a class is looked up when it is written, so the text of a type may fault, but not
because of a class that is cut off. -/
def render (h : Hierarchy) (scope : Option ClassId) (levels : Nat) : Ty → Except Fault String
  | .any => return "Any"
  | .void => return "void"
  | .noneType => return "None"
  | .error => return "<ERROR>"
  | .var v => v.render h scope
  | .inst c args =>
    match levels with
    | 0 => return ellipsis
    | levels + 1 => do
      let name ← h.nameOf c
      return instText name (← renderList h scope levels args)
  | .callable arguments result isTypeObject =>
    match levels with
    | 0 => return ellipsis
    | levels + 1 => do
      let arguments ← renderArguments h scope levels arguments
      let result ← if result.isVoid then pure none else some <$> render h scope levels result
      return callableText isTypeObject arguments result
termination_by structural t => t

/-- The texts of the types of a list, with the same number of levels shown of each. -/
def renderList (h : Hierarchy) (scope : Option ClassId) (levels : Nat) :
    List Ty → Except Fault (List String)
  | [] => return []
  | t :: ts => do
    let text ← render h scope levels t
    return text :: (← renderList h scope levels ts)
termination_by structural ts => ts

/-- The texts of the arguments of a callable, with the same number of levels shown of each. -/
def renderArguments (h : Hierarchy) (scope : Option ClassId) (levels : Nat) :
    List (Argument Ty) → Except Fault (List String)
  | [] => return []
  | a :: as => do
    let text ← renderArgument h scope levels a
    return text :: (← renderArguments h scope levels as)
termination_by structural as => as

/-- The text of an argument of a callable, which is that of its type with a mark for its kind. Names
are not shown. -/
def renderArgument (h : Hierarchy) (scope : Option ClassId) (levels : Nat) :
    Argument Ty → Except Fault String
  | ⟨kind, name, t⟩ => do
    let text ← render h scope levels t
    return (Argument.mk kind name t).opening ++ text ++ (Argument.mk kind name t).closing
termination_by structural a => a

end

/-- The texts of a list of types are those of its members, written one after another until one
faults. -/
theorem renderList_eq (h : Hierarchy) (scope : Option ClassId) (levels : Nat) (ts : List Ty) :
    renderList h scope levels ts = ts.mapM (render h scope levels) := by
  induction ts with
  | nil => rfl
  | cons t ts ih => rw [renderList, List.mapM_cons, ih]

/-- The texts of the arguments of a callable are those of their types with the marks for their
kinds, written one after another until one faults. -/
theorem renderArguments_eq (h : Hierarchy) (scope : Option ClassId) (levels : Nat)
    (as : List (Argument Ty)) :
    renderArguments h scope levels as = as.mapM fun a => do
      return a.opening ++ (← render h scope levels a.type) ++ a.closing := by
  induction as with
  | nil => rfl
  | cons a as ih =>
    rw [renderArguments, List.mapM_cons, ih]
    cases a
    rfl

/-- The text of an instance in terms of the texts of its arguments, which show one level less. The
name of the class is looked up first. -/
theorem render_inst_succ (h : Hierarchy) (scope : Option ClassId) (levels : Nat) (c : ClassId)
    (args : List Ty) :
    render h scope (levels + 1) (inst c args) = do
      let name ← h.nameOf c
      return instText name (← args.mapM (render h scope levels)) := by
  rw [render, renderList_eq]

/-- The text of a callable in terms of the texts of its parts, which show one level less. The
arguments are written before the result, so if both fault, it is the fault of an argument that is
reported. -/
theorem render_callable_succ (h : Hierarchy) (scope : Option ClassId) (levels : Nat)
    (arguments : List (Argument Ty)) (result : Ty) (isTypeObject : Bool) :
    render h scope (levels + 1) (callable arguments result isTypeObject) = do
      let arguments ← arguments.mapM fun a => do
        return a.opening ++ (← render h scope levels a.type) ++ a.closing
      let result ← if result.isVoid then pure none else some <$> render h scope levels result
      return callableText isTypeObject arguments result := by
  rw [render, renderArguments_eq]

end Ty

namespace Hierarchy

/-- The number of levels of instances and callables that are shown. An instance that has as many
others around it is written as an ellipsis. -/
def shownLevels : Nat :=
  8

/-- The text of a type as people get to read it, in the scope of a class or outside of any. -/
def format (h : Hierarchy) (scope : Option ClassId) (t : Ty) : Except Fault String :=
  t.render h scope shownLevels

/-- The text of a list of types, in brackets and with commas between them. The list takes up no
level of its own, so its members are written as they are on their own. -/
def formatList (h : Hierarchy) (scope : Option ClassId) (ts : List Ty) : Except Fault String :=
  return "[" ++ ", ".intercalate (← ts.mapM (h.format scope)) ++ "]"

end Hierarchy

end GenericSlots
