import GenericSlots.Ident
set_option autoImplicit false

/-!
# Types

The types of a gradually typed program: a few types without parts, type variables, instances of
classes, and callables. A type may mention classes that do not exist, and an instance may have any
number of arguments, whatever its class declares.

## Main definitions

* `GenericSlots.Ty`: types.
* `GenericSlots.Instance`: an instance of a class together with its type arguments.
* `GenericSlots.Ty.vars`: the type variables that occur in a type, from left to right.

## Main results

* `GenericSlots.Ty.induct`: induction on types, with one hypothesis for all arguments of an instance
  and one for all arguments of a callable.
* `GenericSlots.Ty.same_iff`: structural comparison decides equality.

## Implementation notes

Types nest through lists, so functions on them recurse on a type, on a list of types and on the
arguments of a callable at once. Every such function has lemmas that restate the latter two by
`List.map` or `List.flatMap`, after which only `Ty.induct` is needed.
-/

namespace GenericSlots

/-- How a callable takes an argument. The kind decides how the argument is written when the callable
is formatted, and nothing else here. -/
inductive ArgumentKind where
  /-- The argument has to be given. -/
  | positional
  /-- The argument may be left out. -/
  | optional
  /-- The argument stands for any number of arguments. -/
  | rest
  deriving DecidableEq

/-- An argument of a callable whose type is drawn from `α`. The parameter `α` is there because types
nest through their arguments, so this structure has to come before `Ty`. -/
structure Argument (α : Type) where
  /-- How the argument is taken. -/
  kind : ArgumentKind
  /-- The name, for an argument that has one. -/
  name : Option String
  /-- The type of the values that it accepts. -/
  type : α
  deriving DecidableEq

/-- Replaces the type of an argument by its image under a function. The kind and the name of the
argument stay as they are. -/
def Argument.map {α β : Type} (f : α → β) (a : Argument α) : Argument β :=
  ⟨a.kind, a.name, f a.type⟩

/-- The type of an argument whose type was replaced is the image of the type that it had. -/
@[simp] theorem Argument.type_map {α β : Type} (f : α → β) (a : Argument α) :
    (a.map f).type = f a.type := rfl

/-- An argument whose type was replaced is taken in the same way as before. -/
@[simp] theorem Argument.kind_map {α β : Type} (f : α → β) (a : Argument α) :
    (a.map f).kind = a.kind := rfl

/-- A type of a gradually typed program. Nothing is checked when a type is made: an instance may
name a class that no hierarchy has, and have more or fewer arguments than its class declares
parameters. -/
inductive Ty where
  /-- The type that could be anything and opts out of checking. -/
  | any
  /-- The result of a function that returns no value. -/
  | void
  /-- The type of the literal for the absent value. -/
  | noneType
  /-- The type of an expression that could not be typed. -/
  | error
  /-- A type variable, declared by the surrounding class or function. -/
  | var (v : VarId)
  /-- An instance of a class. -/
  | inst (cls : ClassId) (args : List Ty)
  /-- A function or method, or a class used as a value. -/
  | callable (arguments : List (Argument Ty)) (result : Ty) (isTypeObject : Bool)

/-- An instance of a class together with its type arguments, in the order in which the class
declares its type parameters. Bases of classes are instances, and so are the results of a projection
onto an ancestor. -/
structure Instance where
  /-- The class. -/
  cls : ClassId
  /-- The type arguments. -/
  args : List Ty

namespace Ty

/-- The type that stands for none in particular is the one that could be anything. -/
instance : Inhabited Ty :=
  ⟨any⟩

/-- The variable that the type consists of, if it is nothing but a variable. A type that has a
variable somewhere inside has no such variable itself. -/
def asVar? : Ty → Option VarId
  | var v => some v
  | _ => none

/-- Whether the type is the result of a function that returns no value. A callable with such a
result is written without it. -/
def isVoid : Ty → Bool
  | void => true
  | _ => false

/-- A type consists of a variable exactly if it is that variable as a type. -/
theorem asVar?_eq_some_iff {t : Ty} {v : VarId} : t.asVar? = some v ↔ t = var v := by
  cases t <;> simp [asVar?]

/-- The test for the result of a function without a value accepts that type and no other. -/
theorem isVoid_iff {t : Ty} : t.isVoid = true ↔ t = void := by
  cases t <;> simp [isVoid]

/-! ## Induction -/

section Induction

variable {motive : Ty → Prop}

/-- Induction on types. An instance may assume the property of all its arguments, and a callable
that of the types of all its arguments and of its result.

**Proof sketch.** Recursion on the size of the type. A member of the argument list is smaller than
the list, and the list is smaller than the type; the type of an argument of a callable is smaller
than the argument. -/
@[elab_as_elim, induction_eliminator]
theorem induct (any : motive any) (void : motive void) (noneType : motive noneType)
    (error : motive error) (var : ∀ v, motive (var v))
    (inst : ∀ c args, (∀ t ∈ args, motive t) → motive (inst c args))
    (callable : ∀ arguments result isTypeObject, (∀ a ∈ arguments, motive a.type) →
      motive result → motive (callable arguments result isTypeObject)) (t : Ty) : motive t :=
  match t with
  | .any => any
  | .void => void
  | .noneType => noneType
  | .error => error
  | .var v => var v
  | .inst c args => inst c args fun t _ =>
      induct any void noneType error var inst callable t
  | .callable arguments result isTypeObject => callable arguments result isTypeObject
      (fun a _ => induct any void noneType error var inst callable a.type)
      (induct any void noneType error var inst callable result)
termination_by sizeOf t
decreasing_by
  · have := List.sizeOf_lt_of_mem ‹_ ∈ args›
    simp only [Ty.inst.sizeOf_spec]
    omega
  · have := List.sizeOf_lt_of_mem ‹_ ∈ arguments›
    have : sizeOf a.type < sizeOf a := by
      cases a
      simp only [Argument.mk.sizeOf_spec]
      omega
    simp only [Ty.callable.sizeOf_spec]
    omega
  · simp only [Ty.callable.sizeOf_spec]
    omega

end Induction

/-! ## Equality -/

mutual

/-- Whether two types have the same structure. The comparison goes through both types at once and
looks at every part, the names and kinds of the arguments of callables included. -/
def same : Ty → Ty → Bool
  | .any, .any => true
  | .void, .void => true
  | .noneType, .noneType => true
  | .error, .error => true
  | .var v, .var w => v = w
  | .inst c args, .inst d args' => c = d && sameList args args'
  | .callable arguments result isTypeObject, .callable arguments' result' isTypeObject' =>
      sameArguments arguments arguments' && same result result' && isTypeObject == isTypeObject'
  | _, _ => false
termination_by structural t => t

/-- Whether two lists have the same length and consist of types of the same structure, one by
one. -/
def sameList : List Ty → List Ty → Bool
  | [], [] => true
  | t :: ts, u :: us => same t u && sameList ts us
  | _, _ => false
termination_by structural ts => ts

/-- Whether two lists have the same length and consist of arguments that agree in all parts, one by
one. -/
def sameArguments : List (Argument Ty) → List (Argument Ty) → Bool
  | [], [] => true
  | a :: as, b :: bs => sameArgument a b && sameArguments as bs
  | _, _ => false
termination_by structural as => as

/-- Whether two arguments agree in all parts: kind, name and the structure of their types. -/
def sameArgument : Argument Ty → Argument Ty → Bool
  | ⟨kind, name, t⟩, b => kind = b.kind && name = b.name && same t b.type
termination_by structural a => a

end

mutual

/-- Two types have the same structure exactly if they are equal. So structural comparison is a
decision procedure for equality.

**Proof sketch.** Structural recursion on the first type, together with the three statements below
about lists and arguments, and a case distinction on the second type. Types with different
constructors are neither the same nor equal. -/
theorem same_iff : ∀ t u : Ty, same t u = true ↔ t = u
  | .any, u => by cases u <;> simp [same]
  | .void, u => by cases u <;> simp [same]
  | .noneType, u => by cases u <;> simp [same]
  | .error, u => by cases u <;> simp [same]
  | .var v, u => by cases u <;> simp [same]
  | .inst c args, u => by cases u <;> simp [same, sameList_iff args]
  | .callable arguments result isTypeObject, u => by
      cases u <;> simp [same, sameArguments_iff arguments, same_iff result, and_assoc]
termination_by structural t => t

/-- Two lists of types have the same structure exactly if they are equal, by recursion on the first
list. -/
theorem sameList_iff : ∀ ts us : List Ty, sameList ts us = true ↔ ts = us
  | [], us => by cases us <;> simp [sameList]
  | t :: ts, us => by cases us <;> simp [sameList, same_iff t, sameList_iff ts]
termination_by structural ts => ts

/-- Two lists of arguments have the same structure exactly if they are equal, by recursion on the
first list. -/
theorem sameArguments_iff : ∀ as bs : List (Argument Ty), sameArguments as bs = true ↔ as = bs
  | [], bs => by cases bs <;> simp [sameArguments]
  | a :: as, bs => by cases bs <;> simp [sameArguments, sameArgument_iff a, sameArguments_iff as]
termination_by structural as => as

/-- Two arguments have the same structure exactly if they are equal, since all three parts are
compared. -/
theorem sameArgument_iff : ∀ a b : Argument Ty, sameArgument a b = true ↔ a = b
  | ⟨kind, name, t⟩, b => by cases b; simp [sameArgument, same_iff t, and_assoc]
termination_by structural a => a

end

/-- Equality of types is decided by structural comparison, so that lists of types can be searched
and compared as data. -/
instance : DecidableEq Ty :=
  fun t u => decidable_of_iff (same t u = true) (same_iff t u)

/-! ## Variables -/

mutual

/-- The type variables that occur in a type, from left to right and as often as they occur. The
result of a callable comes after its arguments. -/
def vars : Ty → List VarId
  | .var v => [v]
  | .inst _ args => varsList args
  | .callable arguments result _ => varsArguments arguments ++ vars result
  | _ => []
termination_by structural t => t

/-- The type variables that occur in a list of types, those of the first type first. -/
def varsList : List Ty → List VarId
  | [] => []
  | t :: ts => vars t ++ varsList ts
termination_by structural ts => ts

/-- The type variables that occur in the types of the arguments of a callable, those of the first
argument first. -/
def varsArguments : List (Argument Ty) → List VarId
  | [] => []
  | a :: as => varsArgument a ++ varsArguments as
termination_by structural as => as

/-- The type variables that occur in the type of an argument of a callable. Its name and kind have
none. -/
def varsArgument : Argument Ty → List VarId
  | ⟨_, _, t⟩ => vars t
termination_by structural a => a

end

/-- The variables of a list of types are those of its members, one after another. From here on
`vars` is the only one of the four functions that is mentioned. -/
theorem varsList_eq (ts : List Ty) : varsList ts = ts.flatMap vars := by
  induction ts with
  | nil => rfl
  | cons t ts ih => simp [varsList, ih]

/-- The variables of the arguments of a callable are those of the types of these arguments, one
after another. -/
theorem varsArguments_eq (as : List (Argument Ty)) :
    varsArguments as = as.flatMap fun a => a.type.vars := by
  induction as with
  | nil => rfl
  | cons a as ih => cases a; simp [varsArguments, varsArgument, ih]

/-- The type that could be anything has no variables. -/
@[simp] theorem vars_any : vars any = [] := rfl

/-- The result of a function that returns no value has no variables. -/
@[simp] theorem vars_void : vars void = [] := rfl

/-- The type of the absent value has no variables. -/
@[simp] theorem vars_noneType : vars noneType = [] := rfl

/-- The type of what could not be typed has no variables. -/
@[simp] theorem vars_error : vars error = [] := rfl

/-- A type variable has itself as its only variable. -/
@[simp] theorem vars_var (v : VarId) : vars (var v) = [v] := rfl

/-- The variables of an instance are those of its arguments, one after another. The class does not
contribute any. -/
@[simp] theorem vars_inst (c : ClassId) (args : List Ty) :
    vars (inst c args) = args.flatMap vars :=
  varsList_eq args

/-- The variables of a callable are those of its arguments, one after another, and then those of its
result. -/
@[simp] theorem vars_callable (arguments : List (Argument Ty)) (result : Ty) (isTypeObject : Bool) :
    vars (callable arguments result isTypeObject) =
      (arguments.flatMap fun a => a.type.vars) ++ result.vars := by
  rw [vars, varsArguments_eq]

end Ty

namespace Instance

deriving instance DecidableEq for Instance

/-- The instance that stands for none in particular is one of the root class, without arguments. -/
instance : Inhabited Instance :=
  ⟨⟨default, []⟩⟩

/-- The type of the values of an instance. An instance and its type differ only in that types
include more than instances. -/
def toTy (i : Instance) : Ty :=
  .inst i.cls i.args

/-- The type variables that occur in the arguments of an instance, from left to right and as often
as they occur. -/
def vars (i : Instance) : List VarId :=
  i.args.flatMap Ty.vars

end Instance

end GenericSlots
