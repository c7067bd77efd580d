import GenericSlots.Ty.Subst
import Std.Data.HashMap
set_option autoImplicit false

/-!
# Class hierarchies

A hierarchy owns all classes of a program. Everything else refers to a class by its identifier, so
classes may refer to each other freely, and also to classes that do not exist. Reading such a class
is a fault.

## Main definitions

* `GenericSlots.ClassDef`: a class with its type parameters, declared bases and listed ancestors.
* `GenericSlots.Hierarchy`: the classes of a program, with an index of their names.
* `GenericSlots.Hierarchy.get`: reads a class.
* `GenericSlots.Hierarchy.classIds`: the classes in the order of their identifiers.
* `GenericSlots.Hierarchy.selfType`, `GenericSlots.Hierarchy.filled`: instances of a class.

## Main results

* `GenericSlots.Hierarchy.get_eq_ok_iff`, `GenericSlots.Hierarchy.get_of_not_isDefined`: a class can
  be read exactly if it is defined.
* `GenericSlots.Hierarchy.mem_classIds`, `GenericSlots.Hierarchy.pairwise_classIds`: every class of
  a hierarchy below the limit of identifiers is enumerated, in increasing order.
* `GenericSlots.Hierarchy.classIds_of_size_eq_limit`: at the limit no class is enumerated.

## Implementation notes

Classes that exist are those whose identifier is a position of the array. The count of classes is
narrowed to 32 bits to enumerate identifiers, so a hierarchy that uses up all of them enumerates
none.
-/

namespace GenericSlots

/-- What stops an operation that asks for something its hierarchy cannot provide. Faults are
mistakes of the program that uses a hierarchy, not answers: nothing recovers from them. -/
inductive Fault where
  /-- A class is read or changed that is not defined. -/
  | undefinedClass (id : ClassId)
  /-- A class is added although all identifiers are in use. -/
  | tooManyClasses
  deriving DecidableEq

/-- A type parameter of a class. Its name is for people to read and for declaring it again; inside
types it is its identifier that stands for it. -/
structure TypeParam where
  /-- The name, which formatted types show. -/
  name : String
  /-- The variable that stands for the parameter inside the class. -/
  id : VarId
  deriving DecidableEq

/-- The parameter as a type, for use inside the class that declares it, and in the bases of that
class. -/
def TypeParam.toTy (p : TypeParam) : Ty :=
  .var p.id

/-- A class, as defined by the program or provided by the runtime. It is a record of what has been
declared, in any order and without being checked: bases may be missing, cyclic or have the wrong
number of arguments, and ancestors may leave out what the bases say. -/
structure ClassDef where
  /-- The name. -/
  name : String
  /-- Whether the class is only used as an interface and never instantiated directly. -/
  isAbstract : Bool
  /-- The type parameters, in the order in which their names were first declared. -/
  params : List TypeParam
  /-- The declared bases, in terms of the type parameters. The first is the primary base. -/
  bases : List Instance
  /-- The linearized ancestors, starting with the class itself. -/
  ancestors : List ClassId
  deriving DecidableEq

namespace ClassDef

/-- A class without parameters, bases or ancestors other than itself, which is how each class
starts. -/
def fresh (name : String) (id : ClassId) : ClassDef :=
  ⟨name, false, [], [], [id]⟩

/-- The number of type parameters, which is the number of arguments that an instance of the class
should have. -/
def arity (d : ClassDef) : Nat :=
  d.params.length

/-- The only base that contributes slots, which is the one declared first. The other bases are
interfaces as far as slots are concerned. -/
def primaryBase? (d : ClassDef) : Option Instance :=
  d.bases.head?

/-- The position of the type parameter with the given identifier. If several have it, the position
of the first. -/
def paramIndex? (d : ClassDef) (v : VarId) : Option Nat :=
  d.params.findIdx? fun p => p.id = v

/-- The type parameter with the given identifier. If several have it, the first. -/
def paramWithId? (d : ClassDef) (v : VarId) : Option TypeParam :=
  d.params.find? fun p => p.id = v

/-- The type parameters as types, in order: the arguments that an instance of the class has inside
the class itself. -/
def selfArgs (d : ClassDef) : List Ty :=
  d.params.map TypeParam.toTy

/-- The assignment of type arguments to the type parameters, by position. Arguments without a
parameter are ignored, and parameters without an argument stay unassigned. If parameters share an
identifier, the argument of the last of them counts. -/
def assignArgs (d : ClassDef) (args : List Ty) : Subst :=
  .ofLists (d.params.map TypeParam.id) args

/-- The first declared base that is an instance of the given class. A class may declare several with
different arguments, of which this ignores all others. -/
def baseOf? (d : ClassDef) (c : ClassId) : Option Instance :=
  d.bases.find? fun b => b.cls = c

end ClassDef

/-- The classes of a program, with an index of their names. Classes are only added, so an identifier
that refers to a class keeps referring to it. -/
structure Hierarchy where
  /-- The classes, at the positions that their identifiers name. -/
  classes : Array ClassDef
  /-- The class that was defined last under each name. -/
  names : Std.HashMap String ClassId

namespace Hierarchy

/-- The number of classes. It is never zero in a hierarchy that a program works with, as the root
class is there from the start. -/
def size (h : Hierarchy) : Nat :=
  h.classes.size

/-- The class that a name refers to, which is the one defined last under it. Earlier classes of that
name can only be reached by their identifiers. -/
def named? (h : Hierarchy) (name : String) : Option ClassId :=
  h.names[name]?

/-- Whether an identifier refers to a class of the hierarchy, which is a question of its position
alone. -/
def IsDefined (h : Hierarchy) (c : ClassId) : Prop :=
  c.index < h.size

/-- Whether a class is defined is decided by comparing its position with the number of classes. -/
instance (h : Hierarchy) (c : ClassId) : Decidable (h.IsDefined c) :=
  inferInstanceAs (Decidable (c.index < h.size))

/-- The class that an identifier refers to, or none if it refers to no class. -/
def find? (h : Hierarchy) (c : ClassId) : Option ClassDef :=
  h.classes[c.index]?

/-- Reads a class, which has to be defined: asking for one that is not is a fault that names the
class. -/
def get (h : Hierarchy) (c : ClassId) : Except Fault ClassDef :=
  match h.find? c with
  | some d => .ok d
  | none => .error (.undefinedClass c)

/-- The declared bases of a class. A class that is not defined declares none, so a search for
derivations need not tell these two cases apart. -/
def basesOf (h : Hierarchy) (c : ClassId) : List Instance :=
  match h.find? c with
  | some d => d.bases
  | none => []

/-- The identifiers of the classes, in increasing order. The number of classes is narrowed to 32
bits first, so a hierarchy that uses up all identifiers enumerates none of them. -/
def classIds (h : Hierarchy) : List ClassId :=
  (List.range (UInt32.ofNat h.size).toNat).map ClassId.ofIndex

/-- The name of a class, which has to be defined. -/
def nameOf (h : Hierarchy) (c : ClassId) : Except Fault String :=
  return (← h.get c).name

/-- Whether a class lists another among its ancestors. The class has to be defined, whereas what is
asked about may be anything. This is about what was listed, not about what the bases say. -/
def hasAncestor (h : Hierarchy) (c ancestor : ClassId) : Except Fault Bool :=
  return ancestor ∈ (← h.get c).ancestors

/-- The class instantiated with its own type parameters, which is the type of its values as seen
from inside its definition. -/
def selfType (h : Hierarchy) (c : ClassId) : Except Fault Instance :=
  return ⟨c, (← h.get c).selfArgs⟩

/-- The class instantiated with the same type for each of its parameters. With the type that could
be anything, this is what is known of an instance about which nothing is known. -/
def filled (h : Hierarchy) (c : ClassId) (t : Ty) : Except Fault Instance :=
  return ⟨c, List.replicate (← h.get c).arity t⟩

/-- Whether an instance has as many arguments as its class has type parameters. Its class has to be
defined, whereas the arguments are not looked at. -/
def isWellFormed (h : Hierarchy) (i : Instance) : Except Fault Bool :=
  return i.args.length == (← h.get i.cls).arity

/-- The arguments of an instance, assigned to the type parameters of its class. A parameter without
an argument stays unassigned. -/
def argumentsOf (h : Hierarchy) (i : Instance) : Except Fault Subst :=
  return (← h.get i.cls).assignArgs i.args

/-! ## Reading -/

/-- A class is defined exactly if it is found, which ties the position of an identifier to the class
there. -/
theorem isDefined_iff {h : Hierarchy} {c : ClassId} : h.IsDefined c ↔ ∃ d, h.find? c = some d := by
  simp [IsDefined, find?, size, ← Option.isSome_iff_exists]

/-- Hierarchies whose classes agree in some part define the same classes, and these agree in that
part.

**Proof sketch.** The arrays of parts are equal, so they have the same element, or none, at the
position of the class. Whichever is the case is then read off for both hierarchies. -/
theorem find?_of_map_eq {β : Type} {f : ClassDef → β} {h h' : Hierarchy}
    (heq : h.classes.map f = h'.classes.map f) (c : ClassId) :
    h.find? c = none ∧ h'.find? c = none ∨
      ∃ d d', h.find? c = some d ∧ h'.find? c = some d' ∧ f d = f d' := by
  have hget := congrArg (fun parts : Array β => parts[c.index]?) heq
  simp only [Array.getElem?_map] at hget
  rw [find?, find?]
  cases hd : h.classes[c.index]? with
  | none =>
    rw [hd, Option.map_none, eq_comm, Option.map_eq_none_iff] at hget
    exact Or.inl ⟨rfl, hget⟩
  | some d =>
    rw [hd, Option.map_some, eq_comm, Option.map_eq_some_iff] at hget
    obtain ⟨d', hd', hpart⟩ := hget
    exact Or.inr ⟨d, d', rfl, hd', hpart.symm⟩

/-- Reading a class gives what its identifier refers to, and only succeeds if there is such a
class. -/
theorem get_eq_ok_iff {h : Hierarchy} {c : ClassId} {d : ClassDef} :
    h.get c = .ok d ↔ h.find? c = some d := by
  unfold get
  cases h.find? c <;> simp

/-- Reading a class that is not defined is a fault that names this class. -/
theorem get_of_not_isDefined {h : Hierarchy} {c : ClassId} (hc : ¬h.IsDefined c) :
    h.get c = .error (.undefinedClass c) := by
  have : h.find? c = none := by
    simpa [IsDefined, find?, size] using hc
  simp [get, this]

/-- What is among the declared bases of a class is declared by a class that is defined. -/
theorem mem_basesOf {h : Hierarchy} {c : ClassId} {b : Instance} :
    b ∈ h.basesOf c ↔ ∃ d, h.find? c = some d ∧ b ∈ d.bases := by
  unfold basesOf
  cases h.find? c <;> simp

/-! ## Enumeration -/

/-- The identifiers of a hierarchy below the limit are those of its positions. The number of classes
is a 32-bit number then, so narrowing it does not change it. -/
theorem classIds_eq {h : Hierarchy} (hs : h.size < ClassId.limit) :
    h.classIds = (List.range h.size).map ClassId.ofIndex := by
  have hn : (UInt32.ofNat h.size).toNat = h.size := by
    rw [UInt32.toNat_ofNat']
    exact Nat.mod_eq_of_lt hs
  rw [classIds, hn]

/-- Below the limit of identifiers, the classes that are enumerated are exactly those that are
defined. -/
theorem mem_classIds {h : Hierarchy} (hs : h.size < ClassId.limit) {c : ClassId} :
    c ∈ h.classIds ↔ h.IsDefined c := by
  simp only [classIds_eq hs, List.mem_map, List.mem_range, IsDefined]
  constructor
  · rintro ⟨n, hlt, rfl⟩
    rwa [ClassId.index_ofIndex (by omega)]
  · exact fun hc => ⟨c.index, hc, c.ofIndex_index⟩

/-- The classes of a hierarchy below the limit of identifiers are enumerated in increasing order,
and so each of them once. -/
theorem pairwise_classIds {h : Hierarchy} (hs : h.size < ClassId.limit) :
    h.classIds.Pairwise fun c d => c.index < d.index := by
  rw [classIds_eq hs, List.pairwise_map]
  refine List.Pairwise.imp_of_mem ?_ List.pairwise_lt_range
  intro n m hn hm hlt
  rw [List.mem_range] at hn hm
  rwa [ClassId.index_ofIndex (Nat.lt_trans hn hs), ClassId.index_ofIndex (Nat.lt_trans hm hs)]

/-- At the limit of identifiers no class is enumerated although all are defined, because the number
of classes wraps around to zero. -/
theorem classIds_of_size_eq_limit {h : Hierarchy} (hs : h.size = ClassId.limit) :
    h.classIds = [] := by
  rw [classIds, hs]
  rfl

end Hierarchy

end GenericSlots
