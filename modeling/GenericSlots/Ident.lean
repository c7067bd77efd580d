set_option autoImplicit false

/-!
# Identifiers

Classes and type variables are referred to by number. Class identifiers are 32-bit words and type
variables 32-bit signed integers, so both have a last value.

## Main definitions

* `GenericSlots.ClassId`: the identifier of a class, which is the position of the class in its
  hierarchy.
* `GenericSlots.VarId`: the identifier of a type variable, whose sign tells what declares it.
-/

namespace GenericSlots

/-- The identifier of a class, which is a 32-bit number. An identifier may be made up, or come from
another hierarchy, so it need not refer to a class that exists; every operation that reads a class
has to reckon with this. -/
structure ClassId where
  /-- The number of the class. -/
  val : UInt32
  deriving DecidableEq, Hashable

namespace ClassId

/-- The number of identifiers that there are, which is two to the power of 32. A hierarchy may have
as many classes as this, and then its number of classes is itself no longer a 32-bit number. -/
def limit : Nat :=
  4294967296

/-- The position of the class among the classes of its hierarchy, counted from zero. It is always
below the limit (`index_lt`). -/
def index (c : ClassId) : Nat :=
  c.val.toNat

/-- The class at a position. Positions from the limit on wrap around, as the number is narrowed to
32 bits; below the limit this undoes `index` (`index_ofIndex`). -/
def ofIndex (n : Nat) : ClassId :=
  ⟨UInt32.ofNat n⟩

/-- The class that every hierarchy starts with. It stands at position zero and has neither bases nor
type parameters when the hierarchy is made. -/
def object : ClassId :=
  ⟨0⟩

/-- The identifier that stands for no class in particular is that of the first class, because that
one exists in every hierarchy. -/
instance : Inhabited ClassId :=
  ⟨object⟩

/-- A class is written as its number in decimal digits, without a sign or any other mark. -/
instance : ToString ClassId :=
  ⟨fun c => toString c.index⟩

/-- Positions tell classes apart: two identifiers are the same exactly if they name the same
position. -/
theorem index_inj {c d : ClassId} : c.index = d.index ↔ c = d := by
  cases c; cases d
  simp [index, UInt32.toNat_inj]

/-- Every position that an identifier names is below the limit, so a hierarchy with as many classes
as the limit leaves no identifier undefined. -/
theorem index_lt (c : ClassId) : c.index < limit :=
  c.val.toNat_lt

/-- The class at the position that an identifier names is the one that it identifies, whatever the
identifier. -/
@[simp] theorem ofIndex_index (c : ClassId) : ofIndex c.index = c := by
  cases c
  simp [ofIndex, index]

/-- A position below the limit is the position of the class there. From the limit on this fails,
because the number is narrowed to 32 bits. -/
theorem index_ofIndex {n : Nat} (h : n < limit) : (ofIndex n).index = n := by
  simp only [ofIndex, index, UInt32.toNat_ofNat']
  exact Nat.mod_eq_of_lt h

end ClassId

/-- The identifier of a type variable.

The type parameters of classes have positive identifiers, which are unique within the class. The
type variables of generic functions have negative ones, so they never clash with those of the
surrounding class. -/
structure VarId where
  /-- The number of the variable. -/
  val : Int32
  deriving DecidableEq

namespace VarId

/-- The variable with the given number. Numbers that do not fit into 32 bits wrap around, so this is
only one-to-one on those that do. -/
def ofInt (n : Int) : VarId :=
  ⟨Int32.ofInt n⟩

/-- Whether the variable can be the type parameter of a class, which is the case if its number is
positive. Zero belongs to neither classes nor functions. -/
def isClassParameter (v : VarId) : Bool :=
  0 < v.val

/-- The variable that stands for none in particular has the number zero, which no class and no
function declares. -/
instance : Inhabited VarId :=
  ⟨⟨0⟩⟩

/-- A variable is written as its number in decimal digits, with a minus sign if the variable belongs
to a generic function. -/
instance : ToString VarId :=
  ⟨fun v => toString v.val.toInt⟩

/-- A variable can be a class parameter exactly if its number is positive as an integer. This takes
the comparison of 32-bit words to that of integers, where `omega` decides it. -/
theorem isClassParameter_iff {v : VarId} : v.isClassParameter = true ↔ 0 < v.val.toInt := by
  simp [isClassParameter, Int32.lt_iff_toInt_lt]

end VarId

end GenericSlots
