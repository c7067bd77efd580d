import GenericSlots.Ty.Basic
import GenericSlots.Slot.Policy
set_option autoImplicit false

/-!
# Slot layouts

A slot is an index into the type arguments that an object stores at run time. A class has all slots
of its primary base, followed by those that its own type parameters open. So a slot keeps its number
in all classes below the one that introduced it, and code can read an inherited type argument
without knowing the exact class of an object.

## Main definitions

* `GenericSlots.Layout`: the slots of a class, along its chain of primary bases.
* `GenericSlots.Layout.originStage`: the class that introduced a slot, found by bisection.
* `GenericSlots.Layout.root`, `GenericSlots.Layout.extend`: the layout of a class without bases, and
  of a class in terms of its primary base.
* `GenericSlots.SlotPolicy.reusedSlot?`: the slot of the primary base that a type parameter shares.

## Main results

* `GenericSlots.boundary_lt`: a range that ends past the boundary holds it.
* `GenericSlots.boundary_eq`: bisection finds the boundary of a predicate that changes once.
-/

namespace GenericSlots

/-! ## Bisection -/

/-- The first position from `lo` on, and below `hi`, at which a predicate fails that holds up to
some position and fails from there on. It is `hi` if there is none. Half of the range is given up at
each step, and of any other predicate this finds nothing in particular. -/
def boundary (holds : Nat → Bool) (lo hi : Nat) : Nat :=
  if lo < hi then
    if holds ((lo + hi) / 2) then
      boundary holds ((lo + hi) / 2 + 1) hi
    else
      boundary holds lo ((lo + hi) / 2)
  else
    lo
termination_by hi - lo

/-- The boundary lies within the range, whatever the predicate is like. -/
theorem boundary_le {holds : Nat → Bool} {lo hi : Nat} (h : lo ≤ hi) :
    boundary holds lo hi ≤ hi := by
  fun_induction boundary holds lo hi with
  | case1 lo hi _ _ ih => exact ih (by omega)
  | case2 lo hi _ _ ih => exact Nat.le_trans (ih (by omega)) (by omega)
  | case3 lo hi _ => exact h

/-- A range at whose end the predicate fails holds the boundary.

**Proof sketch.** Induction along the bisection. If the upper half is kept, the predicate holds in
the middle, so the middle is not the last position and the upper half is not empty. If the lower
half is kept, its end is below that of the range. -/
theorem boundary_lt {holds : Nat → Bool} {lo hi : Nat} (hlt : lo < hi)
    (hlast : holds (hi - 1) = false) : boundary holds lo hi < hi := by
  fun_induction boundary holds lo hi with
  | case1 lo hi _ hmid ih =>
    refine ih ?_ hlast
    rcases Nat.lt_or_ge ((lo + hi) / 2 + 1) hi with hm | hm
    · exact hm
    · have hmid' : (lo + hi) / 2 = hi - 1 := by omega
      rw [hmid', hlast] at hmid
      cases hmid
  | case2 lo hi _ _ _ => exact Nat.lt_of_le_of_lt (boundary_le (by omega)) (by omega)
  | case3 lo hi hge => exact absurd hlt hge

/-- Bisection finds the boundary of a predicate that changes once.

**Proof sketch.** The boundary stays in the half that is kept: a predicate that holds in the middle
changes above it, and one that fails there changes at or below it. -/
theorem boundary_eq {holds : Nat → Bool} {lo hi b : Nat} (hlo : lo ≤ b) (hhi : b ≤ hi)
    (hbelow : ∀ n < b, holds n = true) (habove : ∀ n, b ≤ n → n < hi → holds n = false) :
    boundary holds lo hi = b := by
  fun_induction boundary holds lo hi with
  | case1 lo hi hlt hmid ih =>
    refine ih ?_ hhi habove
    rcases Nat.lt_or_ge ((lo + hi) / 2) b with hb | hb
    · exact hb
    · rw [habove _ hb (by omega)] at hmid
      cases hmid
  | case2 lo hi hlt hmid ih =>
    refine ih hlo ?_ fun n hn hlt' => habove n hn (by omega)
    rcases Nat.lt_or_ge ((lo + hi) / 2) b with hb | hb
    · rw [hbelow _ hb] at hmid
      cases hmid rfl
    · exact hb
  | case3 lo hi hge => omega

/-! ## Layouts -/

/-- A class of a primary chain, with the number of slots that its instances have. As a chain is
followed from the root, these numbers never become smaller. -/
structure Stage where
  /-- The class. -/
  cls : ClassId
  /-- The number of slots. -/
  slots : Nat
  deriving DecidableEq

/-- The slots of a class. The chain says which class introduced which slots, as each class has those
of the class before it and some more; the list of parameters says what the class itself stores in
them. -/
structure Layout where
  /-- The chain of primary bases, from the root to the class itself. -/
  stages : Array Stage
  /-- The slot that stores each type parameter of the class, in the order of declaration. -/
  paramSlots : List Nat
  deriving DecidableEq

namespace Layout

/-- The classes of the primary chain, from the root to the class itself. -/
def chain (l : Layout) : List ClassId :=
  l.stages.toList.map Stage.cls

/-- The number of slots of the class at a position of the chain, which is zero where the chain has
ended. -/
def slotsAt (l : Layout) (n : Nat) : Nat :=
  (l.stages[n]?).elim 0 Stage.slots

/-- The number of slots of the class, which is that of the last class of its chain. -/
def numSlots (l : Layout) : Nat :=
  l.slotsAt (l.stages.size - 1)

/-- The number of slots that the class has from its primary base, which is zero if it has no
base. -/
def inheritedSlots (l : Layout) : Nat :=
  if 1 < l.stages.size then l.slotsAt (l.stages.size - 2) else 0

/-- The number of slots that the class introduces. They are the last of its slots. -/
def ownSlots (l : Layout) : Nat :=
  l.numSlots - l.inheritedSlots

/-- The position in the chain of the class that introduced a slot: the first class that has it. It
is found by bisection, since the numbers of slots grow along the chain. -/
def originIndex (l : Layout) (slot : Nat) : Nat :=
  boundary (fun n => l.slotsAt n ≤ slot) 0 l.stages.size

/-- A slot of a class was introduced in its chain, so looking up the class at the position that the
search gives cannot fail. -/
theorem originIndex_lt {l : Layout} {slot : Nat} (h : slot < l.numSlots) :
    l.originIndex slot < l.stages.size := by
  refine boundary_lt ?_ (by simpa [numSlots] using h)
  refine Nat.pos_of_ne_zero fun h0 => ?_
  simp [numSlots, slotsAt, h0] at h

/-- The class that introduced a slot, for a slot that the class has. -/
def originStage (l : Layout) (slot : Nat) (h : slot < l.numSlots) : Stage :=
  have := originIndex_lt h
  l.stages[l.originIndex slot]

/-- The layout of a class without bases, in which each type parameter has a slot of its own, in the
order of declaration. -/
def root (c : ClassId) (parameters : Nat) : Layout :=
  ⟨#[⟨c, parameters⟩], List.range parameters⟩

/-- The slots of type parameters, where each either has a slot already or opens the next one, and
the slot that is next after all of them. Slots that are opened have consecutive numbers. -/
def placeParams (reused : VarId → Option Nat) (next : Nat) : List VarId → List Nat × Nat
  | [] => ([], next)
  | v :: vs =>
    match reused v with
    | some slot =>
      let rest := placeParams reused next vs
      (slot :: rest.1, rest.2)
    | none =>
      let rest := placeParams reused (next + 1) vs
      (next :: rest.1, rest.2)

/-- The layout of a class in terms of the layout of its primary base. The chain of the base is kept
and the class put at its end, so no slot of the base changes its number. -/
def extend (base : Layout) (c : ClassId) (params : List VarId) (reused : VarId → Option Nat) :
    Layout :=
  let placed := placeParams reused base.numSlots params
  ⟨base.stages.push ⟨c, placed.2⟩, placed.1⟩

end Layout

/-- The slot of the primary base that a type parameter shares: the slot of the first parameter of
the base for which the type parameter is passed unchanged. One policy never shares. A parameter that
is only part of an argument does not share its slot. -/
def SlotPolicy.reusedSlot? (policy : SlotPolicy) (args : List Ty) (baseSlots : List Nat)
    (v : VarId) : Option Nat :=
  match policy with
  | .appended => none
  | .shared => ((args.zip baseSlots).find? fun p => p.1.asVar? = some v).map Prod.snd

end GenericSlots
