import GenericSlots.Hierarchy.Basic
set_option autoImplicit false

/-!
# Derivations

A class derives from another by a path of declared bases. The bases of a class may form cycles,
repeat a class or refer to classes that do not exist, so searches keep track of the classes they
have passed.

## Main definitions

* `GenericSlots.Hierarchy.firstPath`, `GenericSlots.Hierarchy.path`: the first path in the order of
  declarations, by a depth-first search that enters each class at most once.
* `GenericSlots.Hierarchy.pathsFrom`, `GenericSlots.Hierarchy.paths`: all paths that pass no class
  twice, in the order of declarations.

## Main results

* `GenericSlots.Hierarchy.unseenWeight_cons`: entering a class that was not seen takes its weight
  off what is left. With every class weighing one, this is why the enumeration ends. With every
  class weighing as much as it has bases, this is why the search for the first path tries each base
  at most once.

## Implementation notes

A path excludes the class it starts from and ends with the class it leads to, which is not entered.
The first search works off a list of trails: the next trail is taken from the front, and the trails
that extend it are put back in front.
-/

namespace GenericSlots

namespace Hierarchy

/-! ## Unseen classes -/

/-- The total weight of the positions in a list that are not skipped. A position that occurs twice
counts twice. -/
def weigh (weight : Nat → Nat) (skip : Nat → Bool) : List Nat → Nat
  | [] => 0
  | n :: ns => if skip n then weigh weight skip ns else weight n + weigh weight skip ns

/-- The total weight of the classes that a search has not seen. Searches end because this becomes
smaller with every class that they enter; how much smaller is what the weight is for. -/
def unseenWeight (h : Hierarchy) (weight : Nat → Nat) (seen : List ClassId) : Nat :=
  weigh weight (fun n => n ∈ seen.map ClassId.index) (List.range h.size)

/-- The number of classes that a search has not seen. -/
def unseen (h : Hierarchy) (seen : List ClassId) : Nat :=
  h.unseenWeight (fun _ => 1) seen

/-- The number of declared bases of the class at a position, which is zero where there is no
class. -/
def baseCount (h : Hierarchy) (n : Nat) : Nat :=
  (h.classes[n]?).elim 0 fun d => d.bases.length

/-- A class declares as many bases as are counted at its position, whether it is defined or not. -/
theorem length_basesOf (h : Hierarchy) (c : ClassId) :
    (h.basesOf c).length = h.baseCount c.index := by
  unfold basesOf baseCount find?
  cases h.classes[c.index]? <;> rfl

/-- Skipping more positions, one of them in the list, takes off at least the weight of that one.

**Proof sketch.** Induction on the list. The weight of the position counts where it occurs, and
every other position that counts afterwards counted before. -/
private theorem weigh_add_le (weight : Nat → Nat) (skip skip' : Nat → Bool) (l : List Nat) {x : Nat}
    (hskip : ∀ n, skip n = true → skip' n = true) (hx : skip x = false) (hx' : skip' x = true) :
    weigh weight skip' l + (if x ∈ l then weight x else 0) ≤ weigh weight skip l := by
  induction l with
  | nil => simp [weigh]
  | cons n l ih =>
    by_cases hn : n = x
    · subst hn
      simp only [weigh, hx, hx', List.mem_cons, true_or, if_true, Bool.false_eq_true, if_false]
      omega
    · have hmem : x ∈ n :: l ↔ x ∈ l := by simp [Ne.symm hn]
      simp only [weigh, hmem]
      cases hs : skip n with
      | true =>
        rw [hskip n hs]
        simpa using ih
      | false =>
        cases hs' : skip' n with
        | true =>
          simp only [if_true, Bool.false_eq_true, if_false]
          omega
        | false =>
          simp only [Bool.false_eq_true, if_false]
          omega

/-- Entering a class that was not seen takes its weight off what is left. Only a class that is
defined has a weight to take off.

**Proof sketch.** This is `weigh_add_le` at the position of the class. It was not skipped before,
since positions tell classes apart, and is skipped afterwards; and it is in the list of all
positions, since the class is defined. -/
theorem unseenWeight_cons (h : Hierarchy) (weight : Nat → Nat) {seen : List ClassId} {c : ClassId}
    (hc : h.IsDefined c) (hs : c ∉ seen) :
    h.unseenWeight weight (c :: seen) + weight c.index ≤ h.unseenWeight weight seen := by
  have hi : c.index ∉ seen.map ClassId.index := by
    intro hm
    obtain ⟨d, hd, hdc⟩ := List.mem_map.1 hm
    exact hs (ClassId.index_inj.1 hdc ▸ hd)
  have hle := weigh_add_le weight (fun n => n ∈ seen.map ClassId.index)
    (fun n => n ∈ (c :: seen).map ClassId.index) (List.range h.size)
    (fun n hn => by
      simp only [List.map_cons, List.mem_cons, decide_eq_true_eq] at hn ⊢
      exact Or.inr hn)
    (by simpa using hi) (by simp)
  rwa [if_pos (List.mem_range.2 hc)] at hle

/-- Entering a class that was not seen leaves fewer classes to see. This is the measure by which the
enumeration of all paths ends. -/
theorem unseen_cons_lt {h : Hierarchy} {seen : List ClassId} {c : ClassId} (hc : h.IsDefined c)
    (hs : c ∉ seen) : h.unseen (c :: seen) < h.unseen seen :=
  h.unseenWeight_cons (fun _ => 1) hc hs

/-! ## The first path -/

/-- A class that a search may enter, with the classes on the way to it, the nearest first. The class
where the search starts is not part of the way. -/
structure Trail where
  /-- The class. -/
  cls : ClassId
  /-- The classes on the way. -/
  before : List ClassId

/-- The path that a trail stands for, from the class next to the start to the class at the end of
the trail. -/
def Trail.path (t : Trail) : List ClassId :=
  (t.cls :: t.before).reverse

/-- The trails from a class, reached on some way, to its declared bases, in the order of
declarations. -/
def trailsFrom (h : Hierarchy) (c : ClassId) (way : List ClassId) : List Trail :=
  (h.basesOf c).map fun b => ⟨b.cls, way⟩

/-- There are as many trails from a class as it has declared bases, so working off a class takes as
many steps as `baseCount` says. -/
theorem length_trailsFrom (h : Hierarchy) (c : ClassId) (way : List ClassId) :
    (h.trailsFrom c way).length = h.baseCount c.index := by
  rw [trailsFrom, List.length_map, length_basesOf]

/-- Works off trails until one leads to the target. A class that was seen before either leads
nowhere or is part of a cycle, so it is not entered again; a class that is not defined has no bases
to go on with. The target is recognized before it would be entered, so it may have been seen, or not
be defined. -/
def firstPath (h : Hierarchy) (target : ClassId) (seen : List ClassId) :
    List Trail → Option (List ClassId)
  | [] => none
  | t :: rest =>
    if t.cls = target then
      some t.path
    else if _ht : h.IsDefined t.cls ∧ t.cls ∉ seen then
      firstPath h target (t.cls :: seen) (h.trailsFrom t.cls (t.cls :: t.before) ++ rest)
    else
      firstPath h target seen rest
termination_by trails => h.unseenWeight h.baseCount seen + trails.length
decreasing_by
  · have := h.unseenWeight_cons h.baseCount _ht.1 _ht.2
    simp only [List.length_append, length_trailsFrom, List.length_cons]
    omega
  · simp

/-- The first path of declared bases from a class to another, in the order of declarations, if there
is one. The class where the path starts has to be defined, and counts as seen from the beginning. -/
def path (h : Hierarchy) (c target : ClassId) : Except Fault (Option (List ClassId)) := do
  let _ ← h.get c
  return h.firstPath target [c] (h.trailsFrom c [])

/-- The first path from a class that is defined is what the search finds from its bases. -/
theorem path_eq_firstPath {h : Hierarchy} {c : ClassId} {d : ClassDef} (hd : h.find? c = some d)
    (target : ClassId) :
    h.path c target = .ok (h.firstPath target [c] (h.trailsFrom c [])) := by
  rw [path, get_eq_ok_iff.2 hd]
  rfl

/-! ## All paths -/

/-- All paths from a class to the target that avoid the classes being visited, the class itself
among them. A base that is the target ends a path. Unlike the search for the first path, this enters
a class again on each way to it, so there may be very many paths. -/
def pathsFrom (h : Hierarchy) (target : ClassId) (visiting : List ClassId) (c : ClassId) :
    List (List ClassId) :=
  (h.basesOf c).flatMap fun b =>
    if b.cls = target then
      [[target]]
    else if _hb : h.IsDefined b.cls ∧ b.cls ∉ visiting then
      (pathsFrom h target (b.cls :: visiting) b.cls).map (b.cls :: ·)
    else
      []
termination_by h.unseen visiting
decreasing_by exact unseen_cons_lt _hb.1 _hb.2

/-- All paths of declared bases from a class to another that pass no class twice, in the order of
declarations. The class where they start has to be defined. -/
def paths (h : Hierarchy) (c target : ClassId) : Except Fault (List (List ClassId)) := do
  let _ ← h.get c
  return h.pathsFrom target [c] c

end Hierarchy

end GenericSlots
