set_option autoImplicit false

/-!
# Slot policies

A policy decides which type parameters of a class open a slot of their own.

## Main definitions

* `GenericSlots.SlotPolicy`: the policies.
* `GenericSlots.SlotPolicy.ofName?`, `GenericSlots.SlotPolicy.name`: policies by name.
* `GenericSlots.Config`: the choices that a user makes.

## Main results

* `GenericSlots.SlotPolicy.ofName?_eq_some_iff`: reading accepts exactly the names of policies.
-/

namespace GenericSlots

/-- How slots are assigned to the type parameters of a class. Both policies keep the slots of the
primary base where they are; they differ in how many slots a class adds to them. -/
inductive SlotPolicy where
  /-- Every type parameter opens a new slot, after all slots of the primary base. -/
  | appended
  /-- A type parameter that is passed to the primary base unchanged shares the slot of the base's
  parameter. Only the others open new slots. -/
  | shared
  deriving DecidableEq

namespace SlotPolicy

/-- The policy that is used unless another is chosen. -/
instance : Inhabited SlotPolicy :=
  ⟨appended⟩

/-- The name of a policy, by which a user chooses it and which log events show. -/
def name : SlotPolicy → String
  | appended => "appended"
  | shared => "shared"

/-- The policy of a given name, which has to be written exactly as `name` writes it. -/
def ofName? (s : String) : Option SlotPolicy :=
  if s = appended.name then
    some appended
  else if s = shared.name then
    some shared
  else
    none

/-- Reading accepts exactly the names of policies, and gives the policy of that name.

**Proof sketch.** The two names differ, so the two tests that reading makes cannot both succeed, and
each of them succeeds for one policy only. -/
theorem ofName?_eq_some_iff {s : String} {p : SlotPolicy} : ofName? s = some p ↔ s = p.name := by
  have hne : shared.name ≠ appended.name := by decide
  unfold ofName?
  by_cases ha : s = appended.name
  · subst ha
    cases p <;> simp [hne.symm]
  · by_cases hs : s = shared.name
    · subst hs
      cases p <;> simp [hne]
    · cases p <;> simp [ha, hs]

end SlotPolicy

/-- The choices that a user makes before the slots of a program are laid out. -/
structure Config where
  /-- The policy for assigning slots. -/
  slotPolicy : SlotPolicy := .appended

/-- A policy name that is not known, kept as the user wrote it. -/
structure UnknownPolicy where
  /-- The name. -/
  name : String

/-- The text of the complaint about an unknown policy. -/
def UnknownPolicy.message (e : UnknownPolicy) : String :=
  s!"the slot policy '{e.name}' is invalid"

/-- Chooses the policy of the given name, and leaves all other choices as they are. An unknown name
is handed back. -/
def Config.setSlotPolicy (c : Config) (name : String) : Except UnknownPolicy Config :=
  match SlotPolicy.ofName? name with
  | some p => .ok { c with slotPolicy := p }
  | none => .error ⟨name⟩

end GenericSlots
