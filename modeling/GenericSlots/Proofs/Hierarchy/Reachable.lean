import GenericSlots.Hierarchy.Ladder
import GenericSlots.Proofs.Failure
set_option autoImplicit false

/-!
# Reachable hierarchies

A program starts with the initial hierarchy and changes it step by step, so not every hierarchy can
come about. What holds at first and is kept by the basic changes holds of every hierarchy that a
program can reach: all other changes are made of the basic ones.

## Main definitions

* `GenericSlots.Change`: the changes that a program may make.
* `GenericSlots.Hierarchy.Reachable`: the hierarchies that changes lead to.
* `GenericSlots.Edit.Keeps`: a property that a change of a hierarchy does not break.
* `GenericSlots.Hierarchy.Invariant`: a property that holds at first and is kept by basic changes.

## Main results

* `GenericSlots.Hierarchy.Invariant.of_reachable`: an invariant holds of every reachable hierarchy.
* `GenericSlots.Hierarchy.Reachable.size_le`: a reachable hierarchy has no more classes than there
  are identifiers.
* `GenericSlots.Hierarchy.Reachable.selfFirst`: every class of a reachable hierarchy is the first of
  its ancestors.
-/

namespace GenericSlots

/-! ## Changes -/

/-- A change that a program may make to a hierarchy. These are all the ways there are to change one,
so what holds of each of them holds of whatever a program does. -/
inductive Change where
  /-- Adds a class. -/
  | alloc (name : String)
  /-- Marks a class as an interface. -/
  | setAbstract (c : ClassId)
  /-- Declares a type parameter with the next identifier. -/
  | newParam (c : ClassId) (name : String)
  /-- Declares a type parameter with an identifier of its own. -/
  | declareParam (c : ClassId) (p : TypeParam)
  /-- Adds a declared base. -/
  | addBase (c : ClassId) (base : Instance)
  /-- Lists the ancestors of a class. -/
  | setAncestors (c : ClassId) (ancestors : List ClassId)
  /-- Adds a declared base and takes over its ancestors. -/
  | extend (c : ClassId) (base : Instance)
  /-- Adds a class with type parameters. -/
  | defineGeneric (name : String) (params : List String)
  /-- Adds a class with type parameters and their identifiers. -/
  | defineWithIds (name : String) (params : List TypeParam)
  /-- Adds a ladder of diamonds. -/
  | ladder (height : Nat)

/-- What a change does. Its answer is left out, as it plays no part in which hierarchies can be
reached. -/
def Change.edit : Change → Edit Unit
  | alloc name => discard (Edit.alloc name)
  | setAbstract c => Edit.setAbstract c
  | newParam c name => discard (Edit.newParam c name)
  | declareParam c p => Edit.declareParam c p
  | addBase c base => Edit.addBase c base
  | setAncestors c ancestors => Edit.setAncestors c ancestors
  | extend c base => Edit.extend c base
  | defineGeneric name params => discard (Edit.defineGeneric name params)
  | defineWithIds name params => discard (Edit.defineWithIds name params)
  | ladder height => discard (Edit.ladder height)

/-- A hierarchy that a program can reach. A change that faults has no effect, so it leads nowhere
else. -/
inductive Hierarchy.Reachable : Hierarchy → Prop
  /-- A program starts with the initial hierarchy. -/
  | initial : Reachable .initial
  /-- A program may make a change. -/
  | change {h h' : Hierarchy} (before : Reachable h) (change : Change)
      (made : change.edit h = .ok ((), h')) : Reachable h'

/-! ## What changes keep -/

namespace Edit

variable {α β : Type} {P : Hierarchy → Prop}

/-- Wherever the change succeeds, a property that holds before holds afterwards. A change that
faults keeps every property. -/
def Keeps (P : Hierarchy → Prop) (e : Edit α) : Prop :=
  ∀ h a h', P h → e h = .ok (a, h') → P h'

/-- A change that only gives a value keeps every property. -/
lemma keeps_pure (a : α) : Keeps P (pure a : Edit α) := by
  intro h b h' hP hok
  obtain ⟨rfl, rfl⟩ := Prod.mk.inj (Except.ok.inj hok)
  exact hP

/-- Reading a class changes nothing, so it keeps every property. -/
lemma keeps_get (c : ClassId) : Keeps P (get c) := by
  intro h d h' hP hok
  obtain ⟨d', -, hok⟩ := bind_eq_ok_iff.1 hok
  obtain ⟨rfl, rfl⟩ := Prod.mk.inj (Except.ok.inj hok)
  exact hP

/-- Adding a class keeps what adding it to a hierarchy keeps. There is an identifier left for the
class whenever this succeeds. -/
lemma keeps_alloc {name : String} (hadd : ∀ h, P h → h.size < ClassId.limit → P (h.add name)) :
    Keeps P (alloc name) := by
  intro h c h' hP hok
  obtain ⟨hs, -, rfl⟩ := alloc_eq_ok_iff.1 hok
  exact hadd h hP hs

/-- Changing a class keeps what changing it in a hierarchy keeps. -/
lemma keeps_update {c : ClassId} {f : ClassDef → ClassDef}
    (hupdate : ∀ h, P h → P (h.update c f)) : Keeps P (update c f) := by
  intro h a h' hP hok
  obtain ⟨-, rfl⟩ := update_eq_ok_iff.1 hok
  exact hupdate h hP

/-- Two changes one after another keep what both of them keep. -/
lemma Keeps.bind {e : Edit α} {f : α → Edit β} (he : Keeps P e) (hf : ∀ a, Keeps P (f a)) :
    Keeps P (e >>= f) := by
  intro h b h' hP hok
  obtain ⟨⟨a, h₁⟩, hmade, hok⟩ := bind_eq_ok_iff.1 hok
  exact hf a h₁ b h' (he h a h₁ hP hmade) hok

/-- Declaring a type parameter with the next identifier is declaring it with that identifier.

**Proof sketch.** The change reads the class, which does not change the hierarchy, and then declares
the parameter. Both steps are taken apart with `bind_eq_ok_iff`. -/
lemma newParam_eq_ok_iff {c : ClassId} {name : String} {h h' : Hierarchy} {v : VarId} :
    newParam c name h = .ok (v, h') ↔ ∃ d, h.find? c = some d ∧ v = d.nextParamId ∧
      declareParam c ⟨name, v⟩ h = .ok ((), h') := by
  constructor
  · intro hok
    obtain ⟨⟨d, h₁⟩, hget, hok⟩ := bind_eq_ok_iff.1 hok
    obtain ⟨d', hd, hget⟩ := bind_eq_ok_iff.1 hget
    obtain ⟨rfl, rfl⟩ := Prod.mk.inj (Except.ok.inj hget)
    obtain ⟨⟨_, h₂⟩, hdeclared, hok⟩ := bind_eq_ok_iff.1 hok
    obtain ⟨rfl, rfl⟩ := Prod.mk.inj (Except.ok.inj hok)
    exact ⟨d', Hierarchy.get_eq_ok_iff.1 hd, rfl, hdeclared⟩
  · rintro ⟨d, hd, rfl, hdeclared⟩
    refine bind_eq_ok_iff.2 ⟨(d, h), bind_eq_ok_iff.2 ⟨d, Hierarchy.get_eq_ok_iff.2 hd, rfl⟩, ?_⟩
    exact bind_eq_ok_iff.2 ⟨((), h'), hdeclared, rfl⟩

/-- Leaving out the answer of a change makes no difference to what it keeps. -/
lemma Keeps.discard {e : Edit α} (he : Keeps P e) : Keeps P (discard e) :=
  he.bind fun _ => keeps_pure _

/-- Changes made for all elements of a list keep what each of them keeps. -/
lemma keeps_forM {f : α → Edit Unit} (hf : ∀ a, Keeps P (f a)) (as : List α) :
    Keeps P (as.forM f) := by
  induction as with
  | nil => exact keeps_pure ()
  | cons a as ih => exact (hf a).bind fun _ => ih

end Edit

/-- Changes made one after another lead from a reachable hierarchy to reachable ones. -/
lemma Hierarchy.Reachable.changes {h h' : Hierarchy} (hr : h.Reachable) (changes : List Change)
    (made : changes.forM Change.edit h = .ok ((), h')) : h'.Reachable :=
  Edit.keeps_forM (P := Reachable) (fun change _ _ _ hr made => .change hr change made) changes h ()
    h' hr made

/-- Declaring a type parameter does not change the ancestors of a class. -/
lemma ClassDef.ancestors_declareParam (d : ClassDef) (p : TypeParam) :
    (d.declareParam p).ancestors = d.ancestors := by
  rw [declareParam]
  split <;> rfl

namespace Hierarchy

/-- A property that holds of the initial hierarchy and is kept by the basic changes. There is one
condition for each change that touches the hierarchy in a way of its own; all other changes are made
of these. -/
structure Invariant (P : Hierarchy → Prop) : Prop where
  /-- The property holds at first. -/
  initial : P .initial
  /-- Adding a class keeps it. -/
  alloc : ∀ name, Edit.Keeps P (Edit.alloc name)
  /-- Marking a class keeps it. -/
  setAbstract : ∀ c, Edit.Keeps P (Edit.setAbstract c)
  /-- Declaring a type parameter keeps it. -/
  declareParam : ∀ c p, Edit.Keeps P (Edit.declareParam c p)
  /-- Adding a declared base keeps it. -/
  addBase : ∀ c base, Edit.Keeps P (Edit.addBase c base)
  /-- Listing ancestors keeps it. -/
  setAncestors : ∀ c ancestors, Edit.Keeps P (Edit.setAncestors c ancestors)

namespace Invariant

variable {P : Hierarchy → Prop} (hP : Invariant P)

include hP

/-- Declaring a type parameter with the next identifier keeps an invariant, as it amounts to
declaring it with some identifier. -/
lemma newParam (c : ClassId) (name : String) : Edit.Keeps P (Edit.newParam c name) :=
  (Edit.keeps_get c).bind fun _ => (hP.declareParam c _).bind fun _ => Edit.keeps_pure _

/-- Adding a base with its ancestors keeps an invariant, as it amounts to adding the base and then
listing ancestors. -/
lemma extend (c : ClassId) (base : Instance) : Edit.Keeps P (Edit.extend c base) :=
  (Edit.keeps_get base.cls).bind fun _ => (hP.addBase c base).bind fun _ => hP.setAncestors c _

/-- Adding a class with type parameters keeps an invariant, as it amounts to adding the class and
then declaring the parameters. -/
lemma defineGeneric (name : String) (params : List String) :
    Edit.Keeps P (Edit.defineGeneric name params) :=
  (hP.alloc name).bind fun c =>
    (Edit.keeps_forM (fun p => (hP.newParam c p).discard) params).bind fun _ => Edit.keeps_pure c

/-- Adding a class with type parameters and their identifiers keeps an invariant, for the same
reason. -/
lemma defineWithIds (name : String) (params : List TypeParam) :
    Edit.Keeps P (Edit.defineWithIds name params) :=
  (hP.alloc name).bind fun c =>
    (Edit.keeps_forM (hP.declareParam c) params).bind fun _ => Edit.keeps_pure c

/-- Adding a level to a ladder keeps an invariant: it is a sequence of nine basic changes, and
reading a class between them changes nothing. -/
lemma ladderLevel (number : Nat) (below : ClassId) :
    Edit.Keeps P (Edit.ladderLevel number below) := by
  refine (hP.defineGeneric _ _).bind fun left => ?_
  refine (hP.defineGeneric _ _).bind fun right => ?_
  refine (hP.defineGeneric _ _).bind fun join => ?_
  refine (hP.extend left _).bind fun _ => ?_
  refine (hP.extend right _).bind fun _ => ?_
  refine (hP.addBase join _).bind fun _ => ?_
  refine (hP.addBase join _).bind fun _ => ?_
  refine (Edit.keeps_get below).bind fun _ => ?_
  exact (hP.setAncestors join _).bind fun _ => Edit.keeps_pure _

/-- Adding levels to a ladder keeps an invariant, by induction on their number. -/
lemma ladderLevels (number : Nat) (below : ClassId) (height : Nat) :
    Edit.Keeps P (Edit.ladderLevels number below height) := by
  induction height generalizing number below with
  | zero => exact Edit.keeps_pure []
  | succ height ih =>
    refine (hP.ladderLevel number below).bind fun level => ?_
    exact (ih (number + 1) level.join).bind fun _ => Edit.keeps_pure _

/-- All changes are made of basic ones, so each of them keeps an invariant.

**Proof sketch.** One case for each change. What is not a basic change is taken apart into such, and
its answer is left out. -/
lemma edit (change : Change) : Edit.Keeps P change.edit := by
  cases change with
  | alloc name => exact (hP.alloc name).discard
  | setAbstract c => exact hP.setAbstract c
  | newParam c name => exact (hP.newParam c name).discard
  | declareParam c p => exact hP.declareParam c p
  | addBase c base => exact hP.addBase c base
  | setAncestors c ancestors => exact hP.setAncestors c ancestors
  | extend c base => exact hP.extend c base
  | defineGeneric name params => exact (hP.defineGeneric name params).discard
  | defineWithIds name params => exact (hP.defineWithIds name params).discard
  | ladder height =>
    refine ((hP.defineGeneric _ _).bind fun bottom => ?_).discard
    exact (hP.ladderLevels 1 bottom height).bind fun _ => Edit.keeps_pure _

/-- An invariant holds of every hierarchy that a program can reach, by induction on the changes that
lead to it. -/
theorem of_reachable {h : Hierarchy} (hr : h.Reachable) : P h := by
  induction hr with
  | initial => exact hP.initial
  | change _ change made ih => exact hP.edit change _ _ _ ih made

end Invariant

/-! ## Size -/

/-- A change of one class does not change how many there are. -/
private lemma keeps_size_update {c : ClassId} {f : ClassDef → ClassDef} :
    Edit.Keeps (fun h => h.size ≤ ClassId.limit) (Edit.update c f) :=
  Edit.keeps_update fun h hs => by rwa [size_update]

/-- That there are no more classes than identifiers is an invariant, because a class is only added
if an identifier is left for it. -/
lemma invariant_size_le : Invariant fun h => h.size ≤ ClassId.limit where
  initial := by decide
  alloc name := Edit.keeps_alloc fun h _ hs => by rwa [size_add]
  setAbstract _ := keeps_size_update
  declareParam _ _ := keeps_size_update
  addBase _ _ := keeps_size_update
  setAncestors _ _ := keeps_size_update

/-- A reachable hierarchy has no more classes than there are identifiers. It may have as many, and
then its classes are not enumerated. -/
theorem Reachable.size_le {h : Hierarchy} (hr : h.Reachable) : h.size ≤ ClassId.limit :=
  invariant_size_le.of_reachable hr

/-! ## Ancestors -/

/-- Every class is the first of its ancestors. Whoever lists ancestors cannot break this, because
the class itself is put in front of those listed. -/
def SelfFirst (h : Hierarchy) : Prop :=
  ∀ c d, h.find? c = some d → d.ancestors.head? = some c

/-- Adding a class keeps every class the first of its ancestors, since the class that is added
starts with itself as its only ancestor.

**Proof sketch.** A class of the larger hierarchy is the one that was added or one of before. -/
private lemma SelfFirst.add {h : Hierarchy} (hself : h.SelfFirst) (name : String) :
    (h.add name).SelfFirst := by
  intro c d hd
  rw [find?_add] at hd
  by_cases hc : c.index = h.size
  · rw [if_pos hc] at hd
    obtain rfl := Option.some.inj hd
    rw [← hc, ClassId.ofIndex_index]
    rfl
  · rw [if_neg hc] at hd
    exact hself c d hd

/-- A change of one class keeps every class the first of its ancestors if it keeps that one.

**Proof sketch.** A class of the changed hierarchy is the one that was changed, to which `hf`
applies, or one of before. -/
private lemma keeps_selfFirst {c : ClassId} {f : ClassDef → ClassDef}
    (hf : ∀ d : ClassDef, d.ancestors.head? = some c → (f d).ancestors.head? = some c) :
    Edit.Keeps SelfFirst (Edit.update c f) := by
  refine Edit.keeps_update fun h hself => ?_
  intro e d hd
  rw [find?_update] at hd
  by_cases hce : c = e
  · subst hce
    rw [if_pos rfl] at hd
    obtain ⟨d', hd', rfl⟩ := Option.map_eq_some_iff.1 hd
    exact hf d' (hself c d' hd')
  · rw [if_neg hce] at hd
    exact hself e d hd

/-- That every class is the first of its ancestors is an invariant. -/
lemma invariant_selfFirst : Invariant SelfFirst where
  initial := SelfFirst.add (h := ⟨#[], ∅⟩) (fun _ _ hd => by cases hd) objectName
  alloc name := Edit.keeps_alloc fun _ hself _ => hself.add name
  setAbstract _ := keeps_selfFirst fun _ hd => hd
  declareParam _ p := keeps_selfFirst fun d hd => by rwa [ClassDef.ancestors_declareParam]
  addBase _ _ := keeps_selfFirst fun _ hd => hd
  setAncestors _ _ := keeps_selfFirst fun _ _ => rfl

/-- Every class of a reachable hierarchy is the first of its ancestors. -/
theorem Reachable.selfFirst {h : Hierarchy} (hr : h.Reachable) : h.SelfFirst :=
  invariant_selfFirst.of_reachable hr

end Hierarchy

end GenericSlots
