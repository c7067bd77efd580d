import GenericSlots.Proofs.Hierarchy.Names
set_option autoImplicit false

/-!
# Histories

What a hierarchy says about type parameters depends on the whole history that led to it: a class
keeps the order in which names were declared first and the identifiers that were declared last. A
chronicle keeps, beside a hierarchy, all declarations that were ever made, so that the hierarchy can
be compared with them.

## Main definitions

* `GenericSlots.Declaration`, `GenericSlots.Change.declares`: the type parameters that a change
  declares.
* `GenericSlots.TypeParam.Reflects`: type parameters that are what a list of declarations amounts
  to.
* `GenericSlots.Chronicle`: a hierarchy with all declarations that led to it.
* `GenericSlots.Chronicle.run`: what a list of changes leads to.
* `GenericSlots.Chronicle.Consistent`: a hierarchy that agrees with the declarations that led to it.

## Main results

* `GenericSlots.Change.makes`: a change makes exactly the declarations that it is said to make.
* `GenericSlots.Change.size_le`: a change takes no class away.
* `GenericSlots.Chronicle.reachable_iff`: changes lead to the reachable hierarchies.
* `GenericSlots.Chronicle.consistent_run`: changes of any kind lead to a consistent hierarchy.

## Implementation notes

A change that is made of several faults either at its start or when identifiers run out, and is then
taken back as a whole. What its parts lead to up to there is the history of these parts.
-/

namespace GenericSlots

/-! ## Declarations -/

/-- The declaration of a type parameter for a class, with the identifier that the parameter got. -/
structure Declaration where
  /-- The class. -/
  cls : ClassId
  /-- The type parameter. -/
  param : TypeParam

/-- The type parameters that are declared under the given names, each with the next identifier. That
depends on the parameters declared before, including those declared under a name in this list. -/
def ClassDef.newParams (d : ClassDef) : List String → List TypeParam
  | [] => []
  | name :: names =>
    let p := ⟨name, d.nextParamId⟩
    p :: (d.declareParam p).newParams names

/-- The declarations that a change makes, in order, if it succeeds. A class that is added gets the
number of classes before it as its identifier. This is what a program asks for, stated without the
changes that carry it out. -/
def Change.declares (h : Hierarchy) : Change → List Declaration
  | newParam c name =>
    match h.find? c with
    | some d => [⟨c, ⟨name, d.nextParamId⟩⟩]
    | none => []
  | declareParam c p => [⟨c, p⟩]
  | defineGeneric name params =>
    let c := .ofIndex h.size
    ((ClassDef.fresh name c).newParams params).map (⟨c, ·⟩)
  | defineWithIds _ params => params.map (⟨.ofIndex h.size, ·⟩)
  | ladder height =>
    (List.range' h.size (3 * height + 1)).map fun n => ⟨.ofIndex n, ⟨"T", ⟨1⟩⟩⟩
  | alloc _ | setAbstract _ | addBase _ _ | setAncestors _ _ | extend _ _ => []

/-- The type parameters that were declared for a class, in order and as often as they were
declared. -/
def declaredFor (c : ClassId) (ds : List Declaration) : List TypeParam :=
  (ds.filter fun d => d.cls = c).map Declaration.param

/-- What was declared for a class first and what was declared for it later follow each other. -/
lemma declaredFor_append (c : ClassId) (ds ds' : List Declaration) :
    declaredFor c (ds ++ ds') = declaredFor c ds ++ declaredFor c ds' := by
  rw [declaredFor, List.filter_append, List.map_append]
  rfl

/-- A single declaration is one for its own class only. -/
lemma declaredFor_singleton (c b : ClassId) (p : TypeParam) :
    declaredFor c [⟨b, p⟩] = if b = c then [p] else [] := by
  by_cases hbc : b = c <;> simp [declaredFor, hbc]

/-! ## What declarations amount to -/

/-- The type parameters are what the declarations amount to: every name once, in the order of first
declarations, and as it was declared last. -/
structure TypeParam.Reflects (params declared : List TypeParam) : Prop where
  /-- The names differ. -/
  distinct : (params.map TypeParam.name).Nodup
  /-- The names are in the order in which each was first declared. -/
  order : params.map TypeParam.name = (declared.map TypeParam.name).eraseDups
  /-- Every parameter is the latest declaration of its name. -/
  latest : ∀ p ∈ params, declared.reverse.find? (fun q => q.name = p.name) = some p

namespace TypeParam

/-- No type parameters are what no declarations amount to. -/
lemma reflects_nil : Reflects [] [] :=
  ⟨List.nodup_nil, rfl, fun _ hp => nomatch hp⟩

/-- The latest declaration of a name is the one just made or was the latest before. -/
private lemma latest_append (declared : List TypeParam) (p : TypeParam) (name : String) :
    (declared ++ [p]).reverse.find? (fun q => q.name = name) =
      if p.name = name then some p else declared.reverse.find? (fun q => q.name = name) := by
  rw [List.reverse_append]
  by_cases hname : p.name = name <;> simp [hname]

/-- A name that is declared once more keeps its place, and a new name comes last. -/
lemma eraseDups_append_singleton (names : List String) (name : String) :
    (names ++ [name]).eraseDups =
      if name ∈ names then names.eraseDups else names.eraseDups ++ [name] := by
  rw [List.eraseDups_append]
  by_cases hname : name ∈ names <;> simp [List.removeAll, List.eraseDups_cons, hname]

/-- Replacing the parameters of a name keeps all names, in their order. -/
private lemma map_name_replace (params : List TypeParam) (p : TypeParam) :
    (params.map fun q => if q.name = p.name then p else q).map TypeParam.name =
      params.map TypeParam.name := by
  rw [List.map_map]
  refine List.map_congr_left fun q _ => ?_
  by_cases hname : q.name = p.name <;> simp [hname]

variable {d : ClassDef} {declared : List TypeParam}

/-- One more declaration is reflected once it is made.

**Proof sketch.** The parameters have the names that were declared. If the name is one of them, the
parameter is replaced where it stands: names and order stay, and the new declaration is the latest
of its name and no other. If the name is new, the parameter comes last, where the name comes in the
order of first declarations. -/
lemma Reflects.declareParam (hd : Reflects d.params declared) (p : TypeParam) :
    Reflects (d.declareParam p).params (declared ++ [p]) := by
  have hmem : p.name ∈ declared.map name ↔ p.name ∈ d.params.map name := by
    rw [hd.order, List.mem_eraseDups]
  have horder : ((declared ++ [p]).map name).eraseDups =
      if p.name ∈ declared.map name then d.params.map name else d.params.map name ++ [p.name] := by
    rw [List.map_append, hd.order]
    exact eraseDups_append_singleton _ _
  rw [ClassDef.declareParam]
  split
  case isTrue hany =>
    obtain ⟨q, hq, hname⟩ := List.any_eq_true.1 hany
    have hdeclared : p.name ∈ declared.map name :=
      hmem.2 (List.mem_map.2 ⟨q, hq, of_decide_eq_true hname⟩)
    refine ⟨?_, ?_, ?_⟩
    · rw [map_name_replace]
      exact hd.distinct
    · rw [map_name_replace, horder, if_pos hdeclared]
    · intro q' hq'
      obtain ⟨q, hq, rfl⟩ := List.mem_map.1 hq'
      rw [latest_append]
      by_cases hname : q.name = p.name
      · rw [if_pos hname, if_pos rfl]
      · rw [if_neg hname, if_neg (Ne.symm hname)]
        exact hd.latest q hq
  case isFalse hany =>
    have hnew : p.name ∉ d.params.map name := by simpa using hany
    refine ⟨?_, ?_, ?_⟩
    · rw [List.map_append]
      refine List.nodup_append.2 ⟨hd.distinct, by simp, ?_⟩
      rintro a ha b hb rfl
      exact hnew (List.mem_singleton.1 hb ▸ ha)
    · rw [horder, if_neg (mt hmem.1 hnew), List.map_append]
      rfl
    · intro q hq
      rw [latest_append]
      rcases List.mem_append.1 hq with hq | hq
      · have hne : p.name ≠ q.name := fun hname => hnew (hname ▸ List.mem_map_of_mem hq)
        rw [if_neg hne]
        exact hd.latest q hq
      · rw [List.mem_singleton.1 hq, if_pos rfl]

end TypeParam

/-! ## Hierarchies and declarations -/

namespace Hierarchy

/-- The type parameters of a class. A class that is not defined has none, so this may be compared
with declarations for any identifier. -/
def paramsOf (h : Hierarchy) (c : ClassId) : List TypeParam :=
  match h.find? c with
  | some d => d.params
  | none => []

/-- The type parameters of all classes are what the declarations amount to. -/
def Recorded (h : Hierarchy) (ds : List Declaration) : Prop :=
  ∀ c, TypeParam.Reflects (h.paramsOf c) (declaredFor c ds)

variable {h : Hierarchy}

/-- The type parameters of a class that is defined are those that it has. -/
lemma paramsOf_eq {c : ClassId} {d : ClassDef} (hd : h.find? c = some d) :
    h.paramsOf c = d.params := by
  rw [paramsOf, hd]

/-- A class that is added has no type parameters, so adding it changes the type parameters of no
identifier. -/
lemma paramsOf_add (h : Hierarchy) (name : String) (c : ClassId) :
    (h.add name).paramsOf c = h.paramsOf c := by
  rw [paramsOf, paramsOf, find?_add]
  by_cases hc : c.index = h.size
  · have hnone : h.find? c = none := Array.getElem?_eq_none (Nat.le_of_eq hc.symm)
    rw [if_pos hc, hnone]
    rfl
  · rw [if_neg hc]

/-- A change that keeps the type parameters of its class keeps those of all classes. -/
lemma paramsOf_update {f : ClassDef → ClassDef} (hf : ∀ d, (f d).params = d.params)
    (h : Hierarchy) (b c : ClassId) : (h.update b f).paramsOf c = h.paramsOf c := by
  rw [paramsOf, paramsOf, find?_update]
  by_cases hbc : b = c
  · rw [if_pos hbc]
    cases h.find? c with
    | none => rfl
    | some d => exact hf d
  · rw [if_neg hbc]

/-- Nothing is declared for the classes that there are at first. -/
lemma recorded_initial : Recorded .initial [] := by
  intro c
  rw [initial, paramsOf_add]
  exact TypeParam.reflects_nil

/-- A type parameter that is declared for a class is recorded.

**Proof sketch.** For the class itself this is `Reflects.declareParam`. The other classes are as
before, and the declaration is none for them. -/
lemma Recorded.declareParam {ds : List Declaration} (hh : h.Recorded ds) {c : ClassId}
    (hc : h.IsDefined c) (p : TypeParam) :
    (h.update c fun d => d.declareParam p).Recorded (ds ++ [⟨c, p⟩]) := by
  intro b
  rw [declaredFor_append, declaredFor_singleton]
  by_cases hcb : c = b
  · subst hcb
    obtain ⟨d, hd⟩ := isDefined_iff.1 hc
    have hd' : (h.update c fun d => d.declareParam p).find? c = some (d.declareParam p) := by
      rw [find?_update, if_pos rfl, hd, Option.map_some]
    rw [if_pos rfl, paramsOf_eq hd']
    exact (paramsOf_eq hd ▸ hh c).declareParam p
  · rw [if_neg hcb, List.append_nil, paramsOf, find?_update, if_neg hcb]
    exact hh b

end Hierarchy

/-! ## What changes declare -/

namespace Edit

variable {α β : Type} {h h' : Hierarchy}

/-- If the change succeeds on the hierarchy, it adds so many classes and makes these declarations.
What it declares may depend on the hierarchy, so this is about a change at a hierarchy. -/
def Makes (e : Edit α) (h : Hierarchy) (added : Nat) (made : List Declaration) : Prop :=
  ∀ a h', e h = .ok (a, h') →
    h'.size = h.size + added ∧ ∀ ds, h.Recorded ds → h'.Recorded (ds ++ made)

/-- A change that only gives a value adds no class and declares nothing. -/
lemma makes_pure (a : α) (h : Hierarchy) : (pure a : Edit α).Makes h 0 [] := by
  intro b h' hok
  obtain ⟨rfl, rfl⟩ := Prod.mk.inj (Except.ok.inj hok)
  exact ⟨rfl, fun ds hds => by rwa [List.append_nil]⟩

/-- Reading a class adds no class and declares nothing. -/
lemma makes_get (c : ClassId) (h : Hierarchy) : (get c).Makes h 0 [] := by
  intro d h' hok
  obtain ⟨d', -, hok⟩ := bind_eq_ok_iff.1 hok
  obtain ⟨rfl, rfl⟩ := Prod.mk.inj (Except.ok.inj hok)
  exact ⟨rfl, fun ds hds => by rwa [List.append_nil]⟩

/-- Two changes one after another add the classes of both and make the declarations of both, the
second at the hierarchy that the first leads to. -/
lemma Makes.bind {e : Edit α} {f : α → Edit β} {m n : Nat} {made made' : List Declaration}
    (he : e.Makes h m made) (hf : ∀ a h', e h = .ok (a, h') → (f a).Makes h' n made') :
    (e >>= f).Makes h (m + n) (made ++ made') := by
  intro b h'' hok
  obtain ⟨⟨a, h'⟩, hmade, hok⟩ := bind_eq_ok_iff.1 hok
  obtain ⟨hsize, hrecorded⟩ := he a h' hmade
  obtain ⟨hsize', hrecorded'⟩ := hf a h' hmade b h'' hok
  refine ⟨by omega, fun ds hds => ?_⟩
  rw [← List.append_assoc]
  exact hrecorded' _ (hrecorded ds hds)

/-- If a change declares nothing, then the declarations are those of what follows. -/
lemma Makes.nothing_bind {e : Edit α} {f : α → Edit β} {m : Nat} {made : List Declaration}
    (he : e.Makes h m []) (hf : ∀ a h', e h = .ok (a, h') → (f a).Makes h' 0 made) :
    (e >>= f).Makes h m made :=
  he.bind hf

/-- If what follows declares nothing, then the declarations are those of the change before. -/
lemma Makes.bind_nothing {e : Edit α} {f : α → Edit β} {m : Nat} {made : List Declaration}
    (he : e.Makes h m made) (hf : ∀ a h', (f a).Makes h' 0 []) : (e >>= f).Makes h m made := by
  have hboth := he.bind fun a h' _ => hf a h'
  rwa [List.append_nil] at hboth

/-- Leaving out the answer of a change makes no difference to what it declares. -/
lemma Makes.discard {e : Edit α} {m : Nat} {made : List Declaration} (he : e.Makes h m made) :
    (discard e).Makes h m made :=
  he.bind_nothing fun _ h' => makes_pure _ h'

/-- Adding a class adds one class and declares nothing. -/
lemma makes_alloc (name : String) (h : Hierarchy) : (alloc name).Makes h 1 [] := by
  intro c h' hok
  obtain ⟨-, -, rfl⟩ := alloc_eq_ok_iff.1 hok
  refine ⟨h.size_add name, fun ds hds c => ?_⟩
  rw [List.append_nil, Hierarchy.paramsOf_add]
  exact hds c

/-- A change of one class adds no class, and declares nothing if it keeps the type parameters. -/
lemma makes_update {f : ClassDef → ClassDef} {c : ClassId} {h : Hierarchy}
    (hf : ∀ d, (f d).params = d.params) : (update c f).Makes h 0 [] := by
  intro a h' hok
  obtain ⟨-, rfl⟩ := update_eq_ok_iff.1 hok
  refine ⟨h.size_update c f, fun ds hds b => ?_⟩
  rw [List.append_nil, Hierarchy.paramsOf_update hf]
  exact hds b

/-- Marking a class as an interface declares nothing. -/
lemma makes_setAbstract (c : ClassId) (h : Hierarchy) : (setAbstract c).Makes h 0 [] :=
  makes_update fun _ => rfl

/-- Adding a base declares nothing. -/
lemma makes_addBase (c : ClassId) (base : Instance) (h : Hierarchy) :
    (addBase c base).Makes h 0 [] :=
  makes_update fun _ => rfl

/-- Listing ancestors declares nothing. -/
lemma makes_setAncestors (c : ClassId) (ancestors : List ClassId) (h : Hierarchy) :
    (setAncestors c ancestors).Makes h 0 [] :=
  makes_update fun _ => rfl

/-- Adding a base with its ancestors declares nothing, as none of its parts does. -/
lemma makes_extend (c : ClassId) (base : Instance) (h : Hierarchy) :
    (extend c base).Makes h 0 [] :=
  (makes_get base.cls h).bind_nothing fun d h₁ =>
    (makes_addBase c base h₁).bind_nothing fun _ h₂ => makes_setAncestors c d.ancestors h₂

/-- Declaring a type parameter with an identifier of its own makes this declaration. -/
lemma makes_declareParam (c : ClassId) (p : TypeParam) (h : Hierarchy) :
    (declareParam c p).Makes h 0 [⟨c, p⟩] := by
  intro a h' hok
  obtain ⟨hc, rfl⟩ := update_eq_ok_iff.1 hok
  exact ⟨h.size_update c _, fun ds hds => hds.declareParam hc p⟩

/-- A type parameter gets the next identifier of its class, as the class is at that time. -/
lemma makes_newParam {c : ClassId} {d : ClassDef} (hd : h.find? c = some d) (name : String) :
    (newParam c name).Makes h 0 [⟨c, ⟨name, d.nextParamId⟩⟩] := by
  intro v h' hok
  obtain ⟨d', hd', rfl, hdeclared⟩ := newParam_eq_ok_iff.1 hok
  obtain rfl : d = d' := Option.some.inj (hd.symm.trans hd')
  exact makes_declareParam c _ h () h' hdeclared

/-- Type parameters that are declared one after another are declared in that order. -/
lemma makes_forM_declareParam (c : ClassId) (params : List TypeParam) (h : Hierarchy) :
    (params.forM (declareParam c)).Makes h 0 (params.map (⟨c, ·⟩)) := by
  induction params generalizing h with
  | nil => exact makes_pure () h
  | cons p params ih => exact (makes_declareParam c p h).bind fun _ h' _ => ih h'

/-- Type parameters that are declared one after another get identifiers that depend on those before
them.

**Proof sketch.** Induction on the names. The first parameter gets the next identifier, and the
class that the others are declared for is the one with this parameter. -/
lemma makes_forM_newParam {c : ClassId} {d : ClassDef} (hd : h.find? c = some d)
    (names : List String) :
    (names.forM fun name => discard (newParam c name)).Makes h 0
      ((d.newParams names).map (⟨c, ·⟩)) := by
  induction names generalizing h d with
  | nil => exact makes_pure () h
  | cons name names ih =>
    refine (makes_newParam hd name).discard.bind fun _ h' hmade => ih ?_
    obtain ⟨⟨v, h₁⟩, hok, hmade⟩ := bind_eq_ok_iff.1 hmade
    obtain ⟨-, rfl⟩ := Prod.mk.inj (Except.ok.inj hmade)
    obtain ⟨d', hd', rfl, hdeclared⟩ := newParam_eq_ok_iff.1 hok
    obtain rfl : d = d' := Option.some.inj (hd.symm.trans hd')
    obtain ⟨-, rfl⟩ := update_eq_ok_iff.1 hdeclared
    rw [Hierarchy.find?_update, if_pos rfl, hd, Option.map_some]

/-- Adding a class with type parameters adds one class, and declares the parameters for it. The
class is the next one, to which nothing has been done when the first parameter is declared. -/
lemma makes_defineGeneric (name : String) (params : List String) (h : Hierarchy) :
    (defineGeneric name params).Makes h 1 (Change.declares h (.defineGeneric name params)) := by
  refine (makes_alloc name h).nothing_bind fun c h' hok => ?_
  obtain ⟨hs, rfl, rfl⟩ := alloc_eq_ok_iff.1 hok
  refine (makes_forM_newParam ?_ params).bind_nothing fun _ h'' => makes_pure _ h''
  rw [Hierarchy.find?_add, if_pos (ClassId.index_ofIndex hs)]

/-- Adding a class with type parameters and their identifiers adds one class, and declares the
parameters for it. -/
lemma makes_defineWithIds (name : String) (params : List TypeParam) (h : Hierarchy) :
    (defineWithIds name params).Makes h 1 (Change.declares h (.defineWithIds name params)) := by
  refine (makes_alloc name h).nothing_bind fun c h' hok => ?_
  obtain ⟨-, rfl, rfl⟩ := alloc_eq_ok_iff.1 hok
  exact (makes_forM_declareParam _ params _).bind_nothing fun _ h'' => makes_pure _ h''

/-! ### Ladders -/

/-- The declaration of the only type parameter of a class at a position of a ladder. All classes of
a ladder declare the same parameter. -/
private def rung (n : Nat) : Declaration :=
  ⟨.ofIndex n, ⟨"T", ⟨1⟩⟩⟩

/-- A class of a ladder declares one type parameter, for the class at the position that was free. -/
private lemma makes_rung (name : String) (h : Hierarchy) :
    (defineGeneric name ["T"]).Makes h 1 [rung h.size] :=
  makes_defineGeneric name ["T"] h

/-- A level of a ladder declares the type parameters of its sides and then that of the join.
Everything else that adding a level does declares nothing.

**Proof sketch.** The steps of the level are gone through in order. The first three add a class with
a type parameter each, and the positions of these classes are known from the number of classes
before. The other steps change bases and ancestors only. -/
private lemma makes_ladderLevel (number : Nat) (below : ClassId) (h : Hierarchy) :
    (ladderLevel number below).Makes h 3 ((List.range' h.size 3).map rung) := by
  change Makes _ h (1 + (1 + 1)) ([rung h.size] ++ ([rung (h.size + 1)] ++ [rung (h.size + 1 + 1)]))
  refine (makes_rung _ h).bind fun left h₁ hleft => ?_
  rw [← (makes_rung _ h left h₁ hleft).1]
  refine (makes_rung _ h₁).bind fun right h₂ hright => ?_
  rw [← (makes_rung _ h₁ right h₂ hright).1]
  refine (makes_rung _ h₂).bind_nothing fun join h₃ => ?_
  refine (makes_extend left _ h₃).bind_nothing fun _ h₄ => ?_
  refine (makes_extend right _ h₄).bind_nothing fun _ h₅ => ?_
  refine (makes_addBase join _ h₅).bind_nothing fun _ h₆ => ?_
  refine (makes_addBase join _ h₆).bind_nothing fun _ h₇ => ?_
  refine (makes_get below h₇).bind_nothing fun _ h₈ => ?_
  exact (makes_setAncestors join _ h₈).bind_nothing fun _ h₉ => makes_pure _ h₉

/-- The levels of a ladder declare their type parameters from the lowest to the highest.

**Proof sketch.** Induction on the height. The first level declares for the next three positions,
and the others start from the hierarchy that has three classes more. -/
private lemma makes_ladderLevels (number : Nat) (below : ClassId) (height : Nat)
    (h : Hierarchy) :
    (ladderLevels number below height).Makes h (3 * height)
      ((List.range' h.size (3 * height)).map rung) := by
  induction height generalizing number below h with
  | zero => exact makes_pure [] h
  | succ height ih =>
    rw [Nat.mul_succ, Nat.add_comm (3 * height), ← List.range'_append, List.map_append, Nat.one_mul]
    refine (makes_ladderLevel number below h).bind fun level h' hlevel => ?_
    rw [← (makes_ladderLevel number below h level h' hlevel).1]
    exact (ih (number + 1) level.join h').bind_nothing fun _ h'' => makes_pure _ h''

/-- A ladder declares one type parameter for each of its classes, from the bottom upwards. -/
lemma makes_ladder (height : Nat) (h : Hierarchy) :
    (ladder height).Makes h (3 * height + 1) (Change.declares h (.ladder height)) := by
  rw [Nat.add_comm]
  refine (makes_rung "D0" h).bind fun bottom h' hbottom => ?_
  rw [← (makes_rung _ h bottom h' hbottom).1]
  exact (makes_ladderLevels 1 bottom height h').bind_nothing fun _ h'' => makes_pure _ h''

end Edit

/-- A change that succeeds adds some number of classes and makes the declarations that it is said to
make.

**Proof sketch.** One case for each change, each by the lemma about what that change makes. Only
declaring a parameter with the next identifier needs that the change succeeds, as the class has to
be there. -/
lemma Change.exists_makes (change : Change) {h h' : Hierarchy}
    (made : change.edit h = .ok ((), h')) :
    ∃ added, change.edit.Makes h added (change.declares h) := by
  cases change with
  | alloc name => exact ⟨_, (Edit.makes_alloc name h).discard⟩
  | setAbstract c => exact ⟨_, Edit.makes_setAbstract c h⟩
  | newParam c name =>
    obtain ⟨⟨v, h₁⟩, hok, -⟩ := bind_eq_ok_iff.1 made
    obtain ⟨d, hd, -⟩ := Edit.newParam_eq_ok_iff.1 hok
    refine ⟨0, ?_⟩
    rw [declares, hd]
    exact (Edit.makes_newParam hd name).discard
  | declareParam c p => exact ⟨_, Edit.makes_declareParam c p h⟩
  | addBase c base => exact ⟨_, Edit.makes_addBase c base h⟩
  | setAncestors c ancestors => exact ⟨_, Edit.makes_setAncestors c ancestors h⟩
  | extend c base => exact ⟨_, Edit.makes_extend c base h⟩
  | defineGeneric name params => exact ⟨_, (Edit.makes_defineGeneric name params h).discard⟩
  | defineWithIds name params => exact ⟨_, (Edit.makes_defineWithIds name params h).discard⟩
  | ladder height => exact ⟨_, (Edit.makes_ladder height h).discard⟩

/-- A change makes exactly the declarations that it is said to make, so after it the hierarchy
records them along with those before. -/
theorem Change.makes (change : Change) {h h' : Hierarchy} {ds : List Declaration}
    (hds : h.Recorded ds) (made : change.edit h = .ok ((), h')) :
    h'.Recorded (ds ++ change.declares h) := by
  obtain ⟨added, hmakes⟩ := change.exists_makes made
  exact (hmakes () h' made).2 ds hds

/-- A change takes no class away. -/
theorem Change.size_le (change : Change) {h h' : Hierarchy}
    (made : change.edit h = .ok ((), h')) : h.size ≤ h'.size := by
  obtain ⟨added, hmakes⟩ := change.exists_makes made
  exact (hmakes () h' made).1 ▸ Nat.le_add_right _ _

/-! ## Chronicles -/

/-- A hierarchy with all declarations that led to it. The declarations are a ledger: nothing is ever
taken out of it, also where the hierarchy forgets. -/
structure Chronicle where
  /-- The hierarchy. -/
  hierarchy : Hierarchy
  /-- The declarations, from the first to the last. -/
  declared : List Declaration

namespace Chronicle

/-- A program starts with the initial hierarchy, for which nothing has been declared. -/
def start : Chronicle :=
  ⟨.initial, []⟩

/-- Makes a change. A change that faults has no effect, neither on the hierarchy nor on what has
been declared. -/
def step (s : Chronicle) (change : Change) : Chronicle :=
  match change.edit s.hierarchy with
  | .ok ((), h) => ⟨h, s.declared ++ change.declares s.hierarchy⟩
  | .error _ => s

/-- Makes changes from the start on, one after another. -/
def run (changes : List Change) : Chronicle :=
  changes.foldl step start

/-- A hierarchy that agrees with the declarations that led to it. The three parts are about the
ancestors, the type parameters and the names of its classes. -/
structure Consistent (s : Chronicle) : Prop where
  /-- Every class is the first of its ancestors. -/
  selfFirst : s.hierarchy.SelfFirst
  /-- The type parameters of a class are what the declarations for it amount to. -/
  params : ∀ c d, s.hierarchy.find? c = some d →
    TypeParam.Reflects d.params (declaredFor c s.declared)
  /-- Every name refers to the last class that has it. -/
  names : s.hierarchy.NamesLast

/-- What is true at the start and remains true with every change that succeeds is true after all
changes.

**Proof sketch.** Induction on the changes, with the chronicle generalized. A change that faults
leaves the chronicle as it is. -/
lemma run_induction {P : Chronicle → Prop} (hstart : P start)
    (hstep : ∀ (s : Chronicle) (change : Change) (h : Hierarchy), P s →
      change.edit s.hierarchy = .ok ((), h) → P ⟨h, s.declared ++ change.declares s.hierarchy⟩)
    (changes : List Change) : P (run changes) := by
  suffices ∀ s, P s → P (changes.foldl step s) from this start hstart
  induction changes with
  | nil => exact fun _ hs => hs
  | cons change changes ih =>
    intro s hs
    refine ih (s.step change) ?_
    rw [step]
    split
    case h_1 h hok => exact hstep s change h hs hok
    case h_2 => exact hs

/-- A program only leads to hierarchies that are reachable. -/
lemma reachable_run (changes : List Change) : (run changes).hierarchy.Reachable :=
  run_induction (P := fun s => s.hierarchy.Reachable) .initial
    (fun _ change _ hr made => .change hr change made) changes

/-- Changes lead to the reachable hierarchies, and to all of them: what a program did can be written
down as a list of changes, without those that faulted.

**Proof sketch.** From left to right, by induction on how the hierarchy is reached: a change that
succeeded is appended to the list. From right to left, every run stays within the reachable
hierarchies. -/
theorem reachable_iff {h : Hierarchy} :
    h.Reachable ↔ ∃ changes, (run changes).hierarchy = h := by
  constructor
  · intro hr
    induction hr with
    | initial => exact ⟨[], rfl⟩
    | change _ change made ih =>
      obtain ⟨changes, rfl⟩ := ih
      refine ⟨changes ++ [change], ?_⟩
      rw [run, List.foldl_append, List.foldl_cons, List.foldl_nil, ← run, step, made]
  · rintro ⟨changes, rfl⟩
    exact reachable_run changes

/-- The declarations of a chronicle are those that its hierarchy records. -/
lemma recorded_run (changes : List Change) :
    (run changes).hierarchy.Recorded (run changes).declared :=
  run_induction (P := fun s => s.hierarchy.Recorded s.declared) Hierarchy.recorded_initial
    (fun _ change _ hds made => change.makes hds made) changes

/-- Whatever changes a program makes, every class is the first of its ancestors, its type parameters
are what has been declared for it, and every name refers to the last class that has it. -/
theorem consistent_run (changes : List Change) : (run changes).Consistent where
  selfFirst := (reachable_run changes).selfFirst
  params c _ hd := Hierarchy.paramsOf_eq hd ▸ recorded_run changes c
  names := (reachable_run changes).namesLast

example : (run [.defineGeneric "Map" ["K", "V", "K"]]).hierarchy.paramsOf ⟨1⟩ =
    [⟨"K", ⟨3⟩⟩, ⟨"V", ⟨2⟩⟩] := by
  decide

end Chronicle

end GenericSlots
