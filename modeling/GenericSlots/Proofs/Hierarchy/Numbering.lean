import GenericSlots.Proofs.Hierarchy.Effects
import GenericSlots.Proofs.Slot.Blame
import Mathlib.Algebra.Group.Nat.Defs
import Mathlib.Data.List.Nodup
import Mathlib.Data.List.Induction
set_option autoImplicit false

/-!
# Numbers of type parameters

A type parameter without an identifier of its own gets the number of type parameters before it, plus
one. The parameters are kept by name, though. A name that is declared again gets a new number but
does not count again, so the parameter after it gets the same number once more. Identifiers that
were given explicitly may be the next number as well.

## Main definitions

* `GenericSlots.ParamDecl`: a declaration of a type parameter, as a program makes it.
* `GenericSlots.Hierarchy.paramDecls`: the declarations that changes make for a class.
* `GenericSlots.ParamDecl.Occupied`: the condition on the declarations so far under which a
  parameter has the next identifier already.
* `GenericSlots.ClassDef.NumberedBy`: the numbers that the type parameters of a class get for a list
  of names.

## Main results

* `GenericSlots.Chronicle.declaredFor_run`: the parameters that a program declares for a class.
* `GenericSlots.Chronicle.numbering`: when the next identifier is free, and the numbers of a class
  that is added with type parameters.
-/

namespace GenericSlots

/-! ## Lists without repetitions -/

section Lists

variable {α : Type}

/-- The last element that a function maps to a given value, with what comes before and after it.

**Proof sketch.** Induction on the list. If the value comes from an element of the rest, the last of
these is meant, and otherwise the first element is the only one. -/
private lemma exists_last {f : α → String} {n : String} {as : List α} (hn : n ∈ as.map f) :
    ∃ before a after, as = before ++ a :: after ∧ f a = n ∧ n ∉ after.map f := by
  induction as with
  | nil => cases hn
  | cons a as ih =>
    by_cases hmem : n ∈ as.map f
    · obtain ⟨before, b, after, rfl, hb⟩ := ih hmem
      exact ⟨a :: before, b, after, rfl, hb⟩
    · have ha : n = f a := (List.mem_cons.1 hn).resolve_right hmem
      exact ⟨[], a, as, rfl, ha.symm, hmem⟩

/-- More elements add nothing new exactly if they occur already.

**Proof sketch.** What the elements add are those among them that do not occur before, each of them
once. There are none of these exactly if all occur before. -/
private lemma length_eraseDups_append (as bs : List String) :
    (as ++ bs).eraseDups.length = as.eraseDups.length ↔ ∀ b ∈ bs, b ∈ as := by
  rw [List.eraseDups_append, List.length_append, Nat.add_eq_left, List.length_eq_zero_iff]
  constructor
  · intro hnil b hb
    by_contra hnot
    have hmem : b ∈ (bs.removeAll as).eraseDups := by simp [List.removeAll, hb, hnot]
    rw [hnil] at hmem
    cases hmem
  · intro hall
    have hnil : bs.removeAll as = [] := by simpa [List.removeAll] using hall
    rw [hnil, List.eraseDups_nil]

/-- There are at most as many different elements as there are elements. -/
private lemma length_eraseDups_le (as : List String) : as.eraseDups.length ≤ as.length := by
  induction as using List.reverseRecOn with
  | nil => exact Nat.le_refl 0
  | append_singleton as a ih =>
    rw [TypeParam.eraseDups_append_singleton, List.length_append, List.length_singleton]
    split
    · exact Nat.le_succ_of_le ih
    · rw [List.length_append, List.length_singleton]
      exact Nat.succ_le_succ ih

/-- An element stands where it would if those before one of its occurrences were all there is,
exactly if it does not occur among them.

**Proof sketch.** Without repetitions, an element has one position. If it occurs among those before,
that position is one of theirs. If it does not, it comes right after them. -/
private lemma getElem?_eraseDups_iff {before after : List String} {a : String} {k : Nat}
    (hnodup : (before ++ a :: after).eraseDups.Nodup)
    (hk : (before ++ a :: after).eraseDups[k]? = some a) :
    k = before.eraseDups.length ↔ a ∉ before := by
  have hsplit : (before ++ a :: after).eraseDups =
      before.eraseDups ++ ((a :: after).removeAll before).eraseDups := List.eraseDups_append
  -- `a` has one position only, so it is enough to find it at one
  have hunique : ∀ j, (before ++ a :: after).eraseDups[j]? = some a → k = j := fun j hj =>
    (List.getElem?_inj (List.getElem?_eq_some_iff.1 hk).1 hnodup).1 (hk.trans hj.symm)
  constructor
  · rintro rfl hmem
    obtain ⟨j, hj⟩ := List.mem_iff_getElem?.1 (List.mem_eraseDups.2 hmem)
    have hlt : j < before.eraseDups.length := (List.getElem?_eq_some_iff.1 hj).1
    have hkj := hunique j (by rw [hsplit, List.getElem?_append_left hlt, hj])
    exact Nat.lt_irrefl _ (hkj ▸ hlt)
  · intro hnot
    have hrest : (a :: after).removeAll before = a :: after.removeAll before := by
      simp [List.removeAll, hnot]
    apply hunique
    rw [hsplit, List.getElem?_append_right (Nat.le_refl _), Nat.sub_self, hrest,
      List.eraseDups_cons]
    rfl

end Lists

/-! ## Declarations -/

/-- A declaration of a type parameter, as a program makes it. Which identifier the parameter gets
may depend on the declarations before. -/
inductive ParamDecl where
  /-- The parameter gets the next identifier. -/
  | next (name : String)
  /-- The parameter comes with an identifier. -/
  | given (p : TypeParam)

namespace ParamDecl

/-- The name that is declared. -/
def name : ParamDecl → String
  | next name => name
  | given p => p.name

/-- The number of type parameters that declarations amount to, which is the number of different
names. -/
def count (xs : List ParamDecl) : Nat :=
  (xs.map name).eraseDups.length

/-- The type parameter that is declared, given the declarations before. -/
def param (before : List ParamDecl) : ParamDecl → TypeParam
  | next name => ⟨name, ⟨Int32.ofNat (count before) + 1⟩⟩
  | given p => p

/-- The type parameters that are declared one after another, given the declarations before. -/
def params (before : List ParamDecl) : List ParamDecl → List TypeParam
  | [] => []
  | x :: xs => x.param before :: params (before ++ [x]) xs

/-- The type parameter that is declared has the name that is declared. -/
lemma name_param (before : List ParamDecl) (x : ParamDecl) : (x.param before).name = x.name := by
  cases x <;> rfl

/-- The type parameters that are declared have the names that are declared, whatever was declared
before. -/
lemma map_name_params (before xs : List ParamDecl) :
    (params before xs).map TypeParam.name = xs.map name := by
  induction xs generalizing before with
  | nil => rfl
  | cons x xs ih => rw [params, List.map_cons, List.map_cons, name_param, ih]

/-- Declarations that follow others are made given those too. -/
lemma params_append (before xs ys : List ParamDecl) :
    params before (xs ++ ys) = params before xs ++ params (before ++ xs) ys := by
  induction xs generalizing before with
  | nil => rw [List.append_nil]; rfl
  | cons x xs ih =>
    rw [List.cons_append, params, ih, params, List.cons_append, List.append_assoc]
    rfl

/-- Declarations of some names declare these names. -/
lemma map_name_next (names : List String) : (names.map next).map name = names := by
  rw [List.map_map]
  exact List.map_id names

/-- Type parameters that come with identifiers are declared as they are, whatever was declared
before. -/
lemma params_map_given (before : List ParamDecl) (ps : List TypeParam) :
    params before (ps.map .given) = ps := by
  induction ps generalizing before with
  | nil => rfl
  | cons p ps ih => rw [List.map_cons, params, ih]; rfl

/-- Further declarations do not take away from the count. -/
lemma count_le_append (xs ys : List ParamDecl) : count xs ≤ count (xs ++ ys) := by
  rw [count, count, List.map_append, List.eraseDups_append, List.length_append]
  exact Nat.le_add_right _ _

/-- Further declarations leave the count as it is exactly if they add no name. -/
lemma count_append_eq_iff (xs ys : List ParamDecl) :
    count (xs ++ ys) = count xs ↔ ∀ y ∈ ys, y.name ∈ xs.map name := by
  rw [count, count, List.map_append, length_eraseDups_append]
  simp only [List.mem_map, forall_exists_index, and_imp, forall_apply_eq_imp_iff₂]

/-- Below the limit of identifiers the next one is one more than the count. Beyond it the sum wraps
around and is negative. -/
lemma toInt_succ {n : Nat} (hn : n + 1 < 2 ^ 31) : (Int32.ofNat n + 1).toInt = n + 1 := by
  rw [Int32.toInt_add, Int32.toInt_ofNat_of_lt (by omega)]
  exact Int.bmod_eq_of_le (by simp only [Int32.reduceToInt]; omega) (by
    simp only [Int32.reduceToInt]; omega)

section Reflects

variable {d : ClassDef} {xs : List ParamDecl} {v : VarId}

/-- There are as many type parameters as different names that were declared. -/
lemma arity_eq (hd : TypeParam.Reflects d.params (params [] xs)) : d.arity = count xs := by
  rw [ClassDef.arity, ← List.length_map TypeParam.name, hd.order, map_name_params, count]

/-- What the next identifier is can be told from the declarations, without the class. -/
lemma nextParamId_eq (hd : TypeParam.Reflects d.params (params [] xs)) (name : String) :
    (next name).param xs = ⟨name, d.nextParamId⟩ := by
  rw [ClassDef.nextParamId, arity_eq hd, param]

/-- The parameters that are declared under some names, each with the next identifier, are those of
these declarations.

**Proof sketch.** Induction on the names. By `nextParamId_eq` the first parameter is the one that is
declared, and once it is, the class reflects one declaration more. -/
lemma newParams_eq (hd : TypeParam.Reflects d.params (params [] xs)) (names : List String) :
    d.newParams names = params xs (names.map .next) := by
  induction names generalizing d xs with
  | nil => rfl
  | cons name names ih =>
    have hparam := nextParamId_eq hd name
    rw [ClassDef.newParams, List.map_cons, params, hparam]
    refine congrArg _ (ih ?_)
    rw [params_append, List.nil_append, ← hparam]
    exact hd.declareParam _

/-- A class without type parameters is one for which nothing was declared. -/
lemma eq_nil_of_reflects (hd : TypeParam.Reflects [] (params [] xs)) : xs = [] := by
  have horder := hd.order
  rw [map_name_params, List.map_nil] at horder
  have hnone : ∀ n, n ∉ xs.map name := fun n hn => by
    rw [← List.mem_eraseDups, ← horder] at hn
    cases hn
  exact List.map_eq_nil_iff.1 (List.eq_nil_iff_forall_not_mem.2 hnone)

/-- A parameter is the one that was declared last under its name.

**Proof sketch.** The latest declaration of the name is found from the end of the list. None of the
declarations after it has the name, so the search gets to it, and it has the name. -/
lemma eq_param {ps : List TypeParam} {before after : List ParamDecl} {x : ParamDecl}
    {p : TypeParam} (hps : TypeParam.Reflects ps (params [] (before ++ x :: after))) (hp : p ∈ ps)
    (hx : x.name = p.name) (hafter : p.name ∉ after.map name) : p = x.param before := by
  have hlatest := hps.latest p hp
  have hlater : (params (before ++ [x]) after).reverse.find? (fun q => q.name = p.name) = none := by
    rw [List.find?_eq_none]
    intro q hq hname
    rw [List.mem_reverse] at hq
    refine hafter ?_
    rw [← map_name_params (before ++ [x]), ← of_decide_eq_true hname]
    exact List.mem_map_of_mem hq
  rw [params_append, List.nil_append, params, List.reverse_append, List.reverse_cons,
    List.append_assoc, List.find?_append, hlater, Option.none_or, List.singleton_append,
    List.find?_cons_of_pos (by simpa [name_param] using hx)] at hlatest
  exact (Option.some.inj hlatest).symm

/-- Where the next identifier is in use: the last declaration of a name came with it, or it used the
next identifier for a name that had been declared before, and no name has been new since. -/
def Occupied (xs : List ParamDecl) (n : String) (v : VarId) : Prop :=
  ∃ before x after, xs = before ++ x :: after ∧ x.name = n ∧ n ∉ after.map name ∧
    match x with
    | given p => p.id = v
    | next _ => ∀ y ∈ x :: after, y.name ∈ before.map name

/-- A parameter has the next identifier exactly if its declarations left it in use.

**Proof sketch.** The parameter is the one that was declared last under its name. If it came with an
identifier, that identifier decides. Otherwise its identifier is one more than the count at that
time, and the next one is one more than the count now; these are equal exactly if no name was added
since, its own included. -/
lemma id_eq_nextParamId_iff (hd : TypeParam.Reflects d.params (params [] xs))
    (hs : d.arity + 1 < 2 ^ 31) {q : TypeParam} (hq : q ∈ d.params) :
    q.id = d.nextParamId ↔ Occupied xs q.name d.nextParamId := by
  -- what the last declaration of the name says decides
  have hlast : ∀ before x after, xs = before ++ x :: after → x.name = q.name →
      q.name ∉ after.map name → (q.id = d.nextParamId ↔ match x with
        | given p => p.id = d.nextParamId
        | next _ => ∀ y ∈ x :: after, y.name ∈ before.map name) := by
    rintro before x after rfl hx hafter
    have hparam := eq_param hd hq hx hafter
    cases x with
    | given p => rw [hparam]; rfl
    | next n =>
      have hle := count_le_append before (next n :: after)
      rw [← arity_eq hd] at hle
      have hid : q.id = d.nextParamId ↔ d.arity = count before := by
        rw [hparam, ClassDef.nextParamId, param]
        simp only [VarId.mk.injEq, ← Int32.toInt_inj]
        rw [toInt_succ (by omega), toInt_succ hs]
        omega
      rw [hid, arity_eq hd]
      exact count_append_eq_iff before _
  constructor
  · intro hid
    have hn : q.name ∈ xs.map name := by
      rw [← map_name_params [], ← List.mem_eraseDups, ← hd.order]
      exact List.mem_map_of_mem hq
    obtain ⟨before, x, after, hxs, hx, hafter⟩ := exists_last hn
    exact ⟨before, x, after, hxs, hx, hafter, (hlast _ _ _ hxs hx hafter).1 hid⟩
  · rintro ⟨before, x, after, hxs, hx, hafter, hcond⟩
    exact (hlast _ _ _ hxs hx hafter).2 hcond

end Reflects

end ParamDecl

/-! ## Programs -/

/-- The declarations that a change makes for a class, in order, if it succeeds. In contrast to
`Change.declares` these do not say which identifiers the parameters get. -/
def Change.paramDecls (h : Hierarchy) (c : ClassId) : Change → List ParamDecl
  | newParam b name => if b = c then [.next name] else []
  | declareParam b p => if b = c then [.given p] else []
  | defineGeneric _ names => if .ofIndex h.size = c then names.map .next else []
  | defineWithIds _ params => if .ofIndex h.size = c then params.map .given else []
  | ladder height =>
    if h.size ≤ c.index ∧ c.index < h.size + (3 * height + 1) then [.next "T"] else []
  | alloc _ | setAbstract _ | addBase _ _ | setAncestors _ _ | extend _ _ => []

/-- The declarations that changes make for a class, one after another. A change that faults makes
none. -/
def Hierarchy.paramDecls (h : Hierarchy) (c : ClassId) : List Change → List ParamDecl
  | [] => []
  | change :: changes =>
    match change.edit h with
    | .ok ((), h') => change.paramDecls h c ++ h'.paramDecls c changes
    | .error _ => h.paramDecls c changes

/-- What is declared for one class is declared for no other. -/
lemma declaredFor_map (b c : ClassId) (ps : List TypeParam) :
    declaredFor c (ps.map (⟨b, ·⟩)) = if b = c then ps else [] := by
  by_cases hbc : b = c <;> simp [declaredFor, List.filter_map, Function.comp_def, hbc]

/-- The classes at some positions declare their type parameter once each.

**Proof sketch.** Induction on the number of positions. The class is at the first position, or at
one of the others, or at none; and as all positions are below the limit, different positions are
those of different classes. -/
private lemma declaredFor_range' (c : ClassId) (p : TypeParam) {start len : Nat}
    (hs : start + len ≤ ClassId.limit) :
    declaredFor c ((List.range' start len).map fun n => ⟨.ofIndex n, p⟩) =
      if start ≤ c.index ∧ c.index < start + len then [p] else [] := by
  induction len generalizing start with
  | zero =>
    rw [if_neg (by omega)]
    rfl
  | succ len ih =>
    have hindex : (ClassId.ofIndex start).index = start := ClassId.index_ofIndex (by omega)
    have hcons : declaredFor c ((List.range' start (len + 1)).map fun n => ⟨.ofIndex n, p⟩) =
        (if .ofIndex start = c then [p] else []) ++
          declaredFor c ((List.range' (start + 1) len).map fun n => ⟨.ofIndex n, p⟩) := by
      rw [← declaredFor_singleton, ← declaredFor_append]
      rfl
    rw [hcons, ih (by omega)]
    by_cases hc : ClassId.ofIndex start = c
    · subst hc
      rw [hindex, if_pos rfl, if_neg (by omega), if_pos (by omega)]
      rfl
    · have hne : start ≠ c.index := fun hstart => hc (by rw [hstart, ClassId.ofIndex_index])
      rw [if_neg hc, List.nil_append]
      exact if_congr (by omega) rfl rfl

section Histories

variable {h h' : Hierarchy} {c : ClassId} {ds : List Declaration} {xs : List ParamDecl}

/-- Nothing has been declared for a class that there is not yet. -/
private lemma eq_nil_of_size_le (hds : h.Recorded ds)
    (hxs : declaredFor c ds = ParamDecl.params [] xs) (hc : h.size ≤ c.index) : xs = [] := by
  have hnone : h.find? c = none := Array.getElem?_eq_none hc
  have hparams : h.paramsOf c = [] := by rw [Hierarchy.paramsOf, hnone]
  exact ParamDecl.eq_nil_of_reflects (hparams ▸ hxs ▸ hds c)

/-- The parameters that a change declares for a class are those of its declarations.

**Proof sketch.** One case for each change. Where a class is added and the class in question is the
one, nothing has been declared for it before, so its first parameter gets the first identifier. -/
lemma Change.declaredFor_declares (change : Change) (hs : h.size ≤ ClassId.limit)
    (hds : h.Recorded ds) (hxs : declaredFor c ds = ParamDecl.params [] xs)
    (made : change.edit h = .ok ((), h')) :
    declaredFor c (change.declares h) = ParamDecl.params xs (change.paramDecls h c) := by
  -- a change that adds a class adds the one at the end
  have hnew : ∀ {name : String} {b : ClassId} {h₁ : Hierarchy}, Edit.alloc name h = .ok (b, h₁) →
      (ClassId.ofIndex h.size).index = h.size := fun halloc =>
    ClassId.index_ofIndex (Edit.alloc_eq_ok_iff.1 halloc).1
  cases change with
  | alloc | setAbstract | addBase | setAncestors | extend => rfl
  | newParam b name =>
    obtain ⟨⟨v, h₁⟩, hok, -⟩ := bind_eq_ok_iff.1 made
    obtain ⟨d, hd, -⟩ := Edit.newParam_eq_ok_iff.1 hok
    rw [declares, hd, paramDecls, declaredFor_singleton]
    by_cases hb : b = c
    · subst hb
      have hreflects : TypeParam.Reflects d.params (ParamDecl.params [] xs) := by
        rw [← Hierarchy.paramsOf_eq hd, ← hxs]
        exact hds b
      rw [if_pos rfl, if_pos rfl, ParamDecl.params, ParamDecl.nextParamId_eq hreflects]
      rfl
    · rw [if_neg hb, if_neg hb]
      rfl
  | declareParam b p =>
    rw [declares, paramDecls, declaredFor_singleton]
    by_cases hb : b = c
    · rw [if_pos hb, if_pos hb]
      rfl
    · rw [if_neg hb, if_neg hb]
      rfl
  | defineGeneric name names =>
    obtain ⟨⟨b, h₁⟩, hok, -⟩ := bind_eq_ok_iff.1 made
    obtain ⟨⟨b, h₂⟩, halloc, -⟩ := bind_eq_ok_iff.1 hok
    rw [declares, paramDecls, declaredFor_map]
    by_cases hc : ClassId.ofIndex h.size = c
    · have hindex : h.size ≤ c.index := Nat.le_of_eq (hc ▸ (hnew halloc).symm)
      obtain rfl := eq_nil_of_size_le hds hxs hindex
      rw [if_pos hc, if_pos hc]
      exact ParamDecl.newParams_eq TypeParam.reflects_nil names
    · rw [if_neg hc, if_neg hc]
      rfl
  | defineWithIds name params =>
    rw [declares, paramDecls, declaredFor_map]
    by_cases hc : ClassId.ofIndex h.size = c
    · rw [if_pos hc, if_pos hc, ParamDecl.params_map_given]
    · rw [if_neg hc, if_neg hc]
      rfl
  | ladder height =>
    obtain ⟨⟨l, h₁⟩, hok, hmade⟩ := bind_eq_ok_iff.1 made
    obtain ⟨-, rfl⟩ := Prod.mk.inj (Except.ok.inj hmade)
    have hsize : h₁.size = h.size + (3 * height + 1) := (Edit.makes_ladder height h l h₁ hok).1
    have hlimit : h₁.size ≤ ClassId.limit :=
      Hierarchy.invariant_size_le.edit (.ladder height) h () h₁ hs made
    rw [declares, paramDecls, declaredFor_range' _ _ (hsize ▸ hlimit)]
    by_cases hc : h.size ≤ c.index ∧ c.index < h.size + (3 * height + 1)
    · obtain rfl := eq_nil_of_size_le hds hxs hc.1
      rw [if_pos hc, if_pos hc]
      decide
    · rw [if_neg hc, if_neg hc]
      rfl

end Histories

namespace Chronicle

/-- The parameters that changes declare for a class, from any chronicle on, are those of the
declarations before and of their own.

**Proof sketch.** Induction on the changes, with the chronicle generalized. Each change that
succeeds leaves a hierarchy that has no more classes than identifiers and records what was
declared. -/
private lemma declaredFor_foldl (c : ClassId) (changes : List Change) {s : Chronicle}
    {xs : List ParamDecl} (hs : s.hierarchy.size ≤ ClassId.limit)
    (hds : s.hierarchy.Recorded s.declared)
    (hxs : declaredFor c s.declared = ParamDecl.params [] xs) :
    declaredFor c (changes.foldl step s).declared =
      ParamDecl.params [] (xs ++ s.hierarchy.paramDecls c changes) := by
  induction changes generalizing s xs with
  | nil =>
    rw [Hierarchy.paramDecls, List.append_nil]
    exact hxs
  | cons change changes ih =>
    rw [List.foldl_cons, step, Hierarchy.paramDecls]
    cases made : change.edit s.hierarchy with
    | error f => exact ih hs hds hxs
    | ok result =>
      rw [← List.append_assoc]
      refine ih (Hierarchy.invariant_size_le.edit change _ _ _ hs made) (change.makes hds made) ?_
      rw [declaredFor_append, hxs, change.declaredFor_declares hs hds hxs made,
        ParamDecl.params_append]
      rfl

/-- The parameters that a program declares for a class are those of its declarations, with the
identifiers that they get when they are made. -/
theorem declaredFor_run (c : ClassId) (changes : List Change) :
    declaredFor c (run changes).declared =
      ParamDecl.params [] (Hierarchy.initial.paramDecls c changes) :=
  @declaredFor_foldl c changes start [] (by decide) Hierarchy.recorded_initial rfl

end Chronicle

/-! ## Classes that are added with type parameters -/

/-- One more declaration after another is reflected once they are made. -/
lemma TypeParam.Reflects.declareParams {d : ClassDef} {declared : List TypeParam}
    (hd : Reflects d.params declared) (ps : List TypeParam) :
    Reflects (d.declareParams ps).params (declared ++ ps) := by
  induction ps generalizing d declared with
  | nil => rwa [List.append_nil]
  | cons p ps ih =>
    rw [List.append_cons]
    exact ih (hd.declareParam p)

namespace ClassDef

/-- The numbers that the type parameters of a class get for a list of names. They are told from the
names alone, also where names are repeated. -/
structure NumberedBy (d : ClassDef) (names : List String) : Prop where
  /-- There is a parameter for every name, in the order of first occurrences. -/
  order : d.params.map TypeParam.name = names.eraseDups
  /-- The number of a parameter counts the different names before the last occurrence of its name,
  and one more. -/
  number : ∀ p ∈ d.params, ∃ before after, names = before ++ p.name :: after ∧ p.name ∉ after ∧
    p.id.val.toInt = before.eraseDups.length + 1
  /-- All numbers are positions, counted from one, exactly if no name is repeated. -/
  inPlace_iff :
    (∀ (k : Nat) p, d.params[k]? = some p → p.id.val.toInt = k + 1) ↔ names.Nodup

variable {d : ClassDef} {names : List String}

/-- The number of a parameter depends on the names before the last occurrence of its name.

**Proof sketch.** The parameter is the one that was declared last under its name, with the next
identifier at that time. This is one more than the number of different names before, and there are
few enough of them for the sum not to wrap around. -/
private lemma exists_number
    (hd : TypeParam.Reflects d.params (ParamDecl.params [] (names.map .next)))
    (horder : d.params.map TypeParam.name = names.eraseDups) (hs : names.length < 2 ^ 31)
    {p : TypeParam} (hp : p ∈ d.params) :
    ∃ before after, names = before ++ p.name :: after ∧ p.name ∉ after ∧
      p.id.val.toInt = before.eraseDups.length + 1 := by
  have hn : p.name ∈ names.map id := by
    rw [List.map_id, ← List.mem_eraseDups, ← horder]
    exact List.mem_map_of_mem hp
  obtain ⟨before, _, after, rfl, rfl, hafter⟩ := exists_last hn
  rw [List.map_id] at hafter
  refine ⟨before, after, rfl, hafter, ?_⟩
  rw [List.map_append, List.map_cons] at hd
  have hparam := ParamDecl.eq_param hd hp rfl (by rwa [ParamDecl.map_name_next])
  have hle := length_eraseDups_le before
  rw [List.length_append, List.length_cons] at hs
  rw [hparam, ParamDecl.param, ParamDecl.count, ParamDecl.map_name_next]
  exact ParamDecl.toInt_succ (by omega)

/-- If numbers count the names before the last occurrences, they are positions exactly if no name is
repeated.

**Proof sketch.** By `getElem?_eraseDups_iff` a number is a position exactly if the name does not
occur before its last occurrence, and so exactly if it occurs once. -/
private lemma inPlace_iff_nodup (horder : d.params.map TypeParam.name = names.eraseDups)
    (hdistinct : (d.params.map TypeParam.name).Nodup)
    (hnumber : ∀ p ∈ d.params, ∃ before after, names = before ++ p.name :: after ∧
      p.name ∉ after ∧ p.id.val.toInt = before.eraseDups.length + 1) :
    (∀ (k : Nat) p, d.params[k]? = some p → p.id.val.toInt = k + 1) ↔ names.Nodup := by
  -- a number is a position exactly if its name does not occur before its last occurrence
  have hplace : ∀ k p before after, d.params[k]? = some p → names = before ++ p.name :: after →
      (k = before.eraseDups.length ↔ p.name ∉ before) := by
    rintro k p before after hp rfl
    refine getElem?_eraseDups_iff (horder ▸ hdistinct) ?_
    rw [← horder, List.getElem?_map, hp, Option.map_some]
  constructor
  · intro hall
    refine List.nodup_iff_count_le_one.2 fun n => ?_
    by_cases hn : n ∈ names
    · rw [← List.mem_eraseDups, ← horder] at hn
      obtain ⟨p, hp, rfl⟩ := List.mem_map.1 hn
      obtain ⟨k, hk⟩ := List.mem_iff_getElem?.1 hp
      obtain ⟨before, after, hsplit, hafter, hid⟩ := hnumber p hp
      have hbefore : p.name ∉ before := by
        refine (hplace k p before after hk hsplit).1 ?_
        have := hall k p hk
        omega
      rw [hsplit, List.count_append, List.count_cons_self, List.count_eq_zero_of_not_mem hbefore,
        List.count_eq_zero_of_not_mem hafter]
    · rw [List.count_eq_zero_of_not_mem hn]
      exact Nat.zero_le 1
  · intro hnodup k p hk
    obtain ⟨before, after, hsplit, -, hid⟩ := hnumber p (List.mem_of_getElem? hk)
    have hbefore : p.name ∉ before := by
      rw [hsplit] at hnodup
      exact fun hmem => (List.nodup_append.1 hnodup).2.2 _ hmem _ List.mem_cons_self rfl
    rw [hid, ← (hplace k p before after hk hsplit).2 hbefore]

/-- A class that is added with type parameters is numbered by their names.

**Proof sketch.** The type parameters of the class reflect the declarations of its names, since it
had none before. So they are the names without repetitions, in order, and each has the number that
the last declaration of its name gave it. -/
lemma numberedBy_newParams (name : String) (c : ClassId) (hs : names.length < 2 ^ 31) :
    ((fresh name c).declareParams ((fresh name c).newParams names)).NumberedBy names := by
  have hd : TypeParam.Reflects
      ((fresh name c).declareParams ((fresh name c).newParams names)).params
      (ParamDecl.params [] (names.map .next)) := by
    have hnil : TypeParam.Reflects (fresh name c).params [] := TypeParam.reflects_nil
    have hparams : (fresh name c).newParams names = ParamDecl.params [] (names.map .next) :=
      ParamDecl.newParams_eq TypeParam.reflects_nil names
    rw [← hparams]
    exact hnil.declareParams _
  generalize (fresh name c).declareParams ((fresh name c).newParams names) = d at hd
  have horder : d.params.map TypeParam.name = names.eraseDups := by
    rw [hd.order, ParamDecl.map_name_params, ParamDecl.map_name_next]
  have hnumber : ∀ p ∈ d.params, _ := fun p hp => exists_number hd horder hs hp
  exact ⟨horder, hnumber, inPlace_iff_nodup horder hd.distinct hnumber⟩

/-- Where all numbers are positions, they differ and are positive.

**Proof sketch.** Two type parameters of the same number would have the same position. A number that
is a position counted from one is positive. -/
private lemma nodup_and_positive
    (hd : ∀ (k : Nat) p, d.params[k]? = some p → p.id.val.toInt = k + 1) :
    (d.params.map TypeParam.id).Nodup ∧ ∀ p ∈ d.params, p.id.isClassParameter = true := by
  constructor
  · refine List.pairwise_iff_getElem.2 fun i j hi hj hlt heq => ?_
    rw [List.length_map] at hi hj
    have hids := congrArg (fun v => v.val.toInt) heq
    simp only [List.getElem_map] at hids
    rw [hd i _ (List.getElem?_eq_getElem hi), hd j _ (List.getElem?_eq_getElem hj)] at hids
    omega
  · intro p hp
    obtain ⟨k, hk⟩ := List.mem_iff_getElem?.1 hp
    rw [VarId.isClassParameter_iff, hd k p hk]
    omega

end ClassDef

/-- An error about a type parameter does not blame a class whose type parameters have different,
positive identifiers. -/
private lemma Hierarchy.not_blames_of_nodup {h : Hierarchy} {c : ClassId} {d : ClassDef}
    {name paramName : String} {v : VarId} (hnodup : (d.params.map TypeParam.id).Nodup)
    (hpositive : ∀ p ∈ d.params, p.id.isClassParameter = true) :
    ¬h.Blames c d (.invalidTypeParameter name paramName v) := by
  rintro ⟨-, before, after, hparams, hinvalid⟩
  rw [hparams] at hnodup hpositive
  rcases hinvalid with hnegative | hseen
  · cases hnegative.symm.trans (hpositive ⟨paramName, v⟩ (by simp))
  · rw [List.map_append, List.map_cons] at hnodup
    exact (List.nodup_append.1 hnodup).2.2 _ hseen _ List.mem_cons_self rfl

/-- As long as a class has these type parameters, every error about type parameters in a reachable
hierarchy is the fault of another class. -/
def Hierarchy.FaultlessParams (c : ClassId) (ps : List TypeParam) : Prop :=
  ∀ (h : Hierarchy) (d : ClassDef), h.Reachable → h.find? c = some d → d.params = ps →
    ∀ policy name paramName v,
      (SlotTable.build h policy).result = .error (.error (.invalidTypeParameter name paramName v)) →
      ∃ b e, b ≠ c ∧ h.find? b = some e ∧ h.Blames b e (.invalidTypeParameter name paramName v)

/-- A reachable hierarchy that is refused has a class to blame. It is below the limit of
identifiers, as nothing is refused at the limit. -/
private lemma Hierarchy.Reachable.exists_blames {h : Hierarchy} (hr : h.Reachable)
    {policy : SlotPolicy} {e : SlotError}
    (he : (SlotTable.build h policy).result = .error (.error e)) :
    ∃ c d, h.find? c = some d ∧ h.Blames c d e := by
  have hs : h.size < ClassId.limit := by
    refine Nat.lt_of_le_of_ne hr.size_le fun heq => ?_
    cases (SlotTable.build_of_size_eq_limit heq policy).symm.trans he
  obtain ⟨e', heq, hdefect⟩ := SlotTable.failsByDefect_build hs _ he
  obtain rfl := Failure.error.inj heq
  exact hdefect.exists_blames hr.selfFirst

/-- Different, positive identifiers are no fault. -/
private lemma Hierarchy.faultlessParams_of_nodup (c : ClassId) {ps : List TypeParam}
    (hnodup : (ps.map TypeParam.id).Nodup) (hpositive : ∀ p ∈ ps, p.id.isClassParameter = true) :
    FaultlessParams c ps := by
  rintro h d hr hd rfl policy name paramName v he
  obtain ⟨b, e, hb, hblames⟩ := hr.exists_blames he
  refine ⟨b, e, ?_, hb, hblames⟩
  rintro rfl
  obtain rfl := Option.some.inj (hd.symm.trans hb)
  exact not_blames_of_nodup hnodup hpositive hblames

/-! ## The law -/

namespace Chronicle

/-- Whatever changes a program makes, the next type parameter of a class gets the number of type
parameters there are, plus one. Another parameter has this number already exactly if the last
declaration of its name left it in use. A class that is added with type parameters numbers them by
counting the names before, so their numbers are positions exactly if no name is repeated. They then
differ, and as long as the type parameters stay as they are, every error about type parameters is
the fault of another class.

**Proof sketch.** By `declaredFor_run` the hierarchy reflects the declarations that the changes make
for the class, so `id_eq_nextParamId_iff` says when the next identifier is in use. The class that is
added is numbered by `numberedBy_newParams`, and where no name is repeated its numbers are
positions. -/
theorem numbering (changes : List Change) :
    let h := (run changes).hierarchy
    (∀ c d name, h.find? c = some d → d.arity + 1 < 2 ^ 31 →
      ∃ v h', Edit.newParam c name h = .ok (v, h') ∧ v.isClassParameter = true ∧
        v.val.toInt = d.arity + 1 ∧ ∀ q ∈ d.params, q.id = v ↔
          ParamDecl.Occupied (Hierarchy.initial.paramDecls c changes) q.name v) ∧
    ∀ name names, h.size < ClassId.limit → names.length < 2 ^ 31 →
      ∃ c h' d, Edit.defineGeneric name names h = .ok (c, h') ∧ h'.find? c = some d ∧
        d.NumberedBy names ∧ (names.Nodup → (d.params.map TypeParam.id).Nodup ∧
          Hierarchy.FaultlessParams c d.params) := by
  intro h
  constructor
  · intro c d name hd hs
    obtain ⟨h', hok, -⟩ := Edit.exists_newParam hd name
    have hreflects : TypeParam.Reflects d.params
        (ParamDecl.params [] (Hierarchy.initial.paramDecls c changes)) := by
      rw [← Hierarchy.paramsOf_eq hd, ← declaredFor_run]
      exact recorded_run changes c
    have hint : d.nextParamId.val.toInt = d.arity + 1 := ParamDecl.toInt_succ hs
    refine ⟨_, h', hok, VarId.isClassParameter_iff.2 (by omega), hint, fun q hq => ?_⟩
    exact ParamDecl.id_eq_nextParamId_iff hreflects hs hq
  · intro name names hs hlen
    obtain ⟨h', hok, hh⟩ := Edit.exists_defineGeneric hs name names
    have hnumbered := ClassDef.numberedBy_newParams name (.ofIndex h.size) hlen
    refine ⟨_, h', _, hok, hh.self, hnumbered, fun hnodup => ?_⟩
    obtain ⟨hids, hpositive⟩ := ClassDef.nodup_and_positive (hnumbered.inPlace_iff.2 hnodup)
    exact ⟨hids, Hierarchy.faultlessParams_of_nodup _ hids hpositive⟩

/-- A third parameter of a class with two gets the number 3, which no parameter has. A class that is
added with two names is numbered in order. -/
theorem numbering_map :
    let changes : List Change := [.defineGeneric "Map" ["K", "V"]]
    let h := (run changes).hierarchy
    (∃ d, h.find? ⟨1⟩ = some d ∧ d.arity + 1 < 2 ^ 31 ∧
      ∃ v h', Edit.newParam ⟨1⟩ "W" h = .ok (v, h') ∧ v.isClassParameter = true ∧
        v.val.toInt = d.arity + 1 ∧ ∀ q ∈ d.params, q.id = v ↔
          ParamDecl.Occupied (Hierarchy.initial.paramDecls ⟨1⟩ changes) q.name v) ∧
    h.size < ClassId.limit ∧ ["S", "T"].length < 2 ^ 31 ∧
      ∃ c h' d, Edit.defineGeneric "Pair" ["S", "T"] h = .ok (c, h') ∧ h'.find? c = some d ∧
        d.NumberedBy ["S", "T"] ∧ (["S", "T"].Nodup → (d.params.map TypeParam.id).Nodup ∧
          Hierarchy.FaultlessParams c d.params) := by
  intro changes h
  have hd : h.find? ⟨1⟩ = some ⟨"Map", false, [⟨"K", ⟨1⟩⟩, ⟨"V", ⟨2⟩⟩], [], [⟨1⟩]⟩ := by decide
  have hs : h.size < ClassId.limit := by decide
  exact ⟨⟨_, hd, by decide, (numbering changes).1 _ _ "W" hd (by decide)⟩, hs, by decide,
    (numbering changes).2 "Pair" ["S", "T"] hs (by decide)⟩

/-- Where a name is repeated, the next number may be in use under another name, the numbers of a
class may be the same, and the class is refused for it.

**Proof sketch.** Three names, the last of which repeats the first, leave the number three with the
first type parameter, and it is the next number too. Two names that are both repeated end up with
the same number, which validation refuses. -/
theorem not_numbering_repeated :
    (¬∀ changes c d name v h', (run changes).hierarchy.find? c = some d →
      Edit.newParam c name (run changes).hierarchy = .ok (v, h') →
      v.isClassParameter = true ∧ ∀ q ∈ d.params, q.name ≠ name → q.id ≠ v) ∧
    (¬∀ name names c h' d, Edit.defineGeneric name names .initial = .ok (c, h') →
      h'.find? c = some d → (d.params.map TypeParam.id).Nodup) ∧
    ∀ policy, (SlotTable.build (run [.defineGeneric "Map" ["K", "V", "K", "V"]]).hierarchy
      policy).result = .error (.error (.invalidTypeParameter "Map" "V" ⟨3⟩)) := by
  refine ⟨fun hall => ?_, fun hall => ?_, fun policy => ?_⟩
  · have hd : (run [.defineGeneric "Map" ["K", "V", "K"]]).hierarchy.find? ⟨1⟩ =
        some ⟨"Map", false, [⟨"K", ⟨3⟩⟩, ⟨"V", ⟨2⟩⟩], [], [⟨1⟩]⟩ := by decide
    exact (hall _ _ _ "V" ⟨3⟩ _ hd rfl).2 ⟨"K", ⟨3⟩⟩ (by decide) (by decide) rfl
  · exact absurd (hall "Map" ["K", "V", "K", "V"] ⟨1⟩ _
      ⟨"Map", false, [⟨"K", ⟨3⟩⟩, ⟨"V", ⟨3⟩⟩], [], [⟨1⟩]⟩ rfl (by decide)) (by decide)
  · cases policy <;> decide +kernel

end Chronicle

end GenericSlots
