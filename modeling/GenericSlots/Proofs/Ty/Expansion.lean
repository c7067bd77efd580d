import GenericSlots.Hierarchy.Basic
import Mathlib.Data.List.Basic
set_option autoImplicit false

/-!
# Laws of expansion

What a type becomes when it is expanded depends on its variables only, and expanding twice is
expanding once by what the variables become. So arguments may be expanded before or after a declared
base is projected onto, as long as the variables stay that the base mentions but its class does not
declare.

## Main results

* `GenericSlots.Subst.get?_ofLists`: the type that an assignment by position gives to a variable.
* `GenericSlots.Ty.expand_expand`, `GenericSlots.Instance.expand_expand`: expanding twice is
  expanding once.
* `GenericSlots.Ty.vars_expand`: the variables of an expanded type.
* `GenericSlots.ClassDef.map_expand_selfArgs`: type parameters expand to the arguments given to
  them.
* `GenericSlots.ClassDef.expand_assignArgs_map`: arguments may be expanded before or after a base is
  projected onto.
-/

namespace GenericSlots

/-! ## Assignments by position -/

namespace Subst

variable {s : Subst} {vs : List VarId} {ts : List Ty} {v : VarId} {t : Ty}

/-- A variable that is assigned a type stands for this type. -/
lemma image_of_get?_eq_some (h : s.get? v = some t) : s.image v = t := by
  rw [image, h, Option.getD_some]

/-- A variable that is not assigned stands for itself. -/
lemma image_of_get?_eq_none (h : s.get? v = none) : s.image v = .var v := by
  rw [image, h, Option.getD_none]

/-- Assignments to other variables do not change what a variable stands for. -/
lemma get?_assignAll_of_notMem {ps : List (VarId × Ty)} (hv : v ∉ ps.map Prod.fst) :
    (s.assignAll ps).get? v = s.get? v := by
  induction ps generalizing s with
  | nil => rfl
  | cons p ps ih =>
    rw [List.map_cons, List.mem_cons, not_or] at hv
    rw [assignAll_cons, ih hv.2, get?_assign, if_neg hv.1]

/-- Pairing variables with types brings in no other variables. -/
private lemma notMem_map_fst_zip (hv : v ∉ vs) : v ∉ (vs.zip ts).map Prod.fst := by
  intro h
  obtain ⟨p, hp, rfl⟩ := List.mem_map.1 h
  exact hv (List.of_mem_zip hp).1

/-- Assigning variables to themselves leaves every variable to stand for itself, in whatever order
and however often this is done.

**Proof sketch.** By induction on the assignments, with those before kept general. After one more
assignment of a variable to itself, every variable still stands for itself. -/
lemma image_assignAll_self {ps : List (VarId × Ty)} (hps : ∀ p ∈ ps, p.2 = .var p.1)
    (hs : ∀ v, s.image v = .var v) (v : VarId) : (s.assignAll ps).image v = .var v := by
  induction ps generalizing s with
  | nil => exact hs v
  | cons p ps ih =>
    rw [assignAll_cons]
    refine ih (fun q hq => hps q (List.mem_cons_of_mem _ hq)) fun w => ?_
    rw [image, get?_assign]
    by_cases hw : w = p.1
    · rw [if_pos hw, Option.getD_some, hps p List.mem_cons_self, hw]
    · rw [if_neg hw]
      exact hs w

/-- A variable that is not among those assigned by position is not assigned. -/
lemma get?_ofLists_of_notMem (hv : v ∉ vs) : (ofLists vs ts).get? v = none :=
  get?_assignAll_of_notMem (notMem_map_fst_zip hv)

/-- Variables that differ from each other get the types at their positions.

**Proof sketch.** By induction on the variables, with the assignments before kept general. The first
one is assigned the first type, and the others, which differ from it, do not change this. A later
one is found among the rest. -/
private lemma get?_assignAll_zip (hvs : vs.Nodup) {k : Nat} (hv : vs[k]? = some v)
    (ht : ts[k]? = some t) : (s.assignAll (vs.zip ts)).get? v = some t := by
  induction vs generalizing s ts k with
  | nil => cases hv
  | cons w vs ih =>
    obtain ⟨hnot, hvs⟩ := List.nodup_cons.1 hvs
    cases ts with
    | nil => cases ht
    | cons u ts =>
      rw [List.zip_cons_cons, assignAll_cons]
      cases k with
      | zero =>
        obtain rfl : w = v := Option.some.inj hv
        obtain rfl : u = t := Option.some.inj ht
        rw [get?_assignAll_of_notMem (notMem_map_fst_zip hnot), get?_assign, if_pos rfl]
      | succ k => exact ih hvs hv ht

/-- An assignment by position gives each variable the type at its position, if no variable occurs
twice. Otherwise the last of its positions would count. -/
theorem get?_ofLists (hvs : vs.Nodup) {k : Nat} (hv : vs[k]? = some v) (ht : ts[k]? = some t) :
    (ofLists vs ts).get? v = some t :=
  get?_assignAll_zip hvs hv ht

/-- A variable that is assigned at least once is assigned in the end. Which of its types it has
depends on the order.

**Proof sketch.** By induction on the assignments. If the variable is assigned again later, the
induction hypothesis applies. If not, the first assignment counts. -/
private lemma isSome_get?_assignAll {ps : List (VarId × Ty)} (hv : v ∈ ps.map Prod.fst) :
    ((s.assignAll ps).get? v).isSome := by
  induction ps generalizing s with
  | nil => cases hv
  | cons p ps ih =>
    rw [assignAll_cons]
    by_cases hmem : v ∈ ps.map Prod.fst
    · exact ih hmem
    · rw [List.map_cons, List.mem_cons] at hv
      rw [get?_assignAll_of_notMem hmem, get?_assign, if_pos (hv.resolve_right hmem)]
      rfl

/-- An assignment by position gives each variable some type, if there are enough types. -/
lemma isSome_get?_ofLists (hv : v ∈ vs) (hlen : vs.length ≤ ts.length) :
    ((ofLists vs ts).get? v).isSome := by
  refine isSome_get?_assignAll ?_
  rwa [List.map_fst_zip hlen]

/-- A type that is assigned in the end was assigned before or is among those assigned.

**Proof sketch.** By induction on the assignments. After the first one the type is one assigned
before, the one assigned by it, or one of the rest. -/
private lemma get?_assignAll_eq_some {ps : List (VarId × Ty)}
    (h : (s.assignAll ps).get? v = some t) : s.get? v = some t ∨ (v, t) ∈ ps := by
  induction ps generalizing s with
  | nil => exact Or.inl h
  | cons p ps ih =>
    rw [assignAll_cons] at h
    rcases ih h with h | hmem
    · rw [get?_assign] at h
      by_cases hv : v = p.1
      · rw [if_pos hv] at h
        obtain rfl := Option.some.inj h
        exact Or.inr (hv ▸ List.mem_cons_self)
      · exact Or.inl (by rwa [if_neg hv] at h)
    · exact Or.inr (List.mem_cons_of_mem _ hmem)

/-- An assignment by position gives no types but those of the list. -/
lemma mem_of_get?_ofLists (h : (ofLists vs ts).get? v = some t) : t ∈ ts := by
  rcases get?_assignAll_eq_some h with h | hmem
  · cases h
  · exact (List.of_mem_zip hmem).2

/-- Changing all types that are assigned changes what is looked up likewise, if this was so before.

**Proof sketch.** By induction on the assignments. One more assignment on both sides, of the type
and of the changed type, keeps the relation between the two. -/
private lemma get?_assignAll_map {f : Ty → Ty} {s' : Subst}
    (hs : ∀ v, s'.get? v = (s.get? v).map f) (ps : List (VarId × Ty)) (v : VarId) :
    (s'.assignAll (ps.map (Prod.map id f))).get? v = ((s.assignAll ps).get? v).map f := by
  induction ps generalizing s s' with
  | nil => exact hs v
  | cons p ps ih =>
    rw [List.map_cons, assignAll_cons, assignAll_cons]
    apply ih
    intro w
    rw [get?_assign, get?_assign, hs]
    by_cases hw : w = p.1 <;> simp [hw]

/-- If the types assigned by position change, what each variable stands for changes likewise. The
variables that are assigned stay the same. -/
lemma get?_ofLists_map (f : Ty → Ty) (vs : List VarId) (ts : List Ty) (v : VarId) :
    (ofLists vs (ts.map f)).get? v = ((ofLists vs ts).get? v).map f := by
  rw [ofLists, List.zip_map_right]
  exact get?_assignAll_map (fun _ => rfl) _ v

end Subst

/-! ## Expanding twice -/

/-- Expanding twice is expanding once by what the variables become. Only the variables of the type
count, so the two sides need not agree on others.

**Proof sketch.** By induction on the type. A variable is the hypothesis itself. Instances and
callables are expanded part by part, and the variables of a part are variables of the whole. -/
theorem Ty.expand_expand {s r q : Subst} {t : Ty}
    (h : ∀ v ∈ t.vars, (s.image v).expand r = q.image v) :
    (t.expand s).expand r = t.expand q := by
  induction t with
  | any | void | noneType | error => rfl
  | var v => exact h v (by simp)
  | inst c args ih =>
    rw [vars_inst] at h
    simp only [expand_inst, List.map_map, inst.injEq, true_and]
    apply List.map_congr_left
    intro t ht
    apply ih t ht
    intro v hv
    exact h v (List.mem_flatMap.2 ⟨t, ht, hv⟩)
  | callable arguments result isTypeObject iha ihr =>
    rw [vars_callable] at h
    have hresult : (result.expand s).expand r = result.expand q := by
      apply ihr
      intro v hv
      exact h v (List.mem_append_right _ hv)
    have harguments : ∀ a ∈ arguments, (a.type.expand s).expand r = a.type.expand q := by
      intro a ha
      apply iha a ha
      intro v hv
      exact h v (List.mem_append_left _ (List.mem_flatMap.2 ⟨a, ha, hv⟩))
    simp only [expand_callable, List.map_map, callable.injEq, and_true, hresult]
    apply List.map_congr_left
    intro a ha
    simp only [Function.comp_apply, Argument.map, harguments a ha]

/-- Expanding an instance twice is expanding it once by what the variables become. Its arguments are
expanded one by one. -/
theorem Instance.expand_expand {s r q : Subst} {i : Instance}
    (h : ∀ v ∈ i.vars, (s.image v).expand r = q.image v) :
    (i.expand s).expand r = i.expand q := by
  simp only [expand, List.map_map, mk.injEq, true_and]
  apply List.map_congr_left
  intro t ht
  apply Ty.expand_expand
  intro v hv
  exact h v (List.mem_flatMap.2 ⟨t, ht, hv⟩)

/-- A type stays as it is if all its variables stand for themselves.

**Proof sketch.** By induction on the type. All parts of an instance or a callable stay as they are,
so mapping over them changes nothing. -/
lemma Ty.expand_eq_self {s : Subst} {t : Ty} (h : ∀ v ∈ t.vars, s.image v = .var v) :
    t.expand s = t := by
  induction t with
  | any | void | noneType | error => rfl
  | var v => exact h v (by simp)
  | inst c args ih =>
    rw [vars_inst] at h
    simp only [expand_inst, inst.injEq, true_and]
    refine (List.map_congr_left fun t ht => ih t ht fun v hv => ?_).trans (List.map_id args)
    exact h v (List.mem_flatMap.2 ⟨t, ht, hv⟩)
  | callable arguments result isTypeObject iha ihr =>
    rw [vars_callable] at h
    have hresult : result.expand s = result := ihr fun v hv => h v (List.mem_append_right _ hv)
    have harguments : ∀ a ∈ arguments, a.type.expand s = a.type := by
      intro a ha
      refine iha a ha fun v hv => ?_
      exact h v (List.mem_append_left _ (List.mem_flatMap.2 ⟨a, ha, hv⟩))
    simp only [expand_callable, callable.injEq, and_true, hresult]
    refine (List.map_congr_left fun a ha => ?_).trans (List.map_id arguments)
    rw [Argument.map, harguments a ha]
    rfl

/-! ## Variables after expansion -/

/-- The variables of an expanded type are those of what its variables become, in their order. So a
variable that comes in with an assigned type stays, whatever is assigned to it.

**Proof sketch.** By induction on the type. For an instance or a callable, the variables are listed
part by part, and so are the variables of what these become. -/
theorem Ty.vars_expand (s : Subst) (t : Ty) :
    (t.expand s).vars = t.vars.flatMap fun v => (s.image v).vars := by
  induction t with
  | any | void | noneType | error => rfl
  | var v => simp
  | inst c args ih =>
    rw [expand_inst, vars_inst, vars_inst, List.flatMap_map, List.flatMap_assoc]
    exact List.flatMap_congr ih
  | callable arguments result isTypeObject iha ihr =>
    rw [expand_callable, vars_callable, vars_callable, List.flatMap_map, List.flatMap_append,
      List.flatMap_assoc, ihr]
    congr 1
    exact List.flatMap_congr iha

/-- The variables of an expanded type are those of what its variables become, without regard to
their order. -/
lemma Ty.mem_vars_expand {s : Subst} {t : Ty} {v : VarId} :
    v ∈ (t.expand s).vars ↔ ∃ w ∈ t.vars, v ∈ (s.image w).vars := by
  rw [vars_expand, List.mem_flatMap]

/-- The variables of the type of an instance are those of the instance. -/
@[simp] lemma Instance.vars_toTy (i : Instance) : i.toTy.vars = i.vars :=
  Ty.vars_inst i.cls i.args

/-- Expanding an instance expands the type of its values, so what holds of types may be used for
instances. -/
@[simp] lemma Instance.toTy_expand (s : Subst) (i : Instance) :
    (i.expand s).toTy = i.toTy.expand s :=
  (Ty.expand_inst s i.cls i.args).symm

/-! ## Arguments of a class -/

namespace ClassDef

variable {d : ClassDef} {args : List Ty}

/-- Within itself, a class has an argument for each type parameter. -/
lemma length_selfArgs (d : ClassDef) : d.selfArgs.length = d.arity :=
  List.length_map _

/-- A type parameter is assigned the argument at its position, if the identifiers of type parameters
differ. -/
lemma image_assignArgs (hd : (d.params.map TypeParam.id).Nodup) {k : Nat} {p : TypeParam}
    {t : Ty} (hp : d.params[k]? = some p) (ht : args[k]? = some t) :
    (d.assignArgs args).image p.id = t := by
  refine Subst.image_of_get?_eq_some (Subst.get?_ofLists hd (k := k) ?_ ht)
  rw [List.getElem?_map, hp, Option.map_some]

/-- The type parameters expand to the arguments given to them. So an instance is its class within
itself, expanded by the arguments of the instance. -/
theorem map_expand_selfArgs (hd : (d.params.map TypeParam.id).Nodup)
    (hlen : args.length = d.arity) :
    d.selfArgs.map (Ty.expand (d.assignArgs args)) = args := by
  apply List.ext_getElem
  · rw [List.length_map, length_selfArgs, hlen]
  · intro k hk hk'
    have hp : k < d.params.length := Nat.lt_of_lt_of_eq hk' hlen
    simp only [selfArgs, List.getElem_map, TypeParam.toTy, Ty.expand_var]
    exact image_assignArgs hd (List.getElem?_eq_getElem hp) (List.getElem?_eq_getElem hk')

/-- Seen from inside a class, every variable stands for itself, even if type parameters have the
same identifier. In that case the later assignment counts, and it assigns the same variable. -/
lemma image_assignArgs_selfArgs (d : ClassDef) (v : VarId) :
    (d.assignArgs d.selfArgs).image v = .var v := by
  refine Subst.image_assignAll_self ?_ (fun _ => rfl) v
  intro p hp
  rw [selfArgs, List.zip_map', List.mem_map] at hp
  obtain ⟨q, -, rfl⟩ := hp
  rfl

/-- An instance seen from inside its class stays as it is. -/
lemma expand_assignArgs_selfArgs (d : ClassDef) (i : Instance) :
    i.expand (d.assignArgs d.selfArgs) = i := by
  have hargs : i.args.map (Ty.expand (d.assignArgs d.selfArgs)) = i.args :=
    (List.map_congr_left fun _ _ => Ty.expand_eq_self fun v _ =>
      d.image_assignArgs_selfArgs v).trans (List.map_id _)
  rw [Instance.expand, hargs]

/-- A type parameter stands for one of the arguments, if there is one for each. -/
lemma image_assignArgs_mem (hlen : d.arity ≤ args.length) {v : VarId}
    (hv : v ∈ d.params.map TypeParam.id) : (d.assignArgs args).image v ∈ args := by
  obtain ⟨t, ht⟩ := Option.isSome_iff_exists.1
    (Subst.isSome_get?_ofLists hv (by simpa [arity] using hlen))
  rw [assignArgs, Subst.image_of_get?_eq_some ht]
  exact Subst.mem_of_get?_ofLists ht

/-- A variable that the class does not declare stands for itself. -/
lemma image_assignArgs_of_notMem {v : VarId} (hv : v ∉ d.params.map TypeParam.id) :
    (d.assignArgs args).image v = .var v :=
  Subst.image_of_get?_eq_none (Subst.get?_ofLists_of_notMem hv)

/-- What a type mentions once the arguments are in place is mentioned by an argument, or by the type
although the class does not declare it.

**Proof sketch.** The variable is one of what some variable of the type becomes. If this is a type
parameter, it becomes an argument. Otherwise it stands for itself. -/
lemma mem_vars_of_expand_assignArgs (hlen : d.arity ≤ args.length) {t : Ty} {v : VarId}
    (hv : v ∈ (t.expand (d.assignArgs args)).vars) :
    v ∈ args.flatMap Ty.vars ∨ v ∈ t.vars ∧ v ∉ d.params.map TypeParam.id := by
  obtain ⟨w, hw, hv⟩ := Ty.mem_vars_expand.1 hv
  by_cases hmem : w ∈ d.params.map TypeParam.id
  · exact Or.inl (List.mem_flatMap.2 ⟨_, image_assignArgs_mem hlen hmem, hv⟩)
  · rw [image_assignArgs_of_notMem hmem, Ty.vars_var, List.mem_singleton] at hv
    obtain rfl := hv
    exact Or.inr ⟨hw, hmem⟩

/-- Where a type parameter is passed to a base unchanged, the base gets its argument. -/
lemma getElem?_args_expand (hd : (d.params.map TypeParam.id).Nodup) {base : Instance} {j k : Nat}
    {p : TypeParam} {t : Ty} (hj : base.args[j]? = some (.var p.id)) (hp : d.params[k]? = some p)
    (ht : args[k]? = some t) : (base.expand (d.assignArgs args)).args[j]? = some t := by
  rw [Instance.args_expand, List.getElem?_map, hj, Option.map_some, Ty.expand_var,
    image_assignArgs hd hp ht]

/-- Arguments may be expanded before or after a base is projected onto, if the expansion leaves
alone the variables that the base mentions but the class does not declare.

**Proof sketch.** By `Instance.expand_expand` it is enough to look at each variable of the base. A
type parameter is assigned an argument, which is expanded on both sides. Any other variable stands
for itself and is left alone by assumption. -/
theorem expand_assignArgs_map {base : Instance} {r : Subst} (hlen : d.arity ≤ args.length)
    (hbase : ∀ v ∈ base.vars, v ∈ d.params.map TypeParam.id ∨ r.get? v = none) :
    base.expand (d.assignArgs (args.map (Ty.expand r))) =
      (base.expand (d.assignArgs args)).expand r := by
  symm
  apply Instance.expand_expand
  intro v hv
  have hmap := Subst.get?_ofLists_map (Ty.expand r) (d.params.map TypeParam.id) args v
  by_cases hmem : v ∈ d.params.map TypeParam.id
  · obtain ⟨t, ht⟩ := Option.isSome_iff_exists.1
      (Subst.isSome_get?_ofLists hmem (by simpa [arity] using hlen))
    rw [ht, Option.map_some] at hmap
    rw [assignArgs, assignArgs, Subst.image_of_get?_eq_some ht, Subst.image_of_get?_eq_some hmap]
  · have hnone : (Subst.ofLists (d.params.map TypeParam.id) args).get? v = none :=
      Subst.get?_ofLists_of_notMem hmem
    rw [hnone, Option.map_none] at hmap
    rw [assignArgs, assignArgs, Subst.image_of_get?_eq_none hnone, Subst.image_of_get?_eq_none hmap,
      Ty.expand_var, Subst.image_of_get?_eq_none ((hbase v hv).resolve_left hmem)]

end ClassDef

end GenericSlots
