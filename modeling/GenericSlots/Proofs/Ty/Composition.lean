import GenericSlots.Proofs.Ty.Expansion
set_option autoImplicit false

/-!
# Composing substitutions

Expanding by a substitution and then by another is expanding once. What the first assigns is itself
expanded by the second, and a variable that the first leaves alone goes to the second. The first may
assign types that mention the variables it replaces, as a swap of two variables does, so this holds
only because all variables are replaced at once.

## Main definitions

* `GenericSlots.Subst.Composes`: what a substitution assigns that stands for two in a row.
* `GenericSlots.Subst.andThen`: such a substitution.

## Main results

* `GenericSlots.Subst.Composes.image_eq`: the types of the composite are those that the first
  assigns, expanded by the second.
* `GenericSlots.Subst.composition_law`: composites exist, expanding by any of them is expanding
  twice, and no variable that an expansion brings in is replaced by it.
-/

namespace GenericSlots

namespace Subst

variable {s r q : Subst} {v : VarId}

/-! ## Composites -/

/-- A substitution assigns what expanding by `s` and then by `r` makes of a variable. The two fields
determine what it assigns to each variable, so any two composites assign the same. -/
structure Composes (s r q : Subst) : Prop where
  /-- What `s` assigns is expanded by `r`. -/
  assigned : ∀ {v : VarId} {t : Ty}, s.get? v = some t → q.get? v = some (t.expand r)
  /-- To the other variables the composite assigns what `r` does, if anything. -/
  passed : ∀ {v : VarId}, s.get? v = none → q.get? v = r.get? v

/-- A variable stands for what `s` makes of it, expanded by `r`. For a variable that `s` leaves
alone this is what `r` makes of it. -/
theorem Composes.image_eq (hq : s.Composes r q) (v : VarId) :
    (s.image v).expand r = q.image v := by
  cases hs : s.get? v with
  | none =>
    rw [image_of_get?_eq_none hs, Ty.expand_var, image, image, hq.passed hs]
  | some t =>
    rw [image_of_get?_eq_some hs, image_of_get?_eq_some (hq.assigned hs)]

/-- Changing the types of a list of pairs changes what is looked up likewise. -/
private lemma lookup_map_snd (f : Ty → Ty) (ps : List (VarId × Ty)) (v : VarId) :
    (ps.map (Prod.map id f)).lookup v = (ps.lookup v).map f := by
  induction ps with
  | nil => rfl
  | cons p ps ih =>
    rw [List.map_cons, List.lookup_cons, List.lookup_cons, Prod.map_fst, id]
    cases v == p.1 with
    | true => rfl
    | false => exact ih

/-- If no variable is assigned twice in a row of assignments, each of them counts.

**Proof sketch.** By induction on the assignments. The type that is assigned first stays, because
none of the others assigns the same variable. For another variable the first assignment does not
count. -/
lemma get?_assignAll {ps : List (VarId × Ty)} (hps : (ps.map Prod.fst).Nodup) :
    (s.assignAll ps).get? v = (ps.lookup v).or (s.get? v) := by
  induction ps generalizing s with
  | nil => rfl
  | cons p ps ih =>
    obtain ⟨hnot, hps⟩ := List.nodup_cons.1 hps
    rw [assignAll_cons]
    by_cases hv : v = p.1
    · rw [hv, get?_assignAll_of_notMem hnot, get?_assign, if_pos rfl, List.lookup_cons_self,
        Option.some_or]
    · have hne : (v == p.1) = false := by simpa using hv
      rw [ih hps, get?_assign, if_neg hv, List.lookup_cons, hne]

/-- Assigns what expanding by `s` and then by `r` makes of the variables that either assigns. The
assignments of `s` come last, so they override those of `r`. -/
def andThen (s r : Subst) : Subst :=
  r.assignAll (s.pairs.map (Prod.map id (Ty.expand r)))

/-- What is assigned is what `s` assigns, expanded by `r`, or else what `r` assigns. -/
lemma get?_andThen (s r : Subst) (v : VarId) :
    (s.andThen r).get? v = ((s.get? v).map (Ty.expand r)).or (r.get? v) := by
  have hkeys : ((s.pairs.map (Prod.map id (Ty.expand r))).map Prod.fst).Nodup := by
    rw [List.map_map]
    exact s.nodup
  rw [andThen, get?_assignAll hkeys, lookup_map_snd, ← get?]

/-- The substitution is a composite, so composites exist. -/
lemma composes_andThen (s r : Subst) : s.Composes r (s.andThen r) where
  assigned hs := by rw [get?_andThen, hs, Option.map_some, Option.some_or]
  passed hs := by rw [get?_andThen, hs, Option.map_none, Option.none_or]

/-! ## The law -/

/-- Expansion is simultaneous, and it composes. For every two substitutions there is one that
assigns to each variable of the first the type assigned there, expanded by the second, and to each
other variable what the second assigns. Expanding types and instances by any such substitution is
expanding them by the first and then by the second. The variables of an expanded type or instance
are those of the types that its own variables stand for, in their order, so a variable that the
substitution brings in is not replaced.

**Proof sketch.** A composite is given by `andThen`. For any composite, each variable stands for
what it becomes after both expansions, so the laws of expansion apply to types and to instances. The
variables are given by `Ty.vars_expand`, and those of an instance are those of its type. -/
theorem composition_law (s r : Subst) :
    (∃ q, s.Composes r q) ∧
      (∀ q, s.Composes r q →
        (∀ t : Ty, (t.expand s).expand r = t.expand q) ∧
          ∀ i : Instance, (i.expand s).expand r = i.expand q) ∧
      (∀ t : Ty, (t.expand s).vars = t.vars.flatMap fun v => (s.image v).vars) ∧
      ∀ i : Instance, (i.expand s).vars = i.vars.flatMap fun v => (s.image v).vars := by
  refine ⟨⟨_, composes_andThen s r⟩, fun q hq => ⟨fun t => ?_, fun i => ?_⟩, Ty.vars_expand s,
    fun i => ?_⟩
  · exact Ty.expand_expand fun v _ => hq.image_eq v
  · exact Instance.expand_expand fun v _ => hq.image_eq v
  · rw [← Instance.vars_toTy, Instance.toTy_expand, Ty.vars_expand, Instance.vars_toTy]

/-- A parameter is replaced by a type that mentions another, which in turn is replaced by the first.
Neither variable that comes in this way is replaced again, and what is left of the second one is
then replaced. -/
theorem composition_law_swap :
    let x : VarId := ⟨1⟩
    let y : VarId := ⟨2⟩
    let s : Subst := .ofLists [x, y] [.inst ⟨7⟩ [.var y], .var x]
    let r : Subst := .ofLists [y] [.any]
    let t : Ty := .callable [⟨.rest, none, .var x⟩] (.inst ⟨8⟩ [.var y]) false
    s.Composes r (s.andThen r) ∧ (t.expand s).expand r = t.expand (s.andThen r) ∧
      t.expand (s.andThen r) =
        .callable [⟨.rest, none, .inst ⟨7⟩ [.any]⟩] (.inst ⟨8⟩ [.var x]) false := by
  intro x y s r t
  have hq : s.Composes r (s.andThen r) := composes_andThen s r
  exact ⟨hq, ((composition_law s r).2.1 _ hq).1 t, by decide⟩

end Subst

end GenericSlots
