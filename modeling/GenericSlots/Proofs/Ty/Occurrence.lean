import GenericSlots.Proofs.Failure
import GenericSlots.Proofs.Ty.Expansion
set_option autoImplicit false

/-!
# What an expansion tells about a type

Expanding a type depends on what its variables stand for, and it shows what they stand for: no part
of the type is left out, and no two parts are exchanged. So a type tells two substitutions apart
exactly if they differ on one of its variables. In particular, it stays as it is exactly if all its
variables stand for themselves, as they do inside the class that declares them.

## Main results

* `GenericSlots.Ty.expand_eq_expand_iff`: when two substitutions make the same of a type.
* `GenericSlots.Ty.expand_eq_self_iff`: when a type stays as it is.
* `GenericSlots.Ty.mem_vars_iff_exists_expand_ne`: the variables of a type are those that expansions
  depend on.
* `GenericSlots.Hierarchy.occurrence_law`: what the variables of a type determine, and are
  determined by.
-/

namespace GenericSlots

/-- Changing the type of an argument shows what it is changed to, and nothing else of the argument
changes. -/
lemma Argument.map_eq_map_iff {α β : Type} {f g : α → β} {a : Argument α} :
    a.map f = a.map g ↔ f a.type = g a.type := by
  simp [Argument.map]

namespace Ty

variable {s r : Subst} {t : Ty} {v : VarId}

/-! ## Comparing expansions -/

/-- Two substitutions make the same of a type exactly if each of its variables stands for the same
under both.

**Proof sketch.** Induction on the type. Instances and callables that come out equal are equal part
by part, and their variables are those of their parts. For a variable the two sides are the same
equation. -/
theorem expand_eq_expand_iff :
    t.expand s = t.expand r ↔ ∀ v ∈ t.vars, s.image v = r.image v := by
  induction t with
  | any | void | noneType | error => simp
  | var v => simp
  | inst c args ih =>
    calc (inst c args).expand s = (inst c args).expand r
        ↔ ∀ t ∈ args, t.expand s = t.expand r := by
          simp only [expand_inst, inst.injEq, true_and, List.map_inj_left]
      _ ↔ ∀ t ∈ args, ∀ v ∈ t.vars, s.image v = r.image v := forall₂_congr ih
      _ ↔ ∀ v ∈ (inst c args).vars, s.image v = r.image v := by
          rw [vars_inst, List.forall_mem_flatMap]
  | callable arguments result isTypeObject iha ihr =>
    calc (callable arguments result isTypeObject).expand s =
          (callable arguments result isTypeObject).expand r
        ↔ (∀ a ∈ arguments, a.type.expand s = a.type.expand r) ∧
            result.expand s = result.expand r := by
          simp only [expand_callable, callable.injEq, and_true, List.map_inj_left,
            Argument.map_eq_map_iff]
      _ ↔ (∀ a ∈ arguments, ∀ v ∈ a.type.vars, s.image v = r.image v) ∧
            ∀ v ∈ result.vars, s.image v = r.image v := and_congr (forall₂_congr iha) ihr
      _ ↔ ∀ v ∈ (callable arguments result isTypeObject).vars, s.image v = r.image v := by
          rw [vars_callable, List.forall_mem_append, List.forall_mem_flatMap]

/-- If no variable is assigned, every type stays as it is. -/
lemma expand_empty (t : Ty) : t.expand .empty = t :=
  expand_eq_self fun _ _ => rfl

/-- A type stays as it is exactly if all its variables stand for themselves. This compares the
substitution with the empty one. -/
theorem expand_eq_self_iff : t.expand s = t ↔ ∀ v ∈ t.vars, s.image v = .var v :=
  calc t.expand s = t
      ↔ t.expand s = t.expand .empty := by rw [expand_empty]
    _ ↔ ∀ v ∈ t.vars, s.image v = .var v := expand_eq_expand_iff

/-- A variable occurs in a type exactly if the type can come out differently although no other
variable stands for something else.

**Proof sketch.** If the variable occurs, assigning `Any` to it makes a difference, since it would
otherwise stand for itself. If it does not occur, substitutions that agree on all other variables
agree on those of the type. -/
theorem mem_vars_iff_exists_expand_ne :
    v ∈ t.vars ↔ ∃ s r : Subst, (∀ w, w ≠ v → s.image w = r.image w) ∧
      t.expand s ≠ t.expand r := by
  constructor
  · intro hv
    -- leaving the variable alone differs from assigning it a type that is no variable
    refine ⟨.empty, Subst.empty.assign v .any, fun w hw => ?_, fun heq => ?_⟩
    · rw [Subst.image, Subst.image, Subst.get?_assign, if_neg hw]
    · have himage := expand_eq_expand_iff.1 heq v hv
      rw [Subst.image, Subst.image, Subst.get?_assign, if_pos rfl] at himage
      cases himage
  · rintro ⟨s, r, hother, hne⟩
    refine Decidable.byContradiction fun hv => hne (expand_eq_expand_iff.2 fun w hw => ?_)
    refine hother w ?_
    rintro rfl
    exact hv hw

end Ty

/-! ## The law -/

namespace Hierarchy

variable {h : Hierarchy} {c : ClassId}

/-- Two substitutions make the same of a type exactly if each variable that occurs in the type
stands for the same under both. A variable occurs in what comes out exactly if it occurs in what
some variable of the type stands for. So every type stays as it is if the type parameters of a class
are assigned the type parameters as types, even if some of them have the same identifier.

**Proof sketch.** The first two parts are `Ty.expand_eq_expand_iff` and `Ty.mem_vars_expand`. For
the third, a class that is defined gives its type and the assignment of its arguments. Under this
assignment every variable stands for itself. -/
theorem occurrence_law (hc : h.IsDefined c) :
    (∀ (t : Ty) (s r : Subst),
        t.expand s = t.expand r ↔ ∀ v ∈ t.vars, s.image v = r.image v) ∧
      (∀ (t : Ty) (s : Subst) (v : VarId),
        v ∈ (t.expand s).vars ↔ ∃ w ∈ t.vars, v ∈ (s.image w).vars) ∧
      ∃ i σ, h.selfType c = .ok i ∧ h.argumentsOf i = .ok σ ∧ ∀ t : Ty, t.expand σ = t := by
  obtain ⟨d, hd⟩ := isDefined_iff.1 hc
  refine ⟨fun t s r => Ty.expand_eq_expand_iff, fun t s v => Ty.mem_vars_expand,
    ⟨c, d.selfArgs⟩, d.assignArgs d.selfArgs, selfType_eq hd, argumentsOf_eq hd, fun t => ?_⟩
  rw [Ty.expand_eq_self_iff]
  exact fun v _ => d.image_assignArgs_selfArgs v

/-- A class below the one that every hierarchy starts with, two type parameters of which have the
same identifier. -/
def clashing : Hierarchy where
  classes := #[
    .fresh "object" .object,
    { ClassDef.fresh "Map" ⟨1⟩ with params := [⟨"K", ⟨3⟩⟩, ⟨"V", ⟨3⟩⟩, ⟨"W", ⟨1⟩⟩] }]
  names := ∅

/-- The later of two assignments to the same variable counts, and it assigns the variable itself, so
types stay as they are. -/
theorem occurrence_law_clashing :
    clashing.IsDefined ⟨1⟩ ∧
      (∀ (t : Ty) (s r : Subst),
        t.expand s = t.expand r ↔ ∀ v ∈ t.vars, s.image v = r.image v) ∧
      (∀ (t : Ty) (s : Subst) (v : VarId),
        v ∈ (t.expand s).vars ↔ ∃ w ∈ t.vars, v ∈ (s.image w).vars) ∧
      ∃ i σ, clashing.selfType ⟨1⟩ = .ok i ∧ clashing.argumentsOf i = .ok σ ∧
        ∀ t : Ty, t.expand σ = t :=
  ⟨by decide, occurrence_law (by decide)⟩

end Hierarchy

end GenericSlots
