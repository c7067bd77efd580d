import GenericSlots.Ty.Basic
set_option autoImplicit false

/-!
# Substitution

Type variables are replaced by the types assigned to them, all at once: a variable that a
substitution brings in is not replaced again. A variable without an assignment stays, because it may
belong to another scope, such as that of a generic method.

## Main definitions

* `GenericSlots.Subst`: a finite assignment of types to type variables.
* `GenericSlots.Ty.expand`, `GenericSlots.Instance.expand`: replace the variables of a type and of
  an instance.

## Main results

* `GenericSlots.Subst.get?_assign`: an assignment changes what its variable stands for and nothing
  else, so the last one to a variable counts.
* `GenericSlots.Ty.expand_inst`, `GenericSlots.Ty.expand_callable`: expansion goes through all
  parts.

## Implementation notes

An assignment is a list of pairs in which no variable occurs twice, so the number of variables
assigned is its length.
-/

namespace GenericSlots

/-- A finite assignment of types to type variables. It is a list of pairs in which no variable
occurs twice, so that what a variable stands for does not depend on the order of the pairs, and the
number of pairs is the number of variables. -/
structure Subst where
  /-- The variables and their types. -/
  pairs : List (VarId × Ty)
  /-- No variable is assigned twice. -/
  nodup : (pairs.map Prod.fst).Nodup

namespace Subst

/-- The assignment without any variable, under which every type stays as it is. -/
def empty : Subst :=
  ⟨[], List.nodup_nil⟩

/-- The assignment that stands for none in particular assigns nothing. -/
instance : Inhabited Subst :=
  ⟨empty⟩

/-- The type assigned to a variable, or none if the variable is not assigned. -/
def get? (s : Subst) (v : VarId) : Option Ty :=
  s.pairs.lookup v

/-- The type that a variable stands for, which is the variable itself if it is not assigned. This is
all that expansion asks an assignment. -/
def image (s : Subst) (v : VarId) : Ty :=
  (s.get? v).getD (.var v)

/-- Assigns a type to a variable, in place of the type it had, if any. The pair that is superseded
is removed, which keeps the variables distinct. -/
def assign (s : Subst) (v : VarId) (t : Ty) : Subst where
  pairs := (v, t) :: s.pairs.filter fun p => p.1 ≠ v
  nodup := by
    refine List.nodup_cons.2 ⟨by simp, ?_⟩
    exact (List.filter_sublist.map Prod.fst).nodup s.nodup

/-- Makes assignments one after another, from the left, so that of several to one variable the last
counts. -/
def assignAll (s : Subst) (ps : List (VarId × Ty)) : Subst :=
  ps.foldl (fun s p => s.assign p.1 p.2) s

/-- Assigns the types of a list to the variables of another, by position. What is left over of the
longer list is ignored, and of several assignments to one variable the last counts. -/
def ofLists (vs : List VarId) (ts : List Ty) : Subst :=
  empty.assignAll (vs.zip ts)

/-- The number of variables assigned. Two assignments to one variable count once. -/
def size (s : Subst) : Nat :=
  s.pairs.length

/-- Whether no variable is assigned, in which case expansion changes nothing. -/
def isEmpty (s : Subst) : Bool :=
  s.pairs.isEmpty

/-- In the assignment without any variable, no variable is assigned. -/
@[simp] theorem get?_empty (v : VarId) : empty.get? v = none := rfl

/-- Removing the pairs of one variable does not change what is found for another.

**Proof sketch.** Induction on the list. A pair of the variable that is removed would not be found
for the other one, and any other pair stays where it is. -/
private theorem lookup_filter_ne {v w : VarId} (h : w ≠ v) (ps : List (VarId × Ty)) :
    (ps.filter fun p => p.1 ≠ v).lookup w = ps.lookup w := by
  induction ps with
  | nil => rfl
  | cons p ps ih =>
    obtain ⟨x, t⟩ := p
    by_cases hx : x = v
    · have hw : (w == x) = false := by simpa [hx] using h
      simp only [hx, ne_eq, not_true_eq_false, decide_false, Bool.false_eq_true, not_false_eq_true,
        List.filter_cons_of_neg]
      rw [hx] at hw
      simp only [List.lookup_cons, hw]
      exact ih
    · simp only [ne_eq, hx, not_false_eq_true, decide_true, List.filter_cons_of_pos,
        List.lookup_cons]
      cases w == x
      · exact ih
      · rfl

/-- An assignment changes what its variable stands for and nothing else. So of several assignments
to one variable, the last one counts. -/
theorem get?_assign (s : Subst) (v w : VarId) (t : Ty) :
    (s.assign v t).get? w = if w = v then some t else s.get? w := by
  by_cases h : w = v
  · simp [get?, assign, h]
  · have hw : (w == v) = false := by simpa using h
    simp only [get?, assign, List.lookup_cons, hw, h, if_false]
    exact lookup_filter_ne h s.pairs

/-- Making no assignments leaves everything as it is. -/
@[simp] theorem assignAll_nil (s : Subst) : s.assignAll [] = s := rfl

/-- Making assignments from the left means to make the first, and then the others. -/
@[simp] theorem assignAll_cons (s : Subst) (p : VarId × Ty) (ps : List (VarId × Ty)) :
    s.assignAll (p :: ps) = (s.assign p.1 p.2).assignAll ps := rfl

end Subst

namespace Ty

mutual

/-- Replaces every variable that has an assignment by its type, all at once: the types that are put
in are not expanded themselves. Everything else stays, and so do the variables that have no
assignment. -/
def expand (s : Subst) : Ty → Ty
  | .var v => s.image v
  | .inst c args => .inst c (expandList s args)
  | .callable arguments result isTypeObject =>
      .callable (expandArguments s arguments) (expand s result) isTypeObject
  | .any => .any
  | .void => .void
  | .noneType => .noneType
  | .error => .error
termination_by structural t => t

/-- Expands the types of a list, one by one. -/
def expandList (s : Subst) : List Ty → List Ty
  | [] => []
  | t :: ts => expand s t :: expandList s ts
termination_by structural ts => ts

/-- Expands the types of the arguments of a callable, one by one. -/
def expandArguments (s : Subst) : List (Argument Ty) → List (Argument Ty)
  | [] => []
  | a :: as => expandArgument s a :: expandArguments s as
termination_by structural as => as

/-- Expands the type of an argument of a callable. Its kind and its name stay. -/
def expandArgument (s : Subst) : Argument Ty → Argument Ty
  | ⟨kind, name, t⟩ => ⟨kind, name, expand s t⟩
termination_by structural a => a

end

/-- Expanding a list of types means expanding its members, one by one. From here on `expand` is the
only one of the four functions that is mentioned. -/
theorem expandList_eq (s : Subst) (ts : List Ty) : expandList s ts = ts.map (expand s) := by
  induction ts with
  | nil => rfl
  | cons t ts ih => simp [expandList, ih]

/-- Expanding the arguments of a callable means replacing their types by the expanded ones. -/
theorem expandArguments_eq (s : Subst) (as : List (Argument Ty)) :
    expandArguments s as = as.map (Argument.map (expand s)) := by
  induction as with
  | nil => rfl
  | cons a as ih => cases a; simp [expandArguments, expandArgument, Argument.map, ih]

/-- The type that could be anything is not changed by expansion. -/
@[simp] theorem expand_any (s : Subst) : expand s any = any := rfl

/-- The result of a function that returns no value is not changed by expansion. -/
@[simp] theorem expand_void (s : Subst) : expand s void = void := rfl

/-- The type of the absent value is not changed by expansion. -/
@[simp] theorem expand_noneType (s : Subst) : expand s noneType = noneType := rfl

/-- The type of what could not be typed is not changed by expansion. -/
@[simp] theorem expand_error (s : Subst) : expand s error = error := rfl

/-- A variable is expanded to what it stands for, and to no more: its image is not expanded
again. -/
@[simp] theorem expand_var (s : Subst) (v : VarId) : expand s (var v) = s.image v := rfl

/-- An instance is expanded by expanding its arguments. Its class stays the same. -/
@[simp] theorem expand_inst (s : Subst) (c : ClassId) (args : List Ty) :
    expand s (inst c args) = inst c (args.map (expand s)) := by
  rw [expand, expandList_eq]

/-- A callable is expanded by expanding the types of its arguments and its result. Everything else
about it stays. -/
@[simp] theorem expand_callable (s : Subst) (arguments : List (Argument Ty)) (result : Ty)
    (isTypeObject : Bool) :
    expand s (callable arguments result isTypeObject) =
      callable (arguments.map (Argument.map (expand s))) (expand s result) isTypeObject := by
  rw [expand, expandArguments_eq]

end Ty

namespace Instance

/-- Expands the arguments of an instance. The result is an instance of the same class with as many
arguments. -/
def expand (s : Subst) (i : Instance) : Instance :=
  ⟨i.cls, i.args.map (Ty.expand s)⟩

/-- Expansion does not change the class of an instance. -/
@[simp] theorem cls_expand (s : Subst) (i : Instance) : (i.expand s).cls = i.cls := rfl

/-- The arguments of an expanded instance are the expanded arguments, in the same order. -/
@[simp] theorem args_expand (s : Subst) (i : Instance) :
    (i.expand s).args = i.args.map (Ty.expand s) := rfl

end Instance

end GenericSlots
