import GenericSlots.Proofs.Failure
import GenericSlots.Ty.Printer
set_option autoImplicit false

/-!
# Writing types piece by piece

A second way to make the text of a type: its pieces are written one after another onto a page, from
left to right. The page counts the instances and callables that are being written, and one that
would be too deep is cut off. What is written is the text of the type. The difficulty is that the
count belongs to the page and not to the type, so every part of a type, cut off or not, has to leave
it as it was.

## Main definitions

* `GenericSlots.Page`: the text written so far, and how deep in a type it is.
* `GenericSlots.Writing`: a step of writing.
* `GenericSlots.Ty.write`, `GenericSlots.Ty.writeAll`: writes a type and a list of types.
* `GenericSlots.Writing.Writes`: what a step adds to a page.

## Main results

* `GenericSlots.Ty.writes_write`: writing a type adds its text, with as many levels as the depth of
  the page leaves.
-/

namespace GenericSlots

/-- A page that a type is written onto. It is the state of writing, and the only thing that the
steps have in common. -/
structure Page where
  /-- What has been written. -/
  text : String
  /-- The number of instances and callables of which a part is being written. -/
  depth : Nat

/-- A step of writing, which may fault. What was written before a fault is lost with the page. -/
abbrev Writing (α : Type) :=
  StateT Page (Except Fault) α

namespace Writing

/-- Writes a piece of text at the end of the page. -/
def put (s : String) : Writing Unit :=
  modify fun p => { p with text := p.text ++ s }

/-- Writes an instance or a callable one level deeper, or an ellipsis if that is too deep. The depth
is counted up before the block and down again after it. -/
def descend (block : Writing Unit) : Writing Unit := do
  if (← get).depth = Hierarchy.shownLevels then
    put Ty.ellipsis
  else
    modify fun p => { p with depth := p.depth + 1 }
    block
    modify fun p => { p with depth := p.depth - 1 }

/-- Writes the elements of a list with commas between them, or also before the first. -/
def separated {α : Type} (first : Bool) (w : α → Writing Unit) : List α → Writing Unit
  | [] => pure ()
  | a :: as => do
    unless first do put ", "
    w a
    separated false w as

end Writing

open Writing

/-- Writes a type variable, after its name in the scope of a class. The name is left out if there is
no class in scope, or if the class has no such type parameter. -/
def VarId.write (h : Hierarchy) (scope : Option ClassId) (v : VarId) : Writing Unit := do
  if let some c := scope then
    if let some p := (← h.get c).paramWithId? v then
      put p.name
  put "`"
  put (toString v)

namespace Ty

mutual

/-- Writes a type. Only instances and callables go one level deeper. -/
def write (h : Hierarchy) (scope : Option ClassId) : Ty → Writing Unit
  | .any => put "Any"
  | .void => put "void"
  | .noneType => put "None"
  | .error => put "<ERROR>"
  | .var v => v.write h scope
  | .inst c args => descend do
    put (← h.nameOf c)
    unless args.isEmpty do
      put "["
      writeList h scope true args
      put "]"
  | .callable arguments result isTypeObject => descend do
    put (if isTypeObject then "def type (" else "def (")
    writeArguments h scope true arguments
    put ")"
    unless result.isVoid do
      put " -> "
      write h scope result
termination_by structural t => t

/-- Writes the types of a list with commas between them, or also before the first. -/
def writeList (h : Hierarchy) (scope : Option ClassId) (first : Bool) : List Ty → Writing Unit
  | [] => pure ()
  | t :: ts => do
    unless first do put ", "
    write h scope t
    writeList h scope false ts
termination_by structural ts => ts

/-- Writes the arguments of a callable with commas between them, or also before the first. -/
def writeArguments (h : Hierarchy) (scope : Option ClassId) (first : Bool) :
    List (Argument Ty) → Writing Unit
  | [] => pure ()
  | a :: as => do
    unless first do put ", "
    writeArgument h scope a
    writeArguments h scope false as
termination_by structural as => as

/-- Writes an argument of a callable, with a mark before or after its type that says of what kind it
is. -/
def writeArgument (h : Hierarchy) (scope : Option ClassId) : Argument Ty → Writing Unit
  | ⟨kind, _, t⟩ => do
    if kind = .rest then put "*"
    write h scope t
    if kind = .optional then put " ="
termination_by structural a => a

end

/-- Writes a list of types, in brackets. This takes up no level. -/
def writeAll (h : Hierarchy) (scope : Option ClassId) (ts : List Ty) : Writing Unit := do
  put "["
  writeList h scope true ts
  put "]"

/-- Writing the types of a list is writing elements with commas between them. The recursion is the
same, so what is shown of `separated` applies. -/
lemma writeList_eq (h : Hierarchy) (scope : Option ClassId) (first : Bool) (ts : List Ty) :
    writeList h scope first ts = separated first (write h scope) ts := by
  induction ts generalizing first with
  | nil => rfl
  | cons t ts ih => rw [writeList, separated, ih]

/-- The same goes for the arguments of a callable. -/
lemma writeArguments_eq (h : Hierarchy) (scope : Option ClassId) (first : Bool)
    (as : List (Argument Ty)) :
    writeArguments h scope first as = separated first (writeArgument h scope) as := by
  induction as generalizing first with
  | nil => rfl
  | cons a as ih => rw [writeArguments, separated, ih]

end Ty

/-! ## What a step adds -/

namespace Writing

/-- At some depth, a step adds a text to whatever has been written, and leaves the depth as it is.
It faults if there is no such text, and in the same way. This is what every step of writing a type
keeps. -/
def Writes (n : Nat) (w : Writing Unit) (x : Except Fault String) : Prop :=
  ∀ written, w.run ⟨written, n⟩ = x.map fun text => ((), ⟨written ++ text, n⟩)

variable {n : Nat} {w w' : Writing Unit} {x y : Except Fault String}

/-- It only counts which text is added, not how it is put together. -/
lemma Writes.of_eq (hw : Writes n w x) (heq : x = y) : Writes n w y :=
  heq ▸ hw

/-- Doing nothing adds the empty text. -/
lemma writes_pure : Writes n (pure ()) (pure "") := fun _ =>
  congrArg (fun s => Except.ok ((), Page.mk s n)) String.append_empty.symm

/-- Writing a piece of text adds it. -/
lemma writes_put (s : String) : Writes n (put s) (pure s) := fun _ => rfl

/-- What two steps add one after the other stands in that order.

**Proof sketch.** If the first step faults, both sides do. Otherwise the second one starts from a
page with the text of the first and the same depth, to which its own text is added. -/
lemma Writes.seq (hw : Writes n w x) (hw' : Writes n w' y) :
    Writes n (do w; w') (do return (← x) ++ (← y)) := by
  intro written
  rw [StateT.run_bind, hw]
  cases x with
  | error f => rfl
  | ok text =>
    refine (hw' _).trans ?_
    cases y with
    | error f => rfl
    | ok text' => exact congrArg (fun s => Except.ok ((), Page.mk s n)) String.append_assoc

/-- What is read first decides what is written. Reading may fault, and then nothing is written. -/
lemma Writes.read {α : Type} {r : Except Fault α} {k : α → Writing Unit}
    {f : α → Except Fault String} (hk : ∀ a, Writes n (k a) (f a)) :
    Writes n (do k (← r)) (r >>= f) := by
  intro written
  cases r with
  | error f => rfl
  | ok a => exact hk a written

/-- What would be too deep is cut off: an ellipsis is added in its place. -/
lemma writes_descend_limit : Writes Hierarchy.shownLevels (descend w) (pure Ty.ellipsis) :=
  fun _ => rfl

/-- What is not too deep is written one level deeper, and the level is left again.

**Proof sketch.** The step is the block, run on a page that is one deeper, with the depth counted
down at the end. The block leaves the depth as it finds it, so counting down gives back the depth of
before. -/
lemma Writes.descend (hn : n < Hierarchy.shownLevels) (hw : Writes (n + 1) w x) :
    Writes n (descend w) x := by
  intro written
  have hstep : (Writing.descend w).run ⟨written, n⟩ = do
      let p ← w.run ⟨written, n + 1⟩
      return ((), ⟨p.2.text, p.2.depth - 1⟩) := by
    have hdepth : n ≠ Hierarchy.shownLevels := Nat.ne_of_lt hn
    simp only [Writing.descend, StateT.run_bind, StateT.run_get, pure_bind, if_neg hdepth]
    rfl
  rw [hstep, hw]
  cases x <;> rfl

/-- What is written of the elements of a list is put together with commas.

**Proof sketch.** By induction on the elements after the first. Each of them is written with a comma
before it, and the texts that are added are joined in the same way. -/
lemma Writes.separated {α : Type} {w : α → Writing Unit} {x : α → Except Fault String}
    {as : List α} (hw : ∀ a ∈ as, Writes n (w a) (x a)) :
    Writes n (separated true w as) (do return ", ".intercalate (← as.mapM x)) := by
  cases as with
  | nil => exact writes_pure
  | cons a as =>
    -- without the comma before the first element, the list is that element and then the others
    change Writes n (do w a; Writing.separated false w as) _
    induction as generalizing a with
    | nil =>
      refine ((hw a List.mem_cons_self).seq writes_pure).of_eq ?_
      simp
    | cons b bs ih =>
      have hrest := ih b fun c hc => hw c (List.mem_cons_of_mem _ hc)
      refine ((hw a List.mem_cons_self).seq ((writes_put ", ").seq hrest)).of_eq ?_
      simp [String.intercalate_cons_cons, String.append_assoc]

end Writing

/-- Writing a type variable adds its text.

**Proof sketch.** Without a class in scope, or without a type parameter of that identifier, only the
number is written. Otherwise the name of the type parameter comes before it. -/
lemma VarId.writes_write (h : Hierarchy) (scope : Option ClassId) (v : VarId) (n : Nat) :
    Writes n (v.write h scope) (v.render h scope) := by
  have hnumber := (writes_put (n := n) "`").seq (writes_put (toString v))
  cases scope with
  | none => exact hnumber
  | some c =>
    refine Writes.read (r := h.get c) fun d => ?_
    cases d.paramWithId? v with
    | none => exact hnumber
    | some p =>
      refine ((writes_put p.name).seq hnumber).of_eq ?_
      simp only [pure_bind, Option.elim_some, ← String.append_assoc]
      rfl

namespace Ty

variable {h : Hierarchy} {scope : Option ClassId} {n : Nat}

/-- Writing an argument adds the text of its type, with what stands before and after it. The cases
are the kinds of arguments.

**Proof sketch.** By cases on the kind of the argument. The mark is written before the type, after
it or not at all, and the pieces are put together as the text is. -/
lemma writes_writeArgument {a : Argument Ty} {x : Except Fault String}
    (ha : Writes n (a.type.write h scope) x) :
    Writes n (writeArgument h scope a) (do return a.opening ++ (← x) ++ a.closing) := by
  obtain ⟨kind, name, t⟩ := a
  have htype : Writes n (t.write h scope) x := ha
  cases kind with
  | positional =>
    refine (htype.seq writes_pure).of_eq ?_
    simp [Argument.opening, Argument.closing]
  | optional =>
    refine (htype.seq (writes_put " =")).of_eq ?_
    simp [Argument.opening, Argument.closing]
  | rest =>
    refine ((writes_put "*").seq (htype.seq writes_pure)).of_eq ?_
    simp [Argument.opening, Argument.closing]

/-- Writing a type adds its text, with as many levels as the depth of the page leaves.

**Proof sketch.** Induction on the type. An instance or a callable is either cut off or written one
level deeper, where each of its parts adds its text, and what the parts leave of the page is what
they found but for that text. The pieces are then put together as the text of the whole is. -/
theorem writes_write (h : Hierarchy) (scope : Option ClassId) (t : Ty)
    (hn : n ≤ Hierarchy.shownLevels) :
    Writes n (t.write h scope) (t.render h scope (Hierarchy.shownLevels - n)) := by
  induction t generalizing n with
  | any | void | noneType | error => exact writes_put _
  | var v => exact v.writes_write h scope n
  | inst c args ih =>
    rcases Nat.eq_or_lt_of_le hn with rfl | hlt
    · exact writes_descend_limit
    have hlevels : Hierarchy.shownLevels - n = Hierarchy.shownLevels - (n + 1) + 1 := by omega
    rw [hlevels, render_inst_succ, write, writeList_eq]
    refine Writes.descend hlt (Writes.read fun name => ?_)
    have hargs := Writes.separated fun t ht => ih t ht (Nat.succ_le_of_lt hlt)
    cases args with
    | nil =>
      refine ((writes_put name).seq writes_pure).of_eq ?_
      simp [instText]
    | cons t ts =>
      refine ((writes_put name).seq ((writes_put "[").seq (hargs.seq (writes_put "]")))).of_eq ?_
      simp [instText, String.append_assoc]
  | callable arguments result isTypeObject iha ihr =>
    rcases Nat.eq_or_lt_of_le hn with rfl | hlt
    · exact writes_descend_limit
    have hlevels : Hierarchy.shownLevels - n = Hierarchy.shownLevels - (n + 1) + 1 := by omega
    rw [hlevels, render_callable_succ, write, writeArguments_eq]
    have harguments := Writes.separated fun a ha =>
      writes_writeArgument (iha a ha (Nat.succ_le_of_lt hlt))
    have hresult := ihr (Nat.succ_le_of_lt hlt)
    refine Writes.descend hlt ?_
    by_cases hvoid : result.isVoid = true
    · simp only [if_pos hvoid]
      refine ((writes_put _).seq (harguments.seq ((writes_put ")").seq writes_pure))).of_eq ?_
      simp [callableText, String.append_assoc]
    · simp only [if_neg hvoid]
      refine ((writes_put _).seq (harguments.seq ((writes_put ")").seq
        ((writes_put " -> ").seq hresult)))).of_eq ?_
      simp [callableText, String.append_assoc]

/-- Writing a list of types adds its text. The types are written at depth zero, since the list takes
up no level. -/
lemma writes_writeAll (h : Hierarchy) (scope : Option ClassId) (ts : List Ty) :
    Writes 0 (writeAll h scope ts) (h.formatList scope ts) := by
  have hts : Writes 0 (separated true (write h scope) ts)
      (do return ", ".intercalate (← ts.mapM (h.format scope))) :=
    Writes.separated fun t _ => writes_write h scope t (Nat.zero_le _)
  rw [writeAll, writeList_eq]
  refine ((writes_put "[").seq (hts.seq (writes_put "]"))).of_eq ?_
  simp [Hierarchy.formatList, String.append_assoc]

end Ty

end GenericSlots
