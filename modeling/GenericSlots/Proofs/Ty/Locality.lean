import GenericSlots.Hierarchy.Edit
import GenericSlots.Proofs.Ty.Text
import GenericSlots.Proofs.Ty.Writing
import Mathlib.Data.List.Forall2
set_option autoImplicit false

/-!
# Formatting is local

The text of an instance, of a callable or of a list of types is made of the texts that its parts
have on their own that deep in a type. So nothing in it depends on what stands beside it, and what
lies below the levels shown can be exchanged for something else.

## Main definitions

* `GenericSlots.Ty.Known`: a type that mentions only defined classes.
* `GenericSlots.Hierarchy.textAt`: the text of a type that has a number of instances and callables
  around it.
* `GenericSlots.Ty.TakesLevel`: an instance or a callable.
* `GenericSlots.Ty.cutOff`: a type with a placeholder for whatever is too deep to be shown.
* `GenericSlots.Hierarchy.FormatsLocally`: what it means that formatting is local.

## Main results

* `GenericSlots.Ty.render_cutOff`: what is too deep to be shown does not count.
* `GenericSlots.Hierarchy.textAt_eq_ellipsis_iff`: what has an ellipsis as its text.
* `GenericSlots.Hierarchy.formatsLocally`: formatting is local.
-/

namespace GenericSlots

/-- A computation on all elements of a list gives what it gives for each.

**Proof sketch.** By induction on the list. The computation on a longer list succeeds if the one on
the first element does, and the one on the others. -/
lemma mapM_eq_ok_iff_forall₂ {ε α β : Type} {f : α → Except ε β} {as : List α} {bs : List β} :
    as.mapM f = .ok bs ↔ List.Forall₂ (fun a b => f a = .ok b) as bs := by
  induction as generalizing bs with
  | nil =>
    rw [List.forall₂_nil_left_iff, List.mapM_nil, eq_comm]
    exact Except.ok.injEq bs [] ▸ Iff.rfl
  | cons a as ih =>
    rw [List.mapM_cons, List.forall₂_cons_left_iff, bind_eq_ok_iff]
    constructor
    · rintro ⟨b, hb, hok⟩
      obtain ⟨bs', hbs, hok⟩ := bind_eq_ok_iff.1 hok
      exact ⟨b, bs', hb, ih.1 hbs, (Except.ok.inj hok).symm⟩
    · rintro ⟨b, bs', hb, hbs, rfl⟩
      exact ⟨b, hb, bind_eq_ok_iff.2 ⟨bs', ih.2 hbs, rfl⟩⟩

/-- A computation on the images of all elements of a list is one on the elements. -/
lemma mapM_map_congr {ε α β γ : Type} {f : α → β} {g : β → Except ε γ} {g' : α → Except ε γ}
    {as : List α} (h : ∀ a ∈ as, g (f a) = g' a) : (as.map f).mapM g = as.mapM g' := by
  induction as with
  | nil => rfl
  | cons a as ih =>
    rw [List.map_cons, List.mapM_cons, List.mapM_cons, h a List.mem_cons_self,
      ih fun b hb => h b (List.mem_cons_of_mem _ hb)]

namespace Ty

/-- A type that takes up a level of those that are shown. Other types are written whole wherever
they stand. -/
inductive TakesLevel : Ty → Prop
  /-- An instance takes up a level. -/
  | inst (c : ClassId) (args : List Ty) : TakesLevel (inst c args)
  /-- A callable takes up a level. -/
  | callable (arguments : List (Argument Ty)) (result : Ty) (isTypeObject : Bool) :
      TakesLevel (callable arguments result isTypeObject)

/-! ## Placeholders -/

mutual

/-- Puts a placeholder for every instance and callable that has a number of others around it. What
is not that deep stays, and so does what takes up no level. -/
def cutOff (p : Ty) (levels : Nat) : Ty → Ty
  | .inst c args =>
    match levels with
    | 0 => p
    | levels + 1 => .inst c (cutOffList p levels args)
  | .callable arguments result isTypeObject =>
    match levels with
    | 0 => p
    | levels + 1 =>
      .callable (cutOffArguments p levels arguments) (cutOff p levels result) isTypeObject
  | .any => .any
  | .void => .void
  | .noneType => .noneType
  | .error => .error
  | .var v => .var v
termination_by structural t => t

/-- Puts placeholders into the types of a list, which are all at the same depth. -/
def cutOffList (p : Ty) (levels : Nat) : List Ty → List Ty
  | [] => []
  | t :: ts => cutOff p levels t :: cutOffList p levels ts
termination_by structural ts => ts

/-- Puts placeholders into the types of the arguments of a callable. -/
def cutOffArguments (p : Ty) (levels : Nat) : List (Argument Ty) → List (Argument Ty)
  | [] => []
  | a :: as => cutOffArgument p levels a :: cutOffArguments p levels as
termination_by structural as => as

/-- Puts placeholders into the type of an argument of a callable, and keeps its kind and name. -/
def cutOffArgument (p : Ty) (levels : Nat) : Argument Ty → Argument Ty
  | ⟨kind, name, t⟩ => ⟨kind, name, cutOff p levels t⟩
termination_by structural a => a

end

/-- The types of a list are treated one by one. -/
lemma cutOffList_eq (p : Ty) (levels : Nat) (ts : List Ty) :
    cutOffList p levels ts = ts.map (cutOff p levels) := by
  induction ts with
  | nil => rfl
  | cons t ts ih => simp [cutOffList, ih]

/-- The arguments of a callable are treated one by one. -/
lemma cutOffArguments_eq (p : Ty) (levels : Nat) (as : List (Argument Ty)) :
    cutOffArguments p levels as = as.map (Argument.map (cutOff p levels)) := by
  induction as with
  | nil => rfl
  | cons a as ih => cases a; simp [cutOffArguments, cutOffArgument, Argument.map, ih]

/-- Where a level is left, an instance stays, and its arguments have one level less. -/
lemma cutOff_inst_succ (p : Ty) (levels : Nat) (c : ClassId) (args : List Ty) :
    cutOff p (levels + 1) (inst c args) = inst c (args.map (cutOff p levels)) := by
  rw [cutOff, cutOffList_eq]

/-- Where a level is left, a callable stays, and its parts have one level less. -/
lemma cutOff_callable_succ (p : Ty) (levels : Nat) (arguments : List (Argument Ty)) (result : Ty)
    (isTypeObject : Bool) :
    cutOff p (levels + 1) (callable arguments result isTypeObject) =
      callable (arguments.map (Argument.map (cutOff p levels))) (cutOff p levels result)
        isTypeObject := by
  rw [cutOff, cutOffArguments_eq]

variable {h : Hierarchy} {scope : Option ClassId} {p : Ty}

/-- What takes up a level is cut off where no level is left. -/
lemma TakesLevel.render_zero (hp : p.TakesLevel) : p.render h scope 0 = .ok ellipsis := by
  cases hp <;> rfl

/-- A placeholder that takes up a level stands for what is not `void`, and is not `void`. So it does
not change whether the result of a callable is written. -/
lemma isVoid_cutOff (hp : p.TakesLevel) (levels : Nat) (t : Ty) :
    (cutOff p levels t).isVoid = t.isVoid := by
  have hplace : p.isVoid = false := by cases hp <;> rfl
  cases t with
  | any | void | noneType | error | var => rfl
  | inst => cases levels <;> first | exact hplace | rfl
  | callable => cases levels <;> first | exact hplace | rfl

/-- A type and the type with placeholders have the same text.

**Proof sketch.** Induction on the type. Where no level is left, the type and the placeholder are
both cut off. Where one is left, the parts have the same texts with one level less, and a result is
`void` with placeholders exactly if it is without them. -/
theorem render_cutOff (hp : p.TakesLevel) (levels : Nat) (t : Ty) :
    (cutOff p levels t).render h scope levels = t.render h scope levels := by
  induction t generalizing levels with
  | any | void | noneType | error | var => rfl
  | inst c args ih =>
    cases levels with
    | zero => exact hp.render_zero
    | succ levels =>
      rw [cutOff_inst_succ, render_inst_succ, render_inst_succ,
        mapM_map_congr fun t ht => ih t ht levels]
  | callable arguments result isTypeObject iha ihr =>
    cases levels with
    | zero => exact hp.render_zero
    | succ levels =>
      rw [cutOff_callable_succ, render_callable_succ, render_callable_succ, isVoid_cutOff hp, ihr,
        mapM_map_congr fun a ha => ?_]
      rw [Argument.type_map, iha a ha]
      rfl

/-! ## Texts that are no ellipsis -/

/-- A text with a character that the ellipsis does not have is not the ellipsis. -/
private lemma ne_ellipsis_of_mem {text : String} {x : Char} (hx : x ∈ text.toList)
    (hne : x ≠ '.') : text ≠ ellipsis := by
  rintro rfl
  have : x = '.' := by simpa [ellipsis] using hx
  exact hne this

/-- The text of an instance is the ellipsis exactly if it has no arguments and its name is the
ellipsis. With arguments there would be brackets. -/
lemma instText_eq_ellipsis_iff {name : String} {args : List String} :
    instText name args = ellipsis ↔ args = [] ∧ name = ellipsis := by
  cases args with
  | nil => simp [instText]
  | cons text texts =>
    refine iff_of_false (ne_ellipsis_of_mem (x := '[') ?_ (by decide)) (by simp)
    simp [instText]

/-- The text of a callable is never the ellipsis, since it has parentheses. -/
lemma callableText_ne_ellipsis (isTypeObject : Bool) (arguments : List String)
    (result : Option String) : callableText isTypeObject arguments result ≠ ellipsis := by
  refine ne_ellipsis_of_mem (x := ')') ?_ (by decide)
  simp [callableText]

/-- A type variable is written with a backtick, so its text is not the ellipsis.

**Proof sketch.** Outside of any scope the text begins with the backtick. In the scope of a class,
the backtick comes after the name of the type parameter, if it has one. -/
lemma ne_ellipsis_of_render_var {v : VarId} {text : String}
    (hok : v.render h scope = .ok text) : text ≠ ellipsis := by
  refine ne_ellipsis_of_mem (x := '\x60') ?_ (by decide)
  cases scope with
  | none =>
    obtain rfl := Except.ok.inj hok
    simp [toString]
  | some c =>
    obtain ⟨d, -, hok⟩ := bind_eq_ok_iff.1 hok
    obtain rfl := Except.ok.inj hok
    simp [toString]

/-- A type mentions only classes that are defined, at any depth. Such a type has a text whatever is
cut off. -/
def Known (h : Hierarchy) (t : Ty) : Prop :=
  ∀ c, t.Mentions c → h.IsDefined c

end Ty

namespace Hierarchy

open Ty

variable {h : Hierarchy} {scope : Option ClassId} {n : Nat}

/-- The text of a type that has a number of instances and callables around it. The levels that are
left are those that the others have not taken up. -/
def textAt (h : Hierarchy) (scope : Option ClassId) (n : Nat) (t : Ty) : Except Fault String :=
  t.render h scope (shownLevels - n)

/-- One level less is left one level deeper. -/
private lemma levels_left (hn : n < shownLevels) :
    shownLevels - n = shownLevels - (n + 1) + 1 := by
  omega

/-- A type that mentions only defined classes has a text at any depth, in the scope of a defined
class or outside of any. -/
lemma exists_textAt (hscope : ∀ c ∈ scope, h.IsDefined c) (n : Nat) {t : Ty} (ht : t.Known h) :
    ∃ text, h.textAt scope n t = .ok text := by
  rcases reads_render h scope (shownLevels - n) t with ⟨hok, -⟩ | ⟨c, hc, hundefined, -⟩
  · exact hok
  · rcases hc.mentions with hmentions | hc
    · exact absurd (ht c hmentions) hundefined
    · exact absurd (hscope c hc) hundefined

/-- The text of an instance is its name and the texts of its arguments one level deeper. So it is
determined by texts that do not depend on the instance.

**Proof sketch.** A level is left, so the instance is not cut off. Its name and the texts of its
arguments were computed one after another, and each of these steps has succeeded. -/
lemma textAt_inst_eq_ok (hn : n < shownLevels) {c : ClassId} {args : List Ty} {text : String}
    (hok : h.textAt scope n (.inst c args) = .ok text) :
    ∃ d texts, h.find? c = some d ∧
      List.Forall₂ (fun t text => h.textAt scope (n + 1) t = .ok text) args texts ∧
      text = instText d.name texts := by
  rw [textAt, levels_left hn, render_inst_succ] at hok
  obtain ⟨name, hname, hok⟩ := bind_eq_ok_iff.1 hok
  obtain ⟨texts, htexts, hok⟩ := bind_eq_ok_iff.1 hok
  obtain ⟨d, hd, hname⟩ := bind_eq_ok_iff.1 hname
  obtain rfl := Except.ok.inj hname
  exact ⟨d, texts, get_eq_ok_iff.1 hd, mapM_eq_ok_iff_forall₂.1 htexts, (Except.ok.inj hok).symm⟩

/-- The text of a callable is its punctuation and the texts of its parts one level deeper. The
result is left out if it is `void`.

**Proof sketch.** A level is left, so the callable is not cut off, and its arguments and its result
were written one after another. Each argument is the text of its type between two marks. Whether the
result was written depends on whether it is `void`. -/
lemma textAt_callable_eq_ok (hn : n < shownLevels) {arguments : List (Argument Ty)} {result : Ty}
    {isTypeObject : Bool} {text : String}
    (hok : h.textAt scope n (.callable arguments result isTypeObject) = .ok text) :
    ∃ texts shown,
      List.Forall₂ (fun a text => ∃ type, h.textAt scope (n + 1) a.type = .ok type ∧
        text = a.opening ++ type ++ a.closing) arguments texts ∧
      (result = .void ∧ shown = none ∨
        result ≠ .void ∧ ∃ type, h.textAt scope (n + 1) result = .ok type ∧ shown = some type) ∧
      text = callableText isTypeObject texts shown := by
  rw [textAt, levels_left hn, render_callable_succ] at hok
  obtain ⟨texts, htexts, hok⟩ := bind_eq_ok_iff.1 hok
  have harguments : List.Forall₂ (fun a text => ∃ type, h.textAt scope (n + 1) a.type = .ok type ∧
      text = a.opening ++ type ++ a.closing) arguments texts := by
    refine (mapM_eq_ok_iff_forall₂.1 htexts).imp fun a text htext => ?_
    obtain ⟨type, htype, htext⟩ := bind_eq_ok_iff.1 htext
    exact ⟨type, htype, (Except.ok.inj htext).symm⟩
  by_cases hvoid : result.isVoid = true
  · simp only [if_pos hvoid] at hok
    exact ⟨texts, none, harguments, Or.inl ⟨isVoid_iff.1 hvoid, rfl⟩, (Except.ok.inj hok).symm⟩
  · simp only [if_neg hvoid] at hok
    obtain ⟨shown, hshown, hok⟩ := bind_eq_ok_iff.1 hok
    obtain ⟨type, htype, hshown⟩ := bind_eq_ok_iff.1 hshown
    refine ⟨texts, shown, harguments, Or.inr ⟨mt isVoid_iff.2 hvoid, type, htype, ?_⟩, ?_⟩
    · exact (Except.ok.inj hshown).symm
    · exact (Except.ok.inj hok).symm

/-- What takes up no level is written in the same way at every depth. -/
lemma textAt_of_not_takesLevel {t : Ty} (ht : ¬t.TakesLevel) (n : Nat) :
    h.textAt scope n t = h.format scope t := by
  cases t with
  | any | void | noneType | error | var => rfl
  | inst c args => exact absurd (.inst c args) ht
  | callable arguments result isTypeObject => exact absurd (.callable ..) ht

/-- An ellipsis stands for the instances and callables at the depth where no level is left. Anything
else is only written so if it is the name of a class.

**Proof sketch.** By cases on the type. What takes up no level has a text that is not the ellipsis.
An instance or a callable is cut off where no level is left. Where one is left, the text of a
callable has parentheses, and that of an instance is the ellipsis only if it consists of the
name. -/
theorem textAt_eq_ellipsis_iff (hn : n ≤ shownLevels) {t : Ty} :
    h.textAt scope n t = .ok ellipsis ↔
      n = shownLevels ∧ t.TakesLevel ∨
        n < shownLevels ∧ ∃ c d, t = .inst c [] ∧ h.find? c = some d ∧ d.name = ellipsis := by
  cases t with
  | any | void | noneType | error =>
    refine iff_of_false (fun hok => absurd (Except.ok.inj hok) (by decide)) ?_
    rintro (⟨-, ⟨⟩⟩ | ⟨-, _, _, ⟨⟩, -⟩)
  | var v =>
    refine iff_of_false (fun hok => ne_ellipsis_of_render_var hok rfl) ?_
    rintro (⟨-, ⟨⟩⟩ | ⟨-, _, _, ⟨⟩, -⟩)
  | inst c args =>
    rcases Nat.eq_or_lt_of_le hn with rfl | hlt
    · exact iff_of_true (by rw [textAt, Nat.sub_self, render]; rfl) (Or.inl ⟨rfl, .inst c args⟩)
    constructor
    · intro hok
      obtain ⟨d, texts, hd, htexts, htext⟩ := textAt_inst_eq_ok hlt hok
      obtain ⟨rfl, hname⟩ := instText_eq_ellipsis_iff.1 htext.symm
      obtain rfl := List.forall₂_nil_right_iff.1 htexts
      exact Or.inr ⟨hlt, c, d, rfl, hd, hname⟩
    · rintro (⟨rfl, -⟩ | ⟨-, _, d, ⟨⟩, hd, hname⟩)
      · exact absurd hlt (Nat.lt_irrefl _)
      · rw [textAt, levels_left hlt, render_inst_succ, nameOf_eq hd, ← hname]
        rfl
  | callable arguments result isTypeObject =>
    rcases Nat.eq_or_lt_of_le hn with rfl | hlt
    · exact iff_of_true (by rw [textAt, Nat.sub_self, render]; rfl)
        (Or.inl ⟨rfl, .callable arguments result isTypeObject⟩)
    refine iff_of_false (fun hok => ?_) ?_
    · obtain ⟨texts, shown, -, -, htext⟩ := textAt_callable_eq_ok hlt hok
      exact callableText_ne_ellipsis isTypeObject texts shown htext.symm
    · rintro (⟨rfl, -⟩ | ⟨-, _, _, ⟨⟩, -⟩)
      exact Nat.lt_irrefl _ hlt

/-! ## Locality -/

/-- Formatting is local. The first fields say of what the texts of types are made, the next ones
what is written as an ellipsis and what does not count, and the last ones that a second way of
writing gives the same texts. -/
structure FormatsLocally (h : Hierarchy) (scope : Option ClassId) : Prop where
  /-- A type is formatted as one that has nothing around it. -/
  format : ∀ t, h.format scope t = h.textAt scope 0 t
  /-- A list of types is written as the texts of its types with commas between them, in brackets. It
  takes up no level. -/
  list : ∀ ts : List Ty, (∀ t ∈ ts, t.Known h) →
    ∃ texts, List.Forall₂ (fun t text => h.textAt scope 0 t = .ok text) ts texts ∧
      h.formatList scope ts = .ok ("[" ++ ", ".intercalate texts ++ "]")
  /-- An instance is written as its name and the texts that its arguments have one level deeper. -/
  inst : ∀ n < shownLevels, ∀ (c : ClassId) (args : List Ty), (Ty.inst c args).Known h →
    ∃ d texts, h.find? c = some d ∧
      List.Forall₂ (fun t text => h.textAt scope (n + 1) t = .ok text) args texts ∧
      h.textAt scope n (.inst c args) = .ok (instText d.name texts)
  /-- A callable is written as the texts that its arguments and its result have one level deeper. A
  result is left out if it is `void`. -/
  callable : ∀ n < shownLevels, ∀ (arguments : List (Argument Ty)) (result : Ty)
    (isTypeObject : Bool), (Ty.callable arguments result isTypeObject).Known h →
    ∃ texts shown,
      List.Forall₂ (fun a text => ∃ type, h.textAt scope (n + 1) a.type = .ok type ∧
        text = a.opening ++ type ++ a.closing) arguments texts ∧
      (result = .void ∧ shown = none ∨
        result ≠ .void ∧ ∃ type, h.textAt scope (n + 1) result = .ok type ∧ shown = some type) ∧
      h.textAt scope n (.callable arguments result isTypeObject) =
        .ok (callableText isTypeObject texts shown)
  /-- What is neither an instance nor a callable is written in the same way at every depth. -/
  plain : ∀ t : Ty, ¬t.TakesLevel → ∀ n, h.textAt scope n t = h.format scope t
  /-- An instance or a callable with eight others around it is written as an ellipsis. Nothing else
  that is shown is, unless a class is named like that. -/
  ellipsis_iff : ∀ n ≤ shownLevels, ∀ t : Ty,
    h.textAt scope n t = .ok ellipsis ↔
      n = shownLevels ∧ t.TakesLevel ∨
        n < shownLevels ∧ ∃ c d, t = .inst c [] ∧ h.find? c = some d ∧ d.name = ellipsis
  /-- Types that are equal once there are placeholders for what is written as an ellipsis have the
  same text. -/
  placeholder : ∀ p : Ty, p.TakesLevel → ∀ t u : Ty,
    cutOff p shownLevels t = cutOff p shownLevels u → h.format scope t = h.format scope u
  /-- Writing the pieces one after another onto a page adds the text of the type at the depth of the
  page, and leaves the depth as it is. -/
  write : ∀ n ≤ shownLevels, ∀ t : Ty, Writing.Writes n (t.write h scope) (h.textAt scope n t)
  /-- Writing the pieces of a list of types adds its text. -/
  writeAll : ∀ ts : List Ty, Writing.Writes 0 (Ty.writeAll h scope ts) (h.formatList scope ts)

/-- Formatting is local: in the scope of a defined class or outside of any, the text of a type that
mentions only defined classes is made of its own punctuation and name and of the texts that its
parts have on their own at their depth.

**Proof sketch.** A type that mentions only defined classes has a text, which is then taken apart by
`textAt_inst_eq_ok` and `textAt_callable_eq_ok`. Types that are equal up to placeholders have the
text of the type with placeholders. That writing piece by piece adds the text is
`Ty.writes_write`. -/
theorem formatsLocally (h : Hierarchy) {scope : Option ClassId}
    (hscope : ∀ c ∈ scope, h.IsDefined c) : h.FormatsLocally scope where
  format _ := rfl
  list ts hts := by
    obtain ⟨texts, htexts, -⟩ := exists_mapM_eq_ok fun t ht => exists_textAt hscope 0 (hts t ht)
    refine ⟨texts, mapM_eq_ok_iff_forall₂.1 htexts, ?_⟩
    exact bind_eq_ok_iff.2 ⟨texts, htexts, rfl⟩
  inst n hn c args hknown := by
    obtain ⟨text, htext⟩ := exists_textAt hscope n hknown
    obtain ⟨d, texts, hd, htexts, rfl⟩ := textAt_inst_eq_ok hn htext
    exact ⟨d, texts, hd, htexts, htext⟩
  callable n hn arguments result isTypeObject hknown := by
    obtain ⟨text, htext⟩ := exists_textAt hscope n hknown
    obtain ⟨texts, shown, htexts, hshown, rfl⟩ := textAt_callable_eq_ok hn htext
    exact ⟨texts, shown, htexts, hshown, htext⟩
  plain _ ht n := textAt_of_not_takesLevel ht n
  ellipsis_iff _ hn _ := textAt_eq_ellipsis_iff hn
  placeholder p hp t u heq := by
    have hcut := congrArg (Ty.render h scope shownLevels) heq
    rwa [render_cutOff hp, render_cutOff hp] at hcut
  write _ hn t := writes_write h scope t hn
  writeAll ts := writes_writeAll h scope ts

/-- A hierarchy with a class that has two type parameters. -/
def paired : Hierarchy where
  classes := #[.fresh "builtins.object" .object,
    ⟨"P", false, [⟨"S", .ofInt 1⟩, ⟨"T", .ofInt 2⟩], [], [⟨1⟩]⟩]
  names := ∅

/-- Formatting is local in the scope of a class with two type parameters, which is defined. -/
theorem formatsLocally_paired :
    (∀ c ∈ some (⟨1⟩ : ClassId), paired.IsDefined c) ∧ paired.FormatsLocally (some ⟨1⟩) := by
  have hscope : ∀ c ∈ some (⟨1⟩ : ClassId), paired.IsDefined c := by
    rintro c ⟨⟩
    decide
  exact ⟨hscope, formatsLocally paired hscope⟩

-- an instance with six others around it, where only what is two levels deeper is cut off
example :
    paired.textAt (some ⟨1⟩) 6 (.inst ⟨1⟩ [.inst ⟨1⟩ [.inst ⟨1⟩ [], .var (.ofInt 2)],
      .inst ⟨0⟩ []]) = .ok "P[P[..., T`2], builtins.object]" := by
  rfl

/-- A hierarchy with a class whose name is the ellipsis. Names are not checked when classes are
added. -/
def dotted : Hierarchy :=
  initial.add ellipsis

/-- Not only what is cut off is written as an ellipsis. A class may be added under that name, and an
instance of it without arguments is then written so at every depth that is shown.

**Proof sketch.** `textAt_eq_ellipsis_iff` at the name of the class. That depth zero is one of the
depths that are shown refutes the equivalence, since nothing is cut off there. -/
theorem not_ellipsis_only_of_cutOff :
    Edit.alloc ellipsis .initial = .ok (⟨1⟩, dotted) ∧ (Ty.inst ⟨1⟩ []).Known dotted ∧
      (∀ n < shownLevels, dotted.textAt none n (.inst ⟨1⟩ []) = .ok ellipsis) ∧
      ¬∀ n ≤ shownLevels, ∀ t : Ty, t.Known dotted →
        (dotted.textAt none n t = .ok ellipsis ↔ n = shownLevels ∧ t.TakesLevel) := by
  have hname : dotted.find? ⟨1⟩ = some (.fresh ellipsis ⟨1⟩) := rfl
  have hknown : (Ty.inst ⟨1⟩ []).Known dotted := by
    intro c hc
    rcases mentions_inst_iff.1 hc with rfl | ⟨t, ht, -⟩
    · exact isDefined_iff.2 ⟨_, hname⟩
    · cases ht
  have htext : ∀ n < shownLevels, dotted.textAt none n (.inst ⟨1⟩ []) = .ok ellipsis := fun n hn =>
    (textAt_eq_ellipsis_iff (Nat.le_of_lt hn)).2 (Or.inr ⟨hn, ⟨1⟩, _, rfl, hname, rfl⟩)
  refine ⟨rfl, hknown, htext, fun honly => ?_⟩
  obtain ⟨hzero, -⟩ := (honly 0 (Nat.zero_le _) _ hknown).1 (htext 0 (by decide))
  exact absurd hzero (by decide)

end Hierarchy

end GenericSlots
