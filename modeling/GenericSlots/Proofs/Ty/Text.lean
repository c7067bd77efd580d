import GenericSlots.Proofs.Failure
import GenericSlots.Ty.Printer
import GenericSlots.Ty.Subst
set_option autoImplicit false

/-!
# Types that can be shown

Formatting a type reads the classes of the instances that are shown, and the class in scope for each
variable. It fails exactly if one of them is not defined. What lies below the levels shown is not
read.

## Main definitions

* `GenericSlots.Ty.Within`: a type inside another, and the number of instances and callables around
  it.
* `GenericSlots.Ty.Mentions`: a class of which there is an instance inside a type.
* `GenericSlots.Ty.Shows`: a class that is read to show a type.
* `GenericSlots.Hierarchy.Lacks`: a hierarchy lacks a class that is read to show a type.

## Main results

* `GenericSlots.Ty.reads_render`: the text of a type reads the classes that are shown.
* `GenericSlots.Ty.mentions_expand_iff`: the classes that an expanded type mentions.
* `GenericSlots.Hierarchy.format_faults_iff`: formatting faults exactly on what it shows.
-/

namespace GenericSlots

namespace Ty

/-! ## Types inside types -/

/-- A type occurs inside another, with a number of instances and callables around it. The same type
may occur at several depths. -/
inductive Within (u : Ty) : Nat → Ty → Prop
  /-- A type is the outermost part of itself. -/
  | self : Within u 0 u
  /-- What occurs in an argument of an instance has the instance around it. -/
  | arg {c : ClassId} {args : List Ty} {t : Ty} {n : Nat} (mem : t ∈ args) (within : Within u n t) :
      Within u (n + 1) (inst c args)
  /-- What occurs in an argument of a callable has the callable around it. -/
  | argument {arguments : List (Argument Ty)} {result : Ty} {isTypeObject : Bool} {a : Argument Ty}
      {n : Nat} (mem : a ∈ arguments) (within : Within u n a.type) :
      Within u (n + 1) (callable arguments result isTypeObject)
  /-- What occurs in the result of a callable has the callable around it. -/
  | result {arguments : List (Argument Ty)} {result : Ty} {isTypeObject : Bool} {n : Nat}
      (within : Within u n result) : Within u (n + 1) (callable arguments result isTypeObject)

/-- An instance of a class occurs in a type, at any depth. The number of its arguments does not
matter. -/
def Mentions (t : Ty) (c : ClassId) : Prop :=
  ∃ args n, Within (inst c args) n t

/-- A class is read to show a number of levels of a type: an instance of it is among them, or it is
the class in scope and a variable is among them. A variable is shown without being a level of its
own, so one level more of variables is shown than of instances. -/
def Shows (scope : Option ClassId) (levels : Nat) (t : Ty) (c : ClassId) : Prop :=
  (∃ args n, n < levels ∧ Within (inst c args) n t) ∨
    scope = some c ∧ ∃ v n, n ≤ levels ∧ Within (var v) n t

variable {scope : Option ClassId} {levels : Nat} {c d : ClassId} {args : List Ty}
  {arguments : List (Argument Ty)} {result : Ty} {isTypeObject : Bool} {v : VarId}

/-- A variable shows the class in scope, however many levels are left. -/
lemma shows_var_iff : (var v).Shows scope levels c ↔ scope = some c := by
  constructor
  · rintro (⟨_, _, _, hw⟩ | ⟨hc, -⟩)
    · cases hw
    · exact hc
  · exact fun hc => Or.inr ⟨hc, v, 0, Nat.zero_le _, .self⟩

/-- An instance that is cut off shows nothing, neither its class nor its arguments. -/
lemma not_shows_inst_zero : ¬(inst d args).Shows scope 0 c := by
  rintro (⟨_, _, hn, -⟩ | ⟨-, _, _, hn, hw⟩)
  · exact Nat.not_lt_zero _ hn
  · cases hw
    exact Nat.not_succ_le_zero _ hn

/-- An instance shows its class and what its arguments show with one level less.

**Proof sketch.** What occurs in the instance is the instance itself, which is shown if a level is
left, or occurs in an argument with one less around it. Conversely, what an argument shows has the
instance around it as well. -/
lemma shows_inst_succ_iff :
    (inst d args).Shows scope (levels + 1) c ↔ c = d ∨ ∃ t ∈ args, t.Shows scope levels c := by
  constructor
  · rintro (⟨_, _, hn, hw⟩ | ⟨hc, v, _, hn, hw⟩)
    · cases hw with
      | self => exact Or.inl rfl
      | arg ht hw => exact Or.inr ⟨_, ht, Or.inl ⟨_, _, Nat.lt_of_succ_lt_succ hn, hw⟩⟩
    · cases hw with
      | arg ht hw => exact Or.inr ⟨_, ht, Or.inr ⟨hc, v, _, Nat.le_of_succ_le_succ hn, hw⟩⟩
  · rintro (rfl | ⟨t, ht, ⟨_, _, hn, hw⟩ | ⟨hc, v, _, hn, hw⟩⟩)
    · exact Or.inl ⟨args, 0, Nat.succ_pos _, .self⟩
    · exact Or.inl ⟨_, _, Nat.succ_lt_succ hn, .arg ht hw⟩
    · exact Or.inr ⟨hc, v, _, Nat.succ_le_succ hn, .arg ht hw⟩

/-- A callable that is cut off shows nothing of its arguments or of its result. -/
lemma not_shows_callable_zero : ¬(callable arguments result isTypeObject).Shows scope 0 c := by
  rintro (⟨_, _, hn, -⟩ | ⟨-, _, _, hn, hw⟩)
  · exact Nat.not_lt_zero _ hn
  · cases hw <;> exact Nat.not_succ_le_zero _ hn

/-- A callable shows what its parts show with one level less. It has no class of its own.

**Proof sketch.** What occurs in the callable, other than the callable itself, occurs in the type of
an argument or in the result with one less around it, and conversely. -/
lemma shows_callable_succ_iff :
    (callable arguments result isTypeObject).Shows scope (levels + 1) c ↔
      (∃ a ∈ arguments, a.type.Shows scope levels c) ∨ result.Shows scope levels c := by
  constructor
  · rintro (⟨_, _, hn, hw⟩ | ⟨hc, v, _, hn, hw⟩)
    · have hn' := fun {n : Nat} (hn : n + 1 < levels + 1) => Nat.lt_of_succ_lt_succ hn
      cases hw with
      | argument ha hw => exact Or.inl ⟨_, ha, Or.inl ⟨_, _, hn' hn, hw⟩⟩
      | result hw => exact Or.inr (Or.inl ⟨_, _, hn' hn, hw⟩)
    · have hn' := fun {n : Nat} (hn : n + 1 ≤ levels + 1) => Nat.le_of_succ_le_succ hn
      cases hw with
      | argument ha hw => exact Or.inl ⟨_, ha, Or.inr ⟨hc, v, _, hn' hn, hw⟩⟩
      | result hw => exact Or.inr (Or.inr ⟨hc, v, _, hn' hn, hw⟩)
  · rintro (⟨a, ha, ⟨_, _, hn, hw⟩ | ⟨hc, v, _, hn, hw⟩⟩ | ⟨_, _, hn, hw⟩ | ⟨hc, v, _, hn, hw⟩)
    · exact Or.inl ⟨_, _, Nat.succ_lt_succ hn, .argument ha hw⟩
    · exact Or.inr ⟨hc, v, _, Nat.succ_le_succ hn, .argument ha hw⟩
    · exact Or.inl ⟨_, _, Nat.succ_lt_succ hn, .result hw⟩
    · exact Or.inr ⟨hc, v, _, Nat.succ_le_succ hn, .result hw⟩

/-! ## Showing types -/

variable {h : Hierarchy}

/-- The text of a type reads the classes that are shown, and no others.

**Proof sketch.** Induction on the type. What is read of an instance or a callable is its class, if
it has one, and then what its parts show with one level less. Where no level is left, nothing is
read. A result that is `void` is not written, and shows nothing either. -/
theorem reads_render (h : Hierarchy) (scope : Option ClassId) (levels : Nat) (t : Ty) :
    h.Reads (t.Shows scope levels) (t.render h scope levels) := by
  induction t generalizing levels with
  | any | void | noneType | error =>
    refine (Hierarchy.reads_pure _).of_iff fun c => iff_false_intro ?_
    rintro (⟨_, _, _, hw⟩ | ⟨-, _, _, _, hw⟩) <;> cases hw
  | var v =>
    refine Hierarchy.Reads.of_iff ?_ fun c => shows_var_iff
    cases scope with
    | none => exact (Hierarchy.reads_pure _).of_iff (by simp)
    | some d => exact ((h.reads_get d).bind_pure _).of_iff (by simp [eq_comm])
  | inst d args ih =>
    cases levels with
    | zero => exact (Hierarchy.reads_pure _).of_iff fun c => iff_false_intro not_shows_inst_zero
    | succ levels =>
      rw [render_inst_succ]
      have hargs := Hierarchy.reads_mapM fun t ht => ih t ht levels
      exact ((h.reads_nameOf d).bind fun name => hargs.bind_pure (instText name)).of_iff fun c =>
        shows_inst_succ_iff
  | callable arguments result isTypeObject iha ihr =>
    cases levels with
    | zero => exact (Hierarchy.reads_pure _).of_iff fun c => iff_false_intro not_shows_callable_zero
    | succ levels =>
      rw [render_callable_succ]
      have harguments := Hierarchy.reads_mapM fun a ha =>
        (iha a ha levels).bind_pure fun text => a.opening ++ text ++ a.closing
      by_cases hvoid : result.isVoid = true
      · obtain rfl := isVoid_iff.1 hvoid
        refine (harguments.bind_pure fun texts => callableText isTypeObject texts none).of_iff
          fun c => ?_
        rw [shows_callable_succ_iff, or_iff_left]
        rintro (⟨_, _, _, hw⟩ | ⟨-, _, _, _, hw⟩) <;> cases hw
      · simp only [if_neg hvoid]
        have hresult := (ihr levels).bind_pure some
        refine (harguments.bind fun texts =>
          hresult.bind_pure (callableText isTypeObject texts)).of_iff fun c => ?_
        exact shows_callable_succ_iff

/-! ## Classes mentioned -/

/-- An instance mentions its class and what its arguments mention. -/
lemma mentions_inst_iff :
    (inst d args).Mentions c ↔ c = d ∨ ∃ t ∈ args, t.Mentions c := by
  constructor
  · rintro ⟨_, _, hw⟩
    cases hw with
    | self => exact Or.inl rfl
    | arg ht hw => exact Or.inr ⟨_, ht, _, _, hw⟩
  · rintro (rfl | ⟨t, ht, _, _, hw⟩)
    · exact ⟨args, 0, .self⟩
    · exact ⟨_, _, .arg ht hw⟩

/-- A callable mentions what the types of its arguments and its result mention. -/
lemma mentions_callable_iff :
    (callable arguments result isTypeObject).Mentions c ↔
      (∃ a ∈ arguments, a.type.Mentions c) ∨ result.Mentions c := by
  constructor
  · rintro ⟨_, _, hw⟩
    cases hw with
    | argument ha hw => exact Or.inl ⟨_, ha, _, _, hw⟩
    | result hw => exact Or.inr ⟨_, _, hw⟩
  · rintro (⟨a, ha, _, _, hw⟩ | ⟨_, _, hw⟩)
    · exact ⟨_, _, .argument ha hw⟩
    · exact ⟨_, _, .result hw⟩

/-- A variable mentions no class, since the class in scope is not part of the type. -/
lemma not_mentions_var : ¬(var v).Mentions c := by
  rintro ⟨_, _, hw⟩
  cases hw

/-- What is read to show a type is mentioned by it, apart from the class in scope. -/
lemma Shows.mentions {t : Ty} (ht : t.Shows scope levels c) : t.Mentions c ∨ scope = some c := by
  rcases ht with ⟨args, n, -, hw⟩ | ⟨hc, -⟩
  · exact Or.inl ⟨args, n, hw⟩
  · exact Or.inr hc

/-- An expanded type mentions what the type mentions and what its variables become.

**Proof sketch.** By induction on the type. For an instance or a callable, both sides are split into
what the parts mention and what their variables become, and these are sorted by parts. -/
theorem mentions_expand_iff {s : Subst} {t : Ty} :
    (t.expand s).Mentions c ↔ t.Mentions c ∨ ∃ v ∈ t.vars, (s.image v).Mentions c := by
  induction t with
  | any | void | noneType | error => simp
  | var v => simp [not_mentions_var]
  | inst d args ih =>
    simp only [expand_inst, vars_inst, mentions_inst_iff, List.mem_map, List.mem_flatMap, or_assoc]
    refine or_congr_right ?_
    constructor
    · rintro ⟨_, ⟨t, ht, rfl⟩, hc⟩
      rcases (ih t ht).1 hc with hc | ⟨v, hv, hc⟩
      · exact Or.inl ⟨t, ht, hc⟩
      · exact Or.inr ⟨v, ⟨t, ht, hv⟩, hc⟩
    · rintro (⟨t, ht, hc⟩ | ⟨v, ⟨t, ht, hv⟩, hc⟩)
      · exact ⟨_, ⟨t, ht, rfl⟩, (ih t ht).2 (Or.inl hc)⟩
      · exact ⟨_, ⟨t, ht, rfl⟩, (ih t ht).2 (Or.inr ⟨v, hv, hc⟩)⟩
  | callable arguments result isTypeObject iha ihr =>
    simp only [expand_callable, vars_callable, mentions_callable_iff, List.mem_map, List.mem_append,
      List.mem_flatMap, ihr]
    constructor
    · rintro (⟨_, ⟨a, ha, rfl⟩, hc⟩ | hc | ⟨v, hv, hc⟩)
      · rcases (iha a ha).1 hc with hc | ⟨v, hv, hc⟩
        · exact Or.inl (Or.inl ⟨a, ha, hc⟩)
        · exact Or.inr ⟨v, Or.inl ⟨a, ha, hv⟩, hc⟩
      · exact Or.inl (Or.inr hc)
      · exact Or.inr ⟨v, Or.inr hv, hc⟩
    · rintro ((⟨a, ha, hc⟩ | hc) | ⟨v, ⟨a, ha, hv⟩ | hv, hc⟩)
      · exact Or.inl ⟨_, ⟨a, ha, rfl⟩, (iha a ha).2 (Or.inl hc)⟩
      · exact Or.inr (Or.inl hc)
      · exact Or.inl ⟨_, ⟨a, ha, rfl⟩, (iha a ha).2 (Or.inr ⟨v, hv, hc⟩)⟩
      · exact Or.inr (Or.inr ⟨v, hv, hc⟩)

end Ty

/-! ## Faults -/

namespace Hierarchy

open Ty

variable {scope : Option ClassId}

/-- A hierarchy lacks a class that is read to show a type. Either it is the class of an instance
with fewer instances and callables around it than there are levels shown, or it is the class in
scope and a variable has no more around it than that. -/
def Lacks (h : Hierarchy) (scope : Option ClassId) (t : Ty) : Prop :=
  (∃ c args n, n < shownLevels ∧ Within (inst c args) n t ∧ ¬h.IsDefined c) ∨
    (∃ c ∈ scope, ¬h.IsDefined c) ∧ ∃ v n, n ≤ shownLevels ∧ Within (var v) n t

/-- A hierarchy lacks a class for a type exactly if one that is shown is not defined. -/
lemma lacks_iff {h : Hierarchy} {t : Ty} :
    h.Lacks scope t ↔ ∃ c, t.Shows scope shownLevels c ∧ ¬h.IsDefined c := by
  constructor
  · rintro (⟨c, args, n, hn, hw, hundefined⟩ | ⟨⟨c, hc, hundefined⟩, v, n, hn, hw⟩)
    · exact ⟨c, Or.inl ⟨args, n, hn, hw⟩, hundefined⟩
    · exact ⟨c, Or.inr ⟨hc, v, n, hn, hw⟩, hundefined⟩
  · rintro ⟨c, ⟨args, n, hn, hw⟩ | ⟨hc, hvar⟩, hundefined⟩
    · exact Or.inl ⟨c, args, n, hn, hw, hundefined⟩
    · exact Or.inr ⟨⟨c, hc, hundefined⟩, hvar⟩

/-- The text of a list of types reads the classes that are shown of one of them. -/
lemma reads_formatList (h : Hierarchy) (scope : Option ClassId) (ts : List Ty) :
    h.Reads (fun c => ∃ t ∈ ts, t.Shows scope shownLevels c) (h.formatList scope ts) :=
  (reads_mapM fun t _ => reads_render h scope shownLevels t).bind_pure _

/-- Formatting faults exactly on what it shows: on an instance that is not cut off, of a class that
is not defined, or on a variable that is not cut off with what is around it, in the scope of a class
that is not defined. A list of types faults if one of them does. What is cut off does no harm.

**Proof sketch.** A computation that reads certain classes is at fault exactly if one of them is not
defined. For a type these are the classes that are shown, and for a list those that are shown of
some type in it. -/
theorem format_faults_iff (h : Hierarchy) (scope : Option ClassId) :
    (∀ t, (∃ f, h.format scope t = .error f) ↔ h.Lacks scope t) ∧
      ∀ ts, (∃ f, h.formatList scope ts = .error f) ↔ ∃ t ∈ ts, h.Lacks scope t := by
  constructor
  · intro t
    rw [lacks_iff]
    exact (reads_render h scope shownLevels t).error_iff
  · intro ts
    rw [(reads_formatList h scope ts).error_iff]
    simp only [lacks_iff]
    constructor
    · rintro ⟨c, ⟨t, ht, hc⟩, hundefined⟩
      exact ⟨t, ht, c, hc, hundefined⟩
    · rintro ⟨t, ht, c, hc, hundefined⟩
      exact ⟨c, ⟨t, ht, hc⟩, hundefined⟩

end Hierarchy

end GenericSlots
