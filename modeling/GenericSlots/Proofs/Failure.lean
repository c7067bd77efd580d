import GenericSlots.Log.Run
import Mathlib.Tactic.Lemma
set_option autoImplicit false

/-!
# Computations that succeed

How the success of a computation comes from the success of its parts.

## Main definitions

* `GenericSlots.Hierarchy.Reads`: a computation that succeeds exactly if some classes are defined.

## Main results

* `GenericSlots.bind_eq_ok_iff`: a computation in two parts succeeds exactly if both parts do.
* `GenericSlots.map_bind_congr`: two computations agree if their parts do.
* `GenericSlots.exists_mapM_eq_ok`: a computation on all elements of a list succeeds if it does on
  each.
* `GenericSlots.Run.liftM_ok_bind`: a run continues with a value that is at hand.
* `GenericSlots.Hierarchy.Reads.bind`: what a computation reads is read by its parts.
-/

namespace GenericSlots

section Except

variable {ε α β : Type}

/-- A computation whose first part gives a value is its second part at that value. -/
lemma ok_bind (a : α) (f : α → Except ε β) : (Except.ok a >>= f) = f a := rfl

/-- A computation in two parts succeeds exactly if both parts do, the second at the value that the
first gives. This is how computations are taken apart throughout: from a run that succeeded, the
values of its steps are obtained one after another. -/
theorem bind_eq_ok_iff {x : Except ε α} {f : α → Except ε β} {b : β} :
    (x >>= f) = .ok b ↔ ∃ a, x = .ok a ∧ f a = .ok b := by
  cases x <;> simp [bind, Except.bind]

/-- Two computations in two parts agree up to what their results are mapped to, if both of their
parts do. The second parts only have to agree at values that the first parts can give and that are
mapped to the same.

**Proof sketch.** By cases on the first parts. They fail alike, or they succeed with values that are
mapped to the same, for which the second parts agree. That one fails and the other succeeds is
excluded by `hx`. -/
theorem map_bind_congr {γ δ : Type} {f : α → γ} {g : β → δ} {x x' : Except ε α}
    {k k' : α → Except ε β} (hx : x.map f = x'.map f)
    (hk : ∀ a a', x = .ok a → x' = .ok a' → f a = f a' → (k a).map g = (k' a').map g) :
    (x >>= k).map g = (x' >>= k').map g := by
  cases x with
  | error e =>
    cases x' with
    | error e' => exact congrArg Except.error (Except.error.inj hx)
    | ok a' => cases hx
  | ok a =>
    cases x' with
    | error e' => cases hx
    | ok a' => exact hk a a' rfl rfl (Except.ok.inj hx)

/-- A computation that may only fault succeeds wherever it is used, or nowhere. So whether it is a
step of a computation with errors of its own makes no difference to its value. -/
lemma liftM_eq_ok_iff {x : Except Fault α} {a : α} :
    (liftM x : Except (Failure ε) α) = .ok a ↔ x = .ok a := by
  cases x <;> simp

/-- A computation that succeeds on all elements of a list gives a list of what it gave for each, in
the same places.

**Proof sketch.** Induction on the list. The computation succeeds on the first element, and on the
rest by the induction hypothesis. A place in the list of results is either that of the first element
or one in the rest. -/
theorem exists_mapM_eq_ok {f : α → Except ε β} {as : List α} (h : ∀ a ∈ as, ∃ b, f a = .ok b) :
    ∃ bs, as.mapM f = .ok bs ∧ bs.length = as.length ∧
      ∀ (n : Nat) (a : α) (b : β), as[n]? = some a → f a = .ok b → bs[n]? = some b := by
  induction as with
  | nil => exact ⟨[], rfl, rfl, by simp⟩
  | cons a as ih =>
    obtain ⟨b, hb⟩ := h a List.mem_cons_self
    obtain ⟨bs, hbs, hlen, hget⟩ := ih fun a' ha' => h a' (List.mem_cons_of_mem _ ha')
    refine ⟨b :: bs, ?_, by rw [List.length_cons, List.length_cons, hlen], ?_⟩
    · rw [List.mapM_cons, hb, ok_bind, hbs]
      rfl
    · intro n a' b' hn hb'
      cases n with
      | zero =>
        obtain rfl : a = a' := Option.some.inj hn
        exact congrArg some (Except.ok.inj (hb.symm.trans hb'))
      | succ n => exact hget n a' b' hn hb'

/-- What a computation gives for all elements of a list, another gives too if it does for each.
Nothing is assumed of the other where the first fails.

**Proof sketch.** Induction on the list, taking the success of the first computation apart with
`bind_eq_ok_iff` and putting that of the second together from the same values. -/
lemma mapM_eq_ok_of_forall {f g : α → Except ε β} {as : List α} {bs : List β}
    (h : ∀ a ∈ as, ∀ b, f a = .ok b → g a = .ok b) (hok : as.mapM f = .ok bs) :
    as.mapM g = .ok bs := by
  induction as generalizing bs with
  | nil => exact hok
  | cons a as ih =>
    rw [List.mapM_cons] at hok ⊢
    obtain ⟨b, hb, hok⟩ := bind_eq_ok_iff.1 hok
    obtain ⟨bs', hbs, hok⟩ := bind_eq_ok_iff.1 hok
    rw [h a List.mem_cons_self b hb, ok_bind,
      ih (fun a' ha' => h a' (List.mem_cons_of_mem _ ha')) hbs]
    exact hok

/-- A computation that succeeds on all elements of a list gives as many results as there are
elements.

**Proof sketch.** By induction on the list. Each step adds one element on both sides. -/
lemma length_eq_of_mapM_eq_ok {f : α → Except ε β} {as : List α} {bs : List β}
    (hok : as.mapM f = .ok bs) : bs.length = as.length := by
  induction as generalizing bs with
  | nil =>
    obtain rfl : [] = bs := Except.ok.inj hok
    rfl
  | cons a as ih =>
    rw [List.mapM_cons] at hok
    obtain ⟨b, -, hok⟩ := bind_eq_ok_iff.1 hok
    obtain ⟨bs', hbs, hok⟩ := bind_eq_ok_iff.1 hok
    obtain rfl : b :: bs' = bs := Except.ok.inj hok
    rw [List.length_cons, List.length_cons, ih hbs]

/-- What a computation gives for all elements of a list, it gives for some of them: every result is
that of an element.

**Proof sketch.** Induction on the list. A result is either the first, and then it is that of the
first element, or it is among the rest. -/
lemma exists_of_mem_of_mapM_eq_ok {f : α → Except ε β} {as : List α} {bs : List β} {b : β}
    (hok : as.mapM f = .ok bs) (hb : b ∈ bs) : ∃ a ∈ as, f a = .ok b := by
  induction as generalizing bs with
  | nil =>
    obtain rfl : [] = bs := Except.ok.inj hok
    cases hb
  | cons a as ih =>
    rw [List.mapM_cons] at hok
    obtain ⟨b', hb', hok⟩ := bind_eq_ok_iff.1 hok
    obtain ⟨bs', hbs, hok⟩ := bind_eq_ok_iff.1 hok
    obtain rfl : b' :: bs' = bs := Except.ok.inj hok
    rcases List.mem_cons.1 hb with rfl | hb
    · exact ⟨a, List.mem_cons_self, hb'⟩
    · obtain ⟨a', ha', hok'⟩ := ih hbs hb
      exact ⟨a', List.mem_cons_of_mem _ ha', hok'⟩

end Except

namespace Run

variable {ω ε α β : Type}

/-- A run continues with a value that is at hand, whatever it might have failed with. -/
theorem liftM_ok_bind (a : α) (f : α → Run ω ε β) :
    ((liftM (Except.ok a : Except (Failure ε) α) : Run ω ε α) >>= f) = f a := rfl

/-- A run continues with a value that was read from the hierarchy, as it does with any value that is
at hand. -/
lemma liftM_fault_ok_bind (a : α) (f : α → Run ω ε β) :
    ((liftM (Except.ok a : Except Fault α) : Run ω ε α) >>= f) = f a := rfl

end Run

namespace Hierarchy

variable {h : Hierarchy} {α β : Type}

/-- A computation that reads some classes: it succeeds if all of them are defined, and if not, one
that is not defined is at fault. Which of several it is depends on the order in which they are read,
and is left open here. -/
def Reads (h : Hierarchy) (reads : ClassId → Prop) (x : Except Fault α) : Prop :=
  (∃ a, x = .ok a) ∧ (∀ c, reads c → h.IsDefined c) ∨
    ∃ c, reads c ∧ ¬h.IsDefined c ∧ x = .error (.undefinedClass c)

variable {R S : ClassId → Prop}

/-- A computation that reads no class succeeds. -/
lemma reads_pure (a : α) : h.Reads (fun _ => False) (pure a) :=
  Or.inl ⟨⟨a, rfl⟩, fun _ hc => hc.elim⟩

/-- Reading a class reads this class and no other. -/
lemma reads_get (h : Hierarchy) (c : ClassId) : h.Reads (· = c) (h.get c) := by
  by_cases hc : h.IsDefined c
  · obtain ⟨d, hd⟩ := isDefined_iff.1 hc
    exact Or.inl ⟨⟨d, get_eq_ok_iff.2 hd⟩, fun _ heq => heq ▸ hc⟩
  · exact Or.inr ⟨c, rfl, hc, get_of_not_isDefined hc⟩

/-- It only counts which classes are read, not how that is put. -/
lemma Reads.of_iff {x : Except Fault α} (hx : h.Reads R x) (hiff : ∀ c, S c ↔ R c) :
    h.Reads S x := by
  rcases hx with ⟨hok, hdefined⟩ | ⟨c, hc, hundefined, hfault⟩
  · exact Or.inl ⟨hok, fun c hc => hdefined c ((hiff c).1 hc)⟩
  · exact Or.inr ⟨c, (hiff c).2 hc, hundefined, hfault⟩

/-- What is read by a computation that succeeds is defined. -/
lemma Reads.isDefined {x : Except Fault α} {a : α} {c : ClassId} (hx : h.Reads R x)
    (hok : x = .ok a) (hc : R c) : h.IsDefined c := by
  rcases hx with ⟨-, hdefined⟩ | ⟨_, -, -, hfault⟩
  · exact hdefined c hc
  · cases hok.symm.trans hfault

/-- If a computation fails, something is read that is not defined, and the fault names it. -/
lemma Reads.exists_not_isDefined {x : Except Fault α} {f : Fault} (hx : h.Reads R x)
    (herror : x = .error f) : ∃ c, R c ∧ ¬h.IsDefined c ∧ f = .undefinedClass c := by
  rcases hx with ⟨⟨a, hok⟩, -⟩ | ⟨c, hc, hundefined, hfault⟩
  · cases hok.symm.trans herror
  · exact ⟨c, hc, hundefined, Except.error.inj (herror.symm.trans hfault)⟩

/-- A computation fails exactly if something is read that is not defined.

**Proof sketch.** A computation that fails names such a class. Conversely, one that succeeds has
read only classes that are defined. -/
lemma Reads.error_iff {x : Except Fault α} (hx : h.Reads R x) :
    (∃ f, x = .error f) ↔ ∃ c, R c ∧ ¬h.IsDefined c := by
  constructor
  · rintro ⟨f, herror⟩
    obtain ⟨c, hc, hundefined, -⟩ := hx.exists_not_isDefined herror
    exact ⟨c, hc, hundefined⟩
  · rintro ⟨c, hc, hundefined⟩
    cases hresult : x with
    | error f => exact ⟨f, rfl⟩
    | ok a => exact absurd (hx.isDefined hresult hc) hundefined

/-- What a computation in two parts reads is read by one of them, provided that what the second part
reads does not depend on the value of the first.

**Proof sketch.** If the first part faults, the whole faults with it. If it gives a value, the whole
is the second part at that value, and whatever the first part reads is defined. -/
theorem Reads.bind {x : Except Fault α} {f : α → Except Fault β} (hx : h.Reads R x)
    (hf : ∀ a, h.Reads S (f a)) : h.Reads (fun c => R c ∨ S c) (x >>= f) := by
  rcases hx with ⟨⟨a, rfl⟩, hdefined⟩ | ⟨c, hc, hundefined, rfl⟩
  · rw [ok_bind]
    rcases hf a with ⟨hok, hdefined'⟩ | ⟨c, hc, hundefined, hfault⟩
    · exact Or.inl ⟨hok, fun c hc => hc.elim (hdefined c) (hdefined' c)⟩
    · exact Or.inr ⟨c, Or.inr hc, hundefined, hfault⟩
  · exact Or.inr ⟨c, Or.inl hc, hundefined, rfl⟩

/-- Mapping the result of a computation reads no more. -/
lemma Reads.bind_pure {x : Except Fault α} (hx : h.Reads R x) (f : α → β) :
    h.Reads R (x >>= fun a => pure (f a)) :=
  (hx.bind fun _ => reads_pure _).of_iff fun _ => (or_iff_left not_false).symm

/-- The name of a class that is defined can be read. -/
lemma nameOf_eq {c : ClassId} {d : ClassDef} (hd : h.find? c = some d) :
    h.nameOf c = .ok d.name := by
  rw [nameOf, get_eq_ok_iff.2 hd]
  rfl

/-- Whether a class that is defined lists another among its ancestors can be told, whether or not
that other class is defined. -/
lemma hasAncestor_eq {c : ClassId} {d : ClassDef} (hd : h.find? c = some d) (a : ClassId) :
    h.hasAncestor c a = .ok (decide (a ∈ d.ancestors)) := by
  rw [hasAncestor, get_eq_ok_iff.2 hd]
  rfl

/-- A class that is defined can be instantiated with the same type for all of its parameters, of
which there are as many as its arity says. -/
lemma filled_eq {c : ClassId} {d : ClassDef} (hd : h.find? c = some d) (t : Ty) :
    h.filled c t = .ok ⟨c, List.replicate d.arity t⟩ := by
  rw [filled, get_eq_ok_iff.2 hd]
  rfl

/-- A class that is defined can be instantiated with its own type parameters. -/
lemma selfType_eq {c : ClassId} {d : ClassDef} (hd : h.find? c = some d) :
    h.selfType c = .ok ⟨c, d.selfArgs⟩ := by
  rw [selfType, get_eq_ok_iff.2 hd]
  rfl

/-- The arguments of an instance of a class that is defined are assigned to the parameters of that
class. -/
lemma argumentsOf_eq {i : Instance} {d : ClassDef} (hd : h.find? i.cls = some d) :
    h.argumentsOf i = .ok (d.assignArgs i.args) := by
  rw [argumentsOf, get_eq_ok_iff.2 hd]
  rfl

/-- Looking up the name of a class reads this class and no other. -/
lemma reads_nameOf (h : Hierarchy) (c : ClassId) : h.Reads (· = c) (h.nameOf c) :=
  (h.reads_get c).bind_pure ClassDef.name

/-- Instantiating a class with the same type for all of its parameters reads this class and no
other. The type is not looked at. -/
lemma reads_filled (h : Hierarchy) (c : ClassId) (t : Ty) : h.Reads (· = c) (h.filled c t) :=
  (h.reads_get c).bind_pure fun d => Instance.mk c (List.replicate d.arity t)

/-- A computation on all elements of a list reads what it reads for each. Which of several classes
that are not defined is at fault is left open by `Reads`, so the order of the list does not
matter. -/
lemma reads_mapM {f : α → Except Fault β} {as : List α} {R : α → ClassId → Prop}
    (hf : ∀ a ∈ as, h.Reads (R a) (f a)) :
    h.Reads (fun c => ∃ a ∈ as, R a c) (as.mapM f) := by
  induction as with
  | nil => exact (reads_pure []).of_iff (by simp)
  | cons a as ih =>
    rw [List.mapM_cons]
    have hrest := ih fun a' ha' => hf a' (List.mem_cons_of_mem _ ha')
    refine ((hf a List.mem_cons_self).bind fun b => hrest.bind_pure (b :: ·)).of_iff ?_
    simp

end Hierarchy

end GenericSlots
