import GenericSlots.Proofs.Hierarchy.Reachable
set_option autoImplicit false

/-!
# Hierarchies that grow

A program goes on changing a hierarchy after slots have been laid out for it. Changes that declare
no type parameter under a name that its class has already only add to a hierarchy: classes come
after those that there are, and so do type parameters and bases within a class.

## Main definitions

* `GenericSlots.Change.Adds`: a change that only adds to a hierarchy.
* `GenericSlots.Hierarchy.Grows`: the hierarchies that such changes lead to.
* `GenericSlots.Hierarchy.ExtendedBy`: a hierarchy whose classes another has too, with type
  parameters and bases at their ends at most.

## Main results

* `GenericSlots.Hierarchy.Grows.extendedBy`: a hierarchy that grows is extended.
-/

namespace GenericSlots

/-! ## Changes that add -/

/-- A change that only adds to a hierarchy: if it declares a type parameter, then under a name that
the class does not have. The ancestors of a class may be replaced, since no slot depends on which
ones are listed. -/
inductive Change.Adds (h : Hierarchy) : Change → Prop
  /-- Adds a class. -/
  | alloc (name : String) : Adds h (.alloc name)
  /-- Marks a class as an interface. -/
  | setAbstract (c : ClassId) : Adds h (.setAbstract c)
  /-- Declares a type parameter of a new name with the next identifier. -/
  | newParam {c : ClassId} {name : String}
      (fresh : ∀ d ∈ h.find? c, ∀ q ∈ d.params, q.name ≠ name) : Adds h (.newParam c name)
  /-- Declares a type parameter of a new name with an identifier of its own. -/
  | declareParam {c : ClassId} {p : TypeParam}
      (fresh : ∀ d ∈ h.find? c, ∀ q ∈ d.params, q.name ≠ p.name) : Adds h (.declareParam c p)
  /-- Adds a declared base. -/
  | addBase (c : ClassId) (base : Instance) : Adds h (.addBase c base)
  /-- Lists the ancestors of a class. -/
  | setAncestors (c : ClassId) (ancestors : List ClassId) : Adds h (.setAncestors c ancestors)
  /-- Adds a declared base and takes over its ancestors. -/
  | extend (c : ClassId) (base : Instance) : Adds h (.extend c base)

/-- The hierarchies that changes lead to which only add. Each change has to succeed on the hierarchy
that was reached before it. -/
inductive Hierarchy.Grows (h : Hierarchy) : Hierarchy → Prop
  /-- No change is made. -/
  | refl : Grows h h
  /-- One more change is made. -/
  | change {h₁ h₂ : Hierarchy} (before : Grows h h₁) {change : Change} (adds : change.Adds h₁)
      (made : change.edit h₁ = .ok ((), h₂)) : Grows h h₂

/-! ## What is kept -/

/-- A class whose type parameters and bases another has too, before any others. Their order and
identifiers are kept, so what is in terms of the first parameters still means the same. -/
structure ClassDef.ExtendedBy (d d' : ClassDef) : Prop where
  /-- The type parameters come first. -/
  params : d.params <+: d'.params
  /-- The bases come first. -/
  bases : d.bases <+: d'.bases

/-- A hierarchy all of whose classes another has too, extended by type parameters and bases. -/
def Hierarchy.ExtendedBy (h h' : Hierarchy) : Prop :=
  ∀ c d, h.find? c = some d → ∃ d', h'.find? c = some d' ∧ d.ExtendedBy d'

namespace ClassDef

variable {d d' d'' : ClassDef}

/-- A class is extended by itself. -/
lemma ExtendedBy.refl (d : ClassDef) : d.ExtendedBy d :=
  ⟨List.prefix_rfl, List.prefix_rfl⟩

/-- A class that is extended by one that is extended itself is extended by the last. -/
lemma ExtendedBy.trans (hd : d.ExtendedBy d') (hd' : d'.ExtendedBy d'') : d.ExtendedBy d'' :=
  ⟨hd.params.trans hd'.params, hd.bases.trans hd'.bases⟩

/-- A type parameter of a new name comes after those that there are, so declaring it extends the
class. -/
lemma extendedBy_declareParam {p : TypeParam} (fresh : ∀ q ∈ d.params, q.name ≠ p.name) :
    d.ExtendedBy (d.declareParam p) := by
  have hnot : (d.params.any fun q => q.name = p.name) = false := by simpa using fresh
  rw [declareParam, hnot, if_neg Bool.false_ne_true]
  exact ⟨List.prefix_append _ _, List.prefix_rfl⟩

/-- A primary base stays the primary base, since bases are only added after it. -/
lemma ExtendedBy.primaryBase? (hd : d.ExtendedBy d') {base : Instance}
    (hb : d.primaryBase? = some base) : d'.primaryBase? = some base := by
  obtain ⟨bs, hbs⟩ := List.head?_eq_some_iff.1 hb
  obtain ⟨more, hmore⟩ := hd.bases
  rw [ClassDef.primaryBase?, ← hmore, hbs]
  rfl

/-- The type parameters as types come first too. -/
lemma ExtendedBy.selfArgs (hd : d.ExtendedBy d') : d.selfArgs <+: d'.selfArgs :=
  hd.params.map _

/-- Type parameters that are declared later get no argument, if there are only as many arguments as
type parameters before.

**Proof sketch.** Arguments are assigned by position. Those that there are go to the parameters that
there were, and for the others none is left. -/
lemma ExtendedBy.assignArgs (hd : d.ExtendedBy d') {args : List Ty}
    (hlen : args.length = d.arity) : d'.assignArgs args = d.assignArgs args := by
  obtain ⟨more, hmore⟩ := hd.params
  have hids : (d.params.map TypeParam.id).length = args.length := by
    rw [List.length_map, hlen, arity]
  have hzip : (d.params.map TypeParam.id ++ more.map TypeParam.id).zip args =
      (d.params.map TypeParam.id).zip args :=
    calc (d.params.map TypeParam.id ++ more.map TypeParam.id).zip args
      _ = (d.params.map TypeParam.id ++ more.map TypeParam.id).zip (args ++ []) := by
        rw [List.append_nil]
      _ = (d.params.map TypeParam.id).zip args ++ (more.map TypeParam.id).zip [] :=
        List.zip_append hids
      _ = (d.params.map TypeParam.id).zip args := by
        rw [List.zip_nil_right, List.append_nil]
  rw [ClassDef.assignArgs, ClassDef.assignArgs, ← hmore, List.map_append, Subst.ofLists,
    Subst.ofLists, hzip]

end ClassDef

namespace Hierarchy

variable {h h' h'' : Hierarchy}

/-- A hierarchy is extended by itself, as each of its classes is. -/
lemma ExtendedBy.refl (h : Hierarchy) : h.ExtendedBy h :=
  fun _ d hd => ⟨d, hd, .refl d⟩

/-- A class that is defined stays defined when the hierarchy is extended. -/
lemma ExtendedBy.isDefined (hh : h.ExtendedBy h') {c : ClassId} (hc : h.IsDefined c) :
    h'.IsDefined c := by
  obtain ⟨d, hd⟩ := isDefined_iff.1 hc
  obtain ⟨d', hd', -⟩ := hh c d hd
  exact isDefined_iff.2 ⟨d', hd'⟩

/-- Adding a class keeps all there is, because it comes after all others. -/
lemma ExtendedBy.add (hh : h.ExtendedBy h') (name : String) : h.ExtendedBy (h'.add name) := by
  intro c d hd
  obtain ⟨d', hd', hext⟩ := hh c d hd
  have hc : c.index < h'.size := isDefined_iff.2 ⟨d', hd'⟩
  exact ⟨d', by rw [find?_add, if_neg (Nat.ne_of_lt hc), hd'], hext⟩

/-- A change of one class keeps all there is if it only adds to that class. -/
lemma ExtendedBy.update (hh : h.ExtendedBy h') {c : ClassId} {f : ClassDef → ClassDef}
    (hf : ∀ d ∈ h'.find? c, d.ExtendedBy (f d)) : h.ExtendedBy (h'.update c f) := by
  intro e d hd
  obtain ⟨d', hd', hext⟩ := hh e d hd
  by_cases hce : c = e
  · subst hce
    exact ⟨f d', by rw [find?_update, if_pos rfl, hd', Option.map_some], hext.trans (hf d' hd')⟩
  · exact ⟨d', by rw [find?_update, if_neg hce, hd'], hext⟩

/-- Adding a base keeps all there is, because it comes after the bases that there are. -/
lemma keeps_addBase (h : Hierarchy) (c : ClassId) (base : Instance) :
    Edit.Keeps h.ExtendedBy (Edit.addBase c base) :=
  Edit.keeps_update fun _ hh => hh.update fun _ _ => ⟨List.prefix_rfl, List.prefix_append _ _⟩

/-- Listing ancestors keeps all there is, because neither type parameters nor bases are touched. -/
lemma keeps_setAncestors (h : Hierarchy) (c : ClassId) (ancestors : List ClassId) :
    Edit.Keeps h.ExtendedBy (Edit.setAncestors c ancestors) :=
  Edit.keeps_update fun _ hh => hh.update fun _ _ => ⟨List.prefix_rfl, List.prefix_rfl⟩

/-- A change that only adds to a hierarchy keeps all there is.

**Proof sketch.** One case for each kind of change. Where a type parameter is declared, its name is
new, so it comes after the others; a change that has several parts keeps all there is because each
part does. -/
lemma ExtendedBy.change (hh : h.ExtendedBy h') {change : Change} (adds : change.Adds h')
    (made : change.edit h' = .ok ((), h'')) : h.ExtendedBy h'' := by
  cases adds with
  | alloc name =>
    have hkeeps : Edit.Keeps h.ExtendedBy (Edit.alloc name) :=
      Edit.keeps_alloc fun _ hh _ => hh.add name
    exact hkeeps.discard h' () h'' hh made
  | setAbstract c =>
    obtain ⟨-, rfl⟩ := Edit.update_eq_ok_iff.1 made
    exact hh.update fun _ _ => ⟨List.prefix_rfl, List.prefix_rfl⟩
  | @newParam c name fresh =>
    obtain ⟨⟨v, h₁⟩, hmade, hok⟩ := bind_eq_ok_iff.1 made
    obtain ⟨d, -, -, hdeclared⟩ := Edit.newParam_eq_ok_iff.1 hmade
    obtain ⟨-, rfl⟩ := Edit.update_eq_ok_iff.1 hdeclared
    obtain rfl := (Prod.mk.inj (Except.ok.inj hok)).2
    exact hh.update fun d hd => ClassDef.extendedBy_declareParam (fresh d hd)
  | declareParam fresh =>
    obtain ⟨-, rfl⟩ := Edit.update_eq_ok_iff.1 made
    exact hh.update fun d hd => ClassDef.extendedBy_declareParam (fresh d hd)
  | addBase c base => exact keeps_addBase h c base h' () h'' hh made
  | setAncestors c ancestors => exact keeps_setAncestors h c ancestors h' () h'' hh made
  | extend c base =>
    refine ((Edit.keeps_get base.cls).bind fun d => ?_) h' () h'' hh made
    exact (keeps_addBase h c base).bind fun _ => keeps_setAncestors h c d.ancestors

/-- A hierarchy that grows is extended, by induction on the changes. -/
theorem Grows.extendedBy (hg : h.Grows h') : h.ExtendedBy h' := by
  induction hg with
  | refl => exact .refl h
  | change _ adds made ih => exact ih.change adds made

end Hierarchy

end GenericSlots
