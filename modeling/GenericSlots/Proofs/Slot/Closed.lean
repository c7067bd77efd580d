import GenericSlots.Proofs.Log.Legible
import GenericSlots.Proofs.Slot.Access
set_option autoImplicit false

/-!
# The variables of mappings

A mapping is meant to be in terms of the type parameters of its class. It is if the primary bases
of the chain are in terms of the type parameters of their classes. Laying out a hierarchy does not
look into the arguments of bases, though, and a variable that a class mentions there without
declaring it is carried along to every class below.

## Main definitions

* `GenericSlots.ClassDef.Closes`: a type in terms of the type parameters of a class.
* `GenericSlots.ClassDef.Stray`: a variable that a class mentions without declaring it.
* `GenericSlots.SlotTable.MappingVars`: what is known of the variables of a mapping.

## Main results

* `GenericSlots.Hierarchy.mem_vars_iterate_primarySupertype`,
  `GenericSlots.Hierarchy.mem_vars_of_strayOn`: the variables of projections.
* `GenericSlots.SlotTable.Describes.mem_vars_mapping_iff`: the variables of a mapping are the type
  parameters of its class and the strays of the chain.
* `GenericSlots.SlotTable.mappingVars_of_compile`: a mapping is in terms of the type parameters of
  its class exactly if the strays of the chain are among them.
-/

namespace GenericSlots

namespace ClassDef

/-- A type that mentions no type parameters other than those of the class. Variables that cannot be
type parameters of any class are allowed. -/
def Closes (d : ClassDef) (t : Ty) : Prop :=
  ∀ v ∈ t.vars, v.isClassParameter = true → v ∈ d.params.map TypeParam.id

/-- Whether a type is closed can be decided, because its variables are a finite list. -/
instance (d : ClassDef) (t : Ty) : Decidable (d.Closes t) :=
  inferInstanceAs (Decidable (∀ v ∈ t.vars,
    v.isClassParameter = true → v ∈ d.params.map TypeParam.id))

/-- A variable that the primary base mentions although the class does not declare it. Laying out a
hierarchy does not look for these. -/
def Stray (d : ClassDef) (v : VarId) : Prop :=
  v ∉ d.params.map TypeParam.id ∧ ∃ base ∈ d.primaryBase?, v ∈ base.vars

variable {d : ClassDef} {v : VarId}

/-- A primary base is in terms of the type parameters of its class if no other variable that can be
a type parameter strays. -/
lemma closedBase_of_forall_not_stray (hd : ∀ v, v.isClassParameter = true → ¬d.Stray v) :
    d.ClosedBase := by
  intro base hb v hv hpos
  by_contra hmem
  exact hd v hpos ⟨hmem, base, hb, hv⟩

/-- The type of a class within itself mentions exactly the type parameters of the class. -/
lemma mem_vars_selfArgs {c : ClassId} :
    v ∈ (Instance.mk c d.selfArgs).vars ↔ v ∈ d.params.map TypeParam.id := by
  simp [Instance.vars, selfArgs, TypeParam.toTy, eq_comm]

/-- Once the arguments are in place, a type in terms of the type parameters mentions no type
parameters but those of the arguments. -/
lemma Closes.mem_vars_of_expand {t : Ty} (ht : d.Closes t) {args : List Ty}
    (hlen : d.arity ≤ args.length) (hv : v ∈ (t.expand (d.assignArgs args)).vars)
    (hpos : v.isClassParameter = true) : v ∈ args.flatMap Ty.vars :=
  (mem_vars_of_expand_assignArgs hlen hv).resolve_right fun ⟨hmem, hnot⟩ =>
    hnot (ht v hmem hpos)

end ClassDef

namespace Hierarchy

/-- A variable that some class of a chain mentions without declaring it. Another class of the chain
may declare it. -/
def StrayOn (h : Hierarchy) (chain : List ClassId) (v : VarId) : Prop :=
  ∃ o ∈ chain, ∃ e, h.find? o = some e ∧ e.Stray v

variable {h : Hierarchy} {policy : SlotPolicy} {c : ClassId} {d : ClassDef} {i : Instance}
  {l : Layout} {v : VarId}

/-! ## Variables of projections -/

/-- Projecting onto the primary base brings in every stray, since the arguments of the instance
replace only what the class declares. -/
lemma mem_vars_primarySupertype_of_stray (hd : h.find? i.cls = some d) (hv : d.Stray v) :
    v ∈ (h.primarySupertype i).vars := by
  obtain ⟨hnot, base, hb, hv⟩ := hv
  rw [primarySupertype_eq hd hb, ← Instance.vars_toTy, Instance.toTy_expand, Ty.mem_vars_expand]
  refine ⟨v, base.vars_toTy ▸ hv, ?_⟩
  rw [ClassDef.image_assignArgs_of_notMem hnot, Ty.vars_var]
  exact List.mem_singleton_self v

/-- Projecting along the chain brings in no variables but strays of the chain.

**Proof sketch.** That its variables are those of the instance or strays is an invariant of
arguments on the way up. A variable of an expanded base comes from an argument, or is mentioned by
the base and not declared by its class, which is a stray. -/
theorem mem_vars_iterate_primarySupertype (hl : h.HasLayout policy c l) (hi : i.cls = c)
    (hd : h.find? c = some d) (hlen : i.args.length = d.arity) {n : Nat} {o : ClassId}
    (hn : l.chain.reverse[n]? = some o) (hv : v ∈ (h.primarySupertype^[n] i).vars) :
    v ∈ i.vars ∨ h.StrayOn l.chain v := by
  obtain ⟨a, ha, hv⟩ := List.mem_flatMap.1 hv
  refine forall_args_iterate_primarySupertype
    (P := fun a => ∀ v ∈ a.vars, v ∈ i.vars ∨ h.StrayOn l.chain v) hl hi hd hlen ?_ ?_ hn a ha v hv
  · exact fun a ha v hv => Or.inl (List.mem_flatMap.2 ⟨a, ha, hv⟩)
  · intro o ho e he base hb args hargs hP a ha v hv
    rcases ClassDef.mem_vars_of_expand_assignArgs (Nat.le_of_eq hargs.symm) hv with
      hv | ⟨hv, hnot⟩
    · obtain ⟨a, ha, hv⟩ := List.mem_flatMap.1 hv
      exact hP a ha v hv
    · exact Or.inr ⟨o, ho, e, he.find, hnot, base, hb, List.mem_flatMap.2 ⟨a, ha, hv⟩⟩

/-- Every stray of the chain is brought in by the projection onto some class of it, namely onto the
primary base that mentions it.

**Proof sketch.** The class that mentions the stray is somewhere on the chain, and its primary base
is the class further up by one. Projecting onto the former and taking one more step brings in the
stray. -/
theorem mem_vars_of_strayOn (hl : h.HasLayout policy c l) (hi : i.cls = c)
    (hv : h.StrayOn l.chain v) : ∃ (n : Nat) (o : ClassId), l.chain.reverse[n]? = some o ∧
      v ∈ (h.primarySupertype^[n] i).vars := by
  obtain ⟨o, ho, e, he, hstray⟩ := hv
  have ⟨_, base, hb, _⟩ := hstray
  obtain ⟨n, hn⟩ := List.mem_iff_getElem?.1 (List.mem_reverse.2 ho)
  obtain ⟨lo, hlo, -, -⟩ := hl.of_mem_chain ho
  obtain ⟨b, lb, -, -, hlb, -, rfl⟩ := hlo.eq_extend he hb
  -- the class mentions the stray in its primary base, which is one further up the chain
  refine ⟨n + 1, base.cls, ?_, ?_⟩
  · rw [hl.getElem?_reverse_chain_add hn hlo, Layout.reverse_chain_extend,
      List.getElem?_cons_succ, hlb.reverse_chain]
    rfl
  · rw [Function.iterate_succ_apply']
    refine mem_vars_primarySupertype_of_stray ?_ hstray
    rw [cls_iterate_primarySupertype hl hi hn, he]

end Hierarchy

namespace SlotTable

/-- What is known of the variables of the mapping of a class, given its chain. The first field says
when the mapping is in terms of the type parameters of the class, and the other two what follows for
instances. -/
structure MappingVars (t : SlotTable) (h : Hierarchy) (c : ClassId) (d : ClassDef)
    (chain : List ClassId) (mapping : List Ty) : Prop where
  /-- The mapping is in terms of the type parameters of the class exactly if no variable strays that
  could be a type parameter of another. -/
  closed_iff : (∀ value ∈ mapping, d.Closes value) ↔
    ∀ v, h.StrayOn chain v → v.isClassParameter = true → v ∈ d.params.map TypeParam.id
  /-- In that case, type arguments in place of the type parameters leave no type parameters but
  their own. -/
  instantiated : (∀ value ∈ mapping, d.Closes value) → ∀ args : List Ty, args.length = d.arity →
    ∀ value ∈ mapping, ∀ v ∈ (value.expand (d.assignArgs args)).vars,
      v.isClassParameter = true → v ∈ args.flatMap Ty.vars
  /-- If no such variable strays at all, none is taken for a type parameter of the class: with the
  type arguments of an instance in place, the values are the arguments of its projections. -/
  notCaptured : (∀ v, h.StrayOn chain v → v.isClassParameter = false) → ∀ i : Instance,
    i.cls = c → i.args.length = d.arity → ∀ (s : Nat) (value : Ty), mapping[s]? = some value →
    ∃ o k j, t.slotOrigin h c s = .ok (o, k) ∧ h.supertype i o = pure j ∧
      j.args[k]? = some (value.expand (d.assignArgs i.args))

variable {t : SlotTable} {h : Hierarchy} {c : ClassId} {d : ClassDef} {l : Layout}
  {mapping : List Ty}

/-! ## Variables of mappings -/

/-- The variables of a mapping are the type parameters of its class and the strays of the chain, all
of them.

**Proof sketch.** The values of a mapping are the arguments of the projections onto the chain. These
bring in no variables but strays. Conversely, the type parameters are mentioned by the projection
onto the class itself, and each stray is brought in by some projection. -/
theorem Describes.mem_vars_mapping_iff (ht : t.Describes h) (hl : h.HasLayout t.policy c l)
    (hd : h.find? c = some d) (hm : (t.compile h c).result = .ok mapping) {v : VarId} :
    (∃ value ∈ mapping, v ∈ value.vars) ↔ v ∈ d.params.map TypeParam.id ∨ h.StrayOn l.chain v := by
  simp only [ht.mem_mapping_iff hl hd hm]
  constructor
  · rintro ⟨value, ⟨n, o, hn, hvalue⟩, hv⟩
    have hmem : v ∈ (h.primarySupertype^[n] ⟨c, d.selfArgs⟩).vars :=
      List.mem_flatMap.2 ⟨value, hvalue, hv⟩
    rw [← ClassDef.mem_vars_selfArgs (c := c)]
    exact Hierarchy.mem_vars_iterate_primarySupertype hl rfl hd d.length_selfArgs hn hmem
  · intro hv
    have hmem : ∃ (n : Nat) (o : ClassId), l.chain.reverse[n]? = some o ∧
        v ∈ (h.primarySupertype^[n] ⟨c, d.selfArgs⟩).vars := by
      rcases hv with hv | hv
      · exact ⟨0, c, by rw [hl.reverse_chain]; rfl, ClassDef.mem_vars_selfArgs.2 hv⟩
      · exact Hierarchy.mem_vars_of_strayOn hl rfl hv
    obtain ⟨n, o, hn, hmem⟩ := hmem
    obtain ⟨value, hvalue, hv⟩ := List.mem_flatMap.1 hmem
    exact ⟨value, ⟨n, o, hn, hvalue⟩, hv⟩

/-- A mapping is in terms of the type parameters of its class exactly if the strays of the chain are
among them. A stray that happens to have the identifier of a type parameter cannot be told from it.

**Proof sketch.** From left to right, a stray occurs in some value of the mapping, which is closed.
From right to left, a variable of a value is a type parameter of the class or a stray. -/
lemma Describes.closes_mapping_iff (ht : t.Describes h) (hl : h.HasLayout t.policy c l)
    (hd : h.find? c = some d) (hm : (t.compile h c).result = .ok mapping) :
    (∀ value ∈ mapping, d.Closes value) ↔ ∀ v, h.StrayOn l.chain v →
      v.isClassParameter = true → v ∈ d.params.map TypeParam.id := by
  constructor
  · intro hclosed v hv hpos
    obtain ⟨value, hvalue, hv⟩ := (ht.mem_vars_mapping_iff hl hd hm).2 (Or.inr hv)
    exact hclosed value hvalue v hv hpos
  · intro hstray value hvalue v hv hpos
    rcases (ht.mem_vars_mapping_iff hl hd hm).1 ⟨value, hvalue, hv⟩ with hv | hv
    · exact hv
    · exact hstray v hv hpos

/-- The values of slots, expanded by the arguments of an instance, are the arguments of its
projections, if the primary bases of the chain are in terms of the type parameters of their classes.

**Proof sketch.** A slot stores an argument of the projection of the class onto the origin. The
instance is the class expanded by its arguments, and the expansion may be put off until after the
projection. -/
lemma Describes.exists_projection_expand (ht : t.Describes h) (hl : h.HasLayout t.policy c l)
    (hd : h.find? c = some d) (hm : (t.compile h c).result = .ok mapping)
    (hclosed : ∀ o ∈ l.chain, ∀ e ∈ h.find? o, e.ClosedBase) {i : Instance} (hi : i.cls = c)
    (hlen : i.args.length = d.arity) {s : Nat} {value : Ty} (hvalue : mapping[s]? = some value) :
    ∃ o k j, t.slotOrigin h c s = .ok (o, k) ∧ h.supertype i o = pure j ∧
      j.args[k]? = some (value.expand (d.assignArgs i.args)) := by
  obtain ⟨mapping', hm', hsize, hstored⟩ := ht.exists_compile hl hd
  obtain rfl : mapping' = mapping := Except.ok.inj (hm'.symm.trans hm)
  have hs : s < l.numSlots := hsize ▸ (List.getElem?_eq_some_iff.1 hvalue).1
  obtain ⟨o, k, n, value', horigin, hn, hk⟩ := ht.exists_argument hl hd hs
  obtain rfl : value = value' := Option.some.inj (hvalue.symm.trans (hstored hs horigin hn hk))
  have hchecked := hl.checked_of_find? hd
  have hself : (⟨c, d.selfArgs⟩ : Instance).expand (d.assignArgs i.args) = i := by
    rw [Instance.expand, ClassDef.map_expand_selfArgs hchecked.nodup hlen, ← hi]
  refine ⟨o, k, _, horigin, Hierarchy.supertype_of_chain hl hi hn, ?_⟩
  rw [← hself, Hierarchy.iterate_primarySupertype_expand hl rfl hd d.length_selfArgs hclosed
    (fun v => get?_assignArgs_of_not_isClassParameter hchecked i.args) n, hself,
    Instance.args_expand, List.getElem?_map, hk, Option.map_some]

/-! ## When a mapping is closed -/

/-- Every class of a hierarchy below the limit of identifiers has a mapping. At any verbosity, a
mapping is in terms of the type parameters of its class exactly if the strays of the chain are among
them.

**Proof sketch.** If a mapping is given, the class has a layout, so the table describes the
hierarchy. The variables of the mapping are known from `Describes.closes_mapping_iff`. If no
variable strays that can be a type parameter, all bases of the chain are closed, and the expanded
values are the arguments of projections. -/
theorem mappingVars_of_compile {policy : SlotPolicy} (hs : h.size ≤ ClassId.limit)
    (ht : (build h policy).result = .ok t) (hd : h.find? c = some d) :
    (h.size < ClassId.limit → ∃ mapping, ((t.compile h c).observe h .off).result = .ok mapping) ∧
    ∀ v mapping, ((t.compile h c).observe h v).result = .ok mapping →
      ∃ chain, t.chain h c = .ok chain ∧ t.MappingVars h c d chain mapping := by
  constructor
  · intro hlt
    obtain ⟨-, hdescribes⟩ := describes_of_build hlt ht
    obtain ⟨l, hl⟩ := hdescribes.exists_hasLayout (Hierarchy.isDefined_iff.2 ⟨d, hd⟩)
    obtain ⟨mapping, hmapping, -⟩ := hdescribes.exists_compile hl hd
    exact ⟨mapping, by rw [Run.result_observe_off, hmapping]⟩
  · intro v mapping hm
    have hm := Run.result_of_observe hm
    obtain ⟨_, hlayout⟩ := exists_layout_of_compile hm
    obtain ⟨-, hdescribes⟩ := describes_of_layout hs ht hlayout
    obtain ⟨l, hl⟩ := hdescribes.exists_hasLayout (Hierarchy.isDefined_iff.2 ⟨d, hd⟩)
    refine ⟨l.chain, hdescribes.chain_eq hl, hdescribes.closes_mapping_iff hl hd hm, ?_, ?_⟩
    · intro hclosed args hlen value hvalue w hw hpos
      exact (hclosed value hvalue).mem_vars_of_expand (Nat.le_of_eq hlen.symm) hw hpos
    · intro hstray i hi hlen s value hvalue
      have hclosed : ∀ o ∈ l.chain, ∀ e ∈ h.find? o, e.ClosedBase := fun o ho e he =>
        ClassDef.closedBase_of_forall_not_stray fun w hpos hw =>
          absurd (hstray w ⟨o, ho, e, he, hw⟩) (by simp [hpos])
      exact hdescribes.exists_projection_expand hl hd hm hclosed hi hlen hvalue

/-- The chain of the class at the bottom has no strays, so its mapping is in terms of its type
parameter. -/
theorem mappingVars_of_compile_leaf :
    (Twisted.hierarchy.size < ClassId.limit → ∃ mapping,
      ((Twisted.table.compile Twisted.hierarchy ⟨4⟩).observe Twisted.hierarchy .off).result =
        .ok mapping) ∧
    ∀ v mapping,
      ((Twisted.table.compile Twisted.hierarchy ⟨4⟩).observe Twisted.hierarchy v).result =
        .ok mapping →
      ∃ chain, Twisted.table.chain Twisted.hierarchy ⟨4⟩ = .ok chain ∧
        Twisted.table.MappingVars Twisted.hierarchy ⟨4⟩ Twisted.leaf chain mapping :=
  mappingVars_of_compile (by decide) Twisted.build_hierarchy rfl

end SlotTable

/-! ## A variable that strays -/

namespace Boxed

/-- A class with a type parameter and without bases. -/
def box : ClassDef :=
  ⟨"Box", false, [⟨"T", ⟨1⟩⟩], [], [⟨1⟩]⟩

/-- A class without type parameters that passes a type to `box`. The type may be anything, so it may
mention a variable. -/
def bag (t : Ty) : ClassDef :=
  ⟨"Bag", false, [], [⟨⟨1⟩, [t]⟩], [⟨2⟩, ⟨1⟩]⟩

/-- The two classes below the class that every hierarchy starts with, where the type is left
open. -/
def hierarchy (t : Ty) : Hierarchy where
  classes := #[.fresh "object" .object, box, bag t]
  names := ∅

/-- The slots of the classes, which the type does not change. -/
def table : SlotTable where
  policy := .appended
  layouts := #[
    ⟨#[⟨⟨0⟩, 0⟩], []⟩,
    ⟨#[⟨⟨1⟩, 1⟩], [0]⟩,
    ⟨#[⟨⟨1⟩, 1⟩, ⟨⟨2⟩, 1⟩], []⟩]

/-- A hierarchy has a table although a variable strays, and the variable ends up in a mapping. The
class has no type parameters, so its mapping should have no variables. -/
theorem not_closes_mapping :
    (SlotTable.build (hierarchy (.var ⟨5⟩)) .appended).result = .ok table ∧
      ((table.compile (hierarchy (.var ⟨5⟩)) ⟨2⟩).observe (hierarchy (.var ⟨5⟩)) .off).result =
        .ok [.var ⟨5⟩] ∧
      (hierarchy (.var ⟨5⟩)).find? ⟨2⟩ = some (bag (.var ⟨5⟩)) ∧
      ¬∀ value ∈ [Ty.var ⟨5⟩], (bag (.var ⟨5⟩)).Closes value := by
  refine ⟨?_, ?_, rfl, ?_⟩
  · decide +kernel
  · decide +kernel
  · decide

end Boxed

end GenericSlots
