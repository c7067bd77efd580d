import GenericSlots.Proofs.Log.Legible
import GenericSlots.Proofs.Slot.Construction
import GenericSlots.Proofs.Slot.Outline
import GenericSlots.Proofs.Slot.Validity
set_option autoImplicit false

/-!
# Validation is exact

A hierarchy is laid out exactly if all its classes are valid. The checks are spread over the climbs
and the layouts, and each class is checked once, on whichever climb meets it first. So what is shown
here of each step is that it fails only with an error that says what is wrong with the hierarchy. A
run that succeeds gives all classes layouts, and classes with layouts are valid.

## Main definitions

* `GenericSlots.Hierarchy.FailsByDefect`: a computation that fails only with an error that says what
  is wrong.
* `GenericSlots.Hierarchy.Ready`: classes that may be laid out one after another.
* `GenericSlots.Hierarchy.LaysOut`, `GenericSlots.Hierarchy.ReadsWithin`: a class that is laid out
  at some point of a run, and what is there to read at that point.

## Main results

* `GenericSlots.Hierarchy.ready_of_climb`: a climb passes classes in an order in which they can be
  laid out.
* `GenericSlots.SlotTable.failsByDefect_build`: a hierarchy is refused only for something that is
  wrong with it.
* `GenericSlots.SlotTable.build_accepts_iff_valid`: a reachable hierarchy is accepted exactly if all
  its classes are valid.
-/

namespace GenericSlots

/-- A type parameter that is found to be invalid has an identifier that is not positive, was seen
before or belongs to a type parameter before it.

**Proof sketch.** By induction on the type parameters, with those seen before kept general. The
first one is the one that is found, or it is valid and added to those seen, and the one that is
found comes after it. -/
lemma TypeParam.exists_of_firstInvalid? {seen : List VarId} {ps : List TypeParam} {p : TypeParam}
    (hp : TypeParam.firstInvalid? seen ps = some p) :
    ∃ before after, ps = before ++ p :: after ∧
      (p.id.isClassParameter = false ∨ p.id ∈ seen ∨ p.id ∈ before.map TypeParam.id) := by
  induction ps generalizing seen with
  | nil => cases hp
  | cons q ps ih =>
    rw [firstInvalid?] at hp
    by_cases hq : q.id.isClassParameter = true ∧ q.id ∉ seen
    · rw [if_pos hq] at hp
      obtain ⟨before, after, rfl, hinvalid⟩ := ih hp
      refine ⟨q :: before, after, rfl, ?_⟩
      rw [List.map_cons, List.mem_cons]
      rw [List.mem_cons] at hinvalid
      tauto
    · rw [if_neg hq] at hp
      obtain rfl := Option.some.inj hp
      refine ⟨[], ps, rfl, ?_⟩
      rw [Decidable.not_and_iff_or_not, Bool.not_eq_true, Decidable.not_not] at hq
      exact hq.imp_right Or.inl

namespace Hierarchy

open Relation (ReflTransGen TransGen)

/-! ## Failures -/

/-- A computation that fails only with an error that says what is wrong with the hierarchy, and
never because a class is read that is not defined. So this also rules out faults. -/
def FailsByDefect {α : Type} (h : Hierarchy) (x : Except (Failure SlotError) α) : Prop :=
  ∀ f, x = .error f → ∃ e, f = .error e ∧ h.Defect e

section FailsByDefect

variable {α β : Type} {h : Hierarchy}

/-- A computation that succeeds does not fail. -/
lemma failsByDefect_ok (a : α) : h.FailsByDefect (.ok a) :=
  fun _ hf => by cases hf

/-- Refusing is allowed if the error says what is wrong. -/
lemma failsByDefect_refuse {e : SlotError} (he : h.Defect e) :
    h.FailsByDefect (refuse e : Except (Failure SlotError) α) := by
  intro f hf
  exact ⟨e, (Except.error.inj hf).symm, he⟩

/-- A computation in steps fails only for a defect if each step does. The second step may rely on
what the first one gave.

**Proof sketch.** A failure is one of the first step or, if that succeeds, one of the second. -/
lemma FailsByDefect.bind {x : Except (Failure SlotError) α}
    {k : α → Except (Failure SlotError) β} (hx : h.FailsByDefect x)
    (hk : ∀ a, x = .ok a → h.FailsByDefect (k a)) : h.FailsByDefect (x >>= k) := by
  intro f hf
  cases hxa : x with
  | error f' =>
    rw [hxa] at hf
    obtain rfl : f' = f := Except.error.inj hf
    exact hx f' hxa
  | ok a =>
    rw [hxa] at hf
    exact hk a hxa f hf

end FailsByDefect

variable {h : Hierarchy} {policy : SlotPolicy} {ls : Layouts} {c : ClassId}

/-! ## Climbing -/

/-- A climb fails only for a defect: the primary base that is not defined is one, and a class that
is met again is part of a cycle.

**Proof sketch.** By the recursion of the climb, where the invariant is that primary bases lead from
each class passed before to the present one. If the present one was passed before, they lead from it
back to itself. Otherwise it is defined, and the climb ends, goes on to its primary base, which
keeps the invariant, or fails because the base is not defined. -/
lemma failsByDefect_climb {walk : List ClassId} (hc : h.IsDefined c)
    (hwalk : ∀ a ∈ walk, TransGen h.PrimaryBase a c) : h.FailsByDefect (h.climb ls walk c) := by
  obtain ⟨d, hd⟩ := isDefined_iff.1 hc
  fun_induction climb h ls walk c generalizing d with
  | case1 walk c hsome => exact failsByDefect_ok walk
  | case2 walk c hnone hfresh ih =>
    simp only [get_eq_ok_iff.2 hd, liftM_ok, ok_bind]
    cases hb : d.primaryBase? with
    | none => exact failsByDefect_ok (c :: walk)
    | some base =>
      by_cases hdef : h.IsDefined base.cls
      · have hstep : h.PrimaryBase c base.cls := ⟨d, base, hd, hb, rfl⟩
        obtain ⟨b, hfind⟩ := isDefined_iff.1 hdef
        simp only [if_pos hdef]
        refine ih base hdef ?_ b hfind
        intro a ha
        rcases List.mem_cons.1 ha with rfl | ha
        · exact .single hstep
        · exact (hwalk a ha).tail hstep
      · simp only [if_neg hdef]
        exact failsByDefect_refuse (.undefinedBase hd hb hdef)
  | case3 walk c hnone hstale =>
    have hmem : c ∈ walk := Decidable.not_not.1 fun hnot => hstale ⟨hc, hnot⟩
    simp only [nameOf, get_eq_ok_iff.2 hd, ok_bind]
    exact failsByDefect_refuse (.cyclicHierarchy hd (hwalk c hmem))

/-- Classes that may be laid out one after another, where some classes are done before: the primary
base of each is done when its turn comes. The classes that are done grow along the list. -/
inductive Ready (h : Hierarchy) : (ClassId → Prop) → List ClassId → Prop
  /-- There is nothing to lay out. -/
  | nil {done : ClassId → Prop} : Ready h done []
  /-- The first class may be laid out, and then the others. -/
  | cons {done : ClassId → Prop} {c : ClassId} {cs : List ClassId} (defined : h.IsDefined c)
      (baseDone : ∀ b, h.PrimaryBase c b → done b) (rest : Ready h (fun a => a = c ∨ done a) cs) :
      Ready h done (c :: cs)

/-- If more classes are done before, the same classes may be laid out. -/
lemma Ready.mono {done done' : ClassId → Prop} {cs : List ClassId} (hcs : h.Ready done cs)
    (hdone : ∀ a, done a → done' a) : h.Ready done' cs := by
  induction hcs generalizing done' with
  | nil => exact .nil
  | cons hc hb _ ih =>
    exact .cons hc (fun b hstep => hdone b (hb b hstep)) (ih fun a ha => ha.imp_right (hdone a))

/-- A climb passes classes in an order in which they can be laid out, if the classes passed before
can be laid out once its class is.

**Proof sketch.** By the recursion of the climb. At a class that is laid out, those passed before
can be laid out by assumption. A class without bases comes first and needs nothing to be done.
Otherwise the class is put before those passed, its primary base is done first, and the climb goes
on from there. -/
theorem ready_of_climb {walk w : List ClassId}
    (hwalk : h.Ready (fun a => a = c ∨ (ls.of? a).isSome) walk) (hok : h.climb ls walk c = .ok w) :
    h.Ready (fun a => (ls.of? a).isSome) w := by
  fun_induction climb h ls walk c with
  | case1 walk c hsome =>
    obtain rfl : walk = w := Except.ok.inj hok
    refine hwalk.mono ?_
    rintro a (rfl | ha)
    · exact hsome
    · exact ha
  | case2 walk c hnone hfresh ih =>
    obtain ⟨d, hd, hok⟩ := bind_eq_ok_iff.1 hok
    rw [liftM_eq_ok_iff, get_eq_ok_iff] at hd
    cases hb : d.primaryBase? with
    | none =>
      simp only [hb] at hok
      obtain rfl : c :: walk = w := Except.ok.inj hok
      refine .cons hfresh.1 ?_ hwalk
      rintro b ⟨d', base, hd', hb', rfl⟩
      obtain rfl := Option.some.inj (hd.symm.trans hd')
      cases hb.symm.trans hb'
    | some base =>
      simp only [hb] at hok
      by_cases hdef : h.IsDefined base.cls
      · rw [if_pos hdef] at hok
        refine ih base (.cons hfresh.1 ?_ ?_) hok
        · rintro b ⟨d', base', hd', hb', rfl⟩
          obtain rfl := Option.some.inj (hd.symm.trans hd')
          obtain rfl := Option.some.inj (hb.symm.trans hb')
          exact Or.inl rfl
        · exact hwalk.mono fun a ha => ha.imp_right Or.inr
      · rw [if_neg hdef] at hok
        cases hok
  | case3 walk c hnone hstale =>
    obtain ⟨name, -, hok⟩ := bind_eq_ok_iff.1 hok
    cases hok

/-! ## Laying out -/

/-- Extending the layout of the primary base fails only for a defect, if there is a layout to
extend.

**Proof sketch.** The base is defined, because it has a layout. If its arity check fails, the error
is that of an invalid base. If a class of its chain is not listed, this class is met by following
primary bases, so the error is that of an unlisted class. -/
private lemma failsByDefect_extendBase (hls : ls.Sound h policy) {d : ClassDef} {base : Instance}
    (hd : h.find? c = some d) (hb : d.primaryBase? = some base)
    (hsome : (ls.of? base.cls).isSome) : h.FailsByDefect (h.extendBase policy ls c d base) := by
  obtain ⟨lb, hlb⟩ := Option.isSome_iff_exists.1 hsome
  have hlayout := hls.hasLayout _ _ hlb
  obtain ⟨b, hchecked⟩ := hlayout.checked
  have hfind := hchecked.find
  simp only [extendBase, hfind, hlb]
  by_cases harity : base.args.length = b.arity
  · rw [if_pos harity]
    by_cases hlisted : ∀ a ∈ lb.chain, a ∈ d.ancestors
    · rw [if_pos hlisted]
      exact failsByDefect_ok _
    · rw [if_neg hlisted]
      simp only [not_forall] at hlisted
      obtain ⟨a, ha, hmissing⟩ := hlisted
      have hstep : h.PrimaryBase c base.cls := ⟨d, base, hd, hb, rfl⟩
      have hmet : ReflTransGen h.PrimaryBase c a := .head hstep (hlayout.mem_chain_iff.1 ha)
      obtain ⟨la, hla, -⟩ := hlayout.of_mem_chain ha
      obtain ⟨da, hda⟩ := hla.checked
      exact failsByDefect_refuse (.unlisted hd hmet (isDefined_iff.2 ⟨da, hda.find⟩) hmissing)
  · rw [if_neg harity]
    exact failsByDefect_refuse (.invalidBase hd hb hfind harity)

/-- A class is refused only for a defect, if its primary base is laid out.

**Proof sketch.** The checks are gone through in order. An invalid type parameter and a class that
is not the first of its ancestors are defects. What remains is extending the layout of the base,
which is there. -/
lemma failsByDefect_layOut (hls : ls.Sound h policy) (hc : h.IsDefined c)
    (hbase : ∀ b, h.PrimaryBase c b → (ls.of? b).isSome) :
    h.FailsByDefect (h.layOut policy ls c) := by
  obtain ⟨d, hd⟩ := isDefined_iff.1 hc
  rw [layOut_eq_checks hd]
  cases hp : TypeParam.firstInvalid? [] d.params with
  | some p =>
    obtain ⟨before, after, hdeclared, hinvalid⟩ := TypeParam.exists_of_firstInvalid? hp
    have hinvalid' : p.id.isClassParameter = false ∨ p.id ∈ before.map TypeParam.id := by
      simpa using hinvalid
    exact failsByDefect_refuse (.invalidTypeParameter hd hdeclared hinvalid')
  | none =>
    by_cases hhead : d.ancestors.head? = some c
    · simp only [if_pos hhead]
      cases hb : d.primaryBase? with
      | none => exact failsByDefect_ok _
      | some base =>
        exact failsByDefect_extendBase hls hd hb (hbase _ ⟨d, base, hd, hb, rfl⟩)
    · simp only [if_neg hhead]
      exact failsByDefect_refuse (.notFirst hd hhead)

/-- Laying out classes in an order in which they can be laid out fails only for a defect.

**Proof sketch.** By induction on the classes, with the layouts kept general. The primary base of
the first class is laid out, so it is refused only for a defect. If it is laid out, it counts as
done for the others. -/
lemma failsByDefect_layOutAll {cs : List ClassId} (hls : ls.Sound h policy)
    (hcs : h.Ready (fun a => (ls.of? a).isSome) cs) :
    h.FailsByDefect (h.layOutAll policy ls cs).result := by
  induction cs generalizing ls with
  | nil => exact failsByDefect_ok ls
  | cons c cs ih =>
    cases hcs with
    | cons hc hbase hrest =>
      rw [layOutAll, Run.result_bind]
      refine (failsByDefect_layOut hls hc hbase).bind fun l hl => ?_
      have hlayout := hasLayout_of_layOut hls hl
      rw [Run.result_bind, Run.result_report, ok_bind]
      refine ih (hls.set hlayout) (hrest.mono fun a ha => ?_)
      rw [Layouts.of?_set (hls.index_lt hlayout)]
      by_cases hca : c = a
      · simp [hca]
      · rw [if_neg hca]
        exact ha.resolve_left (Ne.symm hca)

/-- Laying out classes with their primary chains fails only for a defect.

**Proof sketch.** By induction on the classes, with the layouts kept general. The climb fails only
for a defect and passes classes that can be laid out, and laying them out keeps the layouts
sound. -/
lemma failsByDefect_layOutChains {cs : List ClassId} (hls : ls.Sound h policy)
    (hcs : ∀ c ∈ cs, h.IsDefined c) : h.FailsByDefect (h.layOutChains policy ls cs).result := by
  induction cs generalizing ls with
  | nil => exact failsByDefect_ok ls
  | cons c cs ih =>
    rw [layOutChains, Run.result_bind]
    refine (failsByDefect_climb (hcs c List.mem_cons_self) (by simp)).bind fun walk hwalk => ?_
    rw [Run.result_bind]
    refine (failsByDefect_layOutAll hls (ready_of_climb .nil hwalk)).bind fun ls' hls' => ?_
    obtain ⟨hsound, -⟩ := layOutAll_sound hls hls'
    exact ih hsound fun c hc => hcs c (List.mem_cons_of_mem _ hc)

/-! ## Reading and reporting -/

/-- The class is laid out in the course of laying out the hierarchy, and the layouts are those that
are there at this point. The classes `done` and the climb from them came before, and so did the part
`before` of the present climb. -/
def LaysOut (h : Hierarchy) (policy : SlotPolicy) (ls : Layouts) (c : ClassId) : Prop :=
  ∃ done start rest ls₀ before after, h.classIds = done ++ start :: rest ∧
    (h.layOutChains policy (Array.replicate h.size none) done).result = .ok ls₀ ∧
    h.climb ls₀ [] start = .ok (before ++ c :: after) ∧
    (h.layOutAll policy ls₀ before).result = .ok ls

/-- What is read of layouts to lay out a class is there: a place for every class, and a slot of the
primary base for each of its arguments. So no index of the computation is out of bounds. -/
structure ReadsWithin (h : Hierarchy) (ls : Layouts) (c : ClassId) : Prop where
  /-- There is a place for every class. -/
  places : ls.size = h.size
  /-- A primary base that passes its check has a slot for each of its arguments. -/
  slots : ∀ d base l, h.find? c = some d → d.primaryBase? = some base →
    h.isWellFormed base = .ok true → ls.of? base.cls = some l →
    l.paramSlots.length = base.args.length

/-- No class is laid out that reads beyond what is there. The layouts at each point of the run are
sound, which is all that this needs.

**Proof sketch.** The classes laid out before keep the layouts sound. So there is a place for every
class, and the layout of a primary base has as many slots for type parameters as the base has
arguments. -/
lemma LaysOut.readsWithin (hrun : h.LaysOut policy ls c) : h.ReadsWithin ls c := by
  obtain ⟨done, start, rest, ls₀, before, after, -, hdone, -, hbefore⟩ := hrun
  obtain ⟨hls₀, -⟩ := layOutChains_sound (Layouts.sound_replicate h policy) hdone
  obtain ⟨hls, -⟩ := layOutAll_sound hls₀ hbefore
  refine ⟨hls.size_eq, fun d base l _ _ hwell hl => ?_⟩
  have hlayout := hls.hasLayout _ _ hl
  obtain ⟨b, hchecked⟩ := hlayout.checked
  have hlen := hlayout.length_paramSlots hchecked.find
  simp only [isWellFormed, get_eq_ok_iff.2 hchecked.find, ok_bind] at hwell
  have harity : (base.args.length == b.arity) = true := Except.ok.inj hwell
  rw [hlen, beq_iff_eq.1 harity]

/-- Only classes that are defined are reported to be laid out, so the text of each report can be
given. -/
private lemma legible_layOutAll (cs : List ClassId) :
    (h.layOutAll policy ls cs).Legible h := by
  induction cs generalizing ls with
  | nil => exact Run.legible_pure ls
  | cons c cs ih =>
    rw [layOutAll]
    refine (Run.legible_liftM _).bind fun l hl => ?_
    obtain ⟨d, hd⟩ := checked_of_layOut hl
    have hc : h.IsDefined c := isDefined_iff.2 ⟨d, hd.find⟩
    exact (Run.legible_report (Event.exists_text_layoutComputed hc _)).bind fun _ _ => ih

/-- The same holds when classes are laid out with their primary chains, since climbing reports
nothing. -/
private lemma legible_layOutChains (cs : List ClassId) :
    (h.layOutChains policy ls cs).Legible h := by
  induction cs generalizing ls with
  | nil => exact Run.legible_pure ls
  | cons c cs ih =>
    rw [layOutChains]
    exact (Run.legible_liftM _).bind fun walk _ => (legible_layOutAll walk).bind fun _ _ => ih

end Hierarchy

namespace SlotTable

variable {h : Hierarchy} {policy : SlotPolicy}

/-- Laying out a hierarchy reports only what has a text, so recording the reports cannot fail. -/
lemma legible_build (h : Hierarchy) (policy : SlotPolicy) : (build h policy).Legible h :=
  (Hierarchy.legible_layOutChains _).bind fun _ _ =>
    (Run.legible_report ⟨_, rfl⟩).bind fun _ _ => Run.legible_pure _

/-- A hierarchy below the limit of identifiers is refused only for something that is wrong with it.
In particular it is laid out without a fault, whatever its classes declare. -/
theorem failsByDefect_build (hs : h.size < ClassId.limit) :
    h.FailsByDefect (build h policy).result := by
  rw [build, Run.result_bind]
  have hids : ∀ c ∈ h.classIds, h.IsDefined c := fun c hc => (Hierarchy.mem_classIds hs).1 hc
  refine (Hierarchy.failsByDefect_layOutChains (Layouts.sound_replicate h policy) hids).bind ?_
  intro ls _
  exact Hierarchy.failsByDefect_ok _

/-- All classes of a hierarchy that is accepted are valid, since they have layouts. -/
lemma valid_of_build {t : SlotTable} (hs : h.size < ClassId.limit)
    (ht : (build h policy).result = .ok t) {c : ClassId} {d : ClassDef} (hd : h.find? c = some d) :
    h.Valid c d := by
  obtain ⟨-, hdescribes⟩ := describes_of_build hs ht
  obtain ⟨l, hl⟩ := hdescribes.exists_hasLayout (Hierarchy.isDefined_iff.2 ⟨d, hd⟩)
  exact hl.valid hd

/-- A hierarchy is accepted if all its classes are valid and the first of their ancestors. Otherwise
it would be refused for a defect, and some class would not be valid. -/
lemma exists_build_of_valid (hs : h.size < ClassId.limit) (hself : h.SelfFirst)
    (hvalid : ∀ c d, h.find? c = some d → h.Valid c d) :
    ∃ t, (build h policy).result = .ok t := by
  cases hbuild : (build h policy).result with
  | ok t => exact ⟨t, rfl⟩
  | error f =>
    obtain ⟨e, -, he⟩ := failsByDefect_build hs f hbuild
    obtain ⟨c, d, hd, hnot⟩ := he.exists_not_valid hself
    exact absurd (hvalid c d hd) hnot

/-- A hierarchy is accepted if all its classes have layouts, since these classes are valid and the
first of their ancestors. -/
lemma exists_build_of_hasLayout (hs : h.size < ClassId.limit)
    (hl : ∀ c, h.IsDefined c → ∃ l, h.HasLayout policy c l) :
    ∃ t, (build h policy).result = .ok t := by
  have hfind : ∀ c d, h.find? c = some d → ∃ l, h.HasLayout policy c l := fun c d hd =>
    hl c (Hierarchy.isDefined_iff.2 ⟨d, hd⟩)
  refine exists_build_of_valid hs (fun c d hd => ?_) fun c d hd => ?_
  · obtain ⟨l, hlayout⟩ := hfind c d hd
    exact (hlayout.checked_of_find? hd).head
  · obtain ⟨l, hlayout⟩ := hfind c d hd
    exact hlayout.valid hd

/-- A reachable hierarchy below the limit of identifiers is laid out without a fault and without
reading beyond what is there. It is accepted exactly if all its classes are valid, and a hierarchy
of the same outlines has the same verdict, whatever policy it is laid out by. None of this hangs on
what is recorded.

**Proof sketch.** Recording does not change the result. A failure is due to a defect and so is no
fault. Classes of an accepted hierarchy have layouts and are valid, and a hierarchy of valid classes
has no defect. That the verdict depends on outlines only is `verdict_congr`. -/
theorem build_accepts_iff_valid (hr : h.Reachable) (hs : h.size < ClassId.limit)
    (policy : SlotPolicy) (v : Verbosity) :
    (∀ f, ((build h policy).observe h v).result ≠ .error (.fault f)) ∧
      (∀ ls c, h.LaysOut policy ls c → h.ReadsWithin ls c) ∧
      ((∃ t, ((build h policy).observe h v).result = .ok t) ↔
        ∀ c d, h.find? c = some d → h.Valid c d) ∧
      ∀ h' policy' v', h'.outlines = h.outlines →
        ((build h' policy').observe h' v').result.map (fun _ => ()) =
          ((build h policy).observe h v).result.map fun _ => () := by
  rw [(legible_build h policy).result_observe]
  refine ⟨?_, fun ls c hrun => hrun.readsWithin, ?_, ?_⟩
  · intro f hf
    obtain ⟨e, he, -⟩ := failsByDefect_build hs _ hf
    cases he
  · constructor
    · rintro ⟨t, ht⟩ c d hd
      exact valid_of_build hs ht hd
    · exact exists_build_of_valid hs hr.selfFirst
  · intro h' policy' v' ho
    rw [(legible_build h' policy').result_observe]
    exact verdict_congr ho policy' policy

/-- A hierarchy with a generic class and one that extends it. The second base of the latter is the
class itself, with an argument too many. Neither the cycle nor the arity of this base is checked. -/
def boxes : Hierarchy :=
  ((((((Hierarchy.initial.add "Box").update ⟨1⟩ fun d => d.declareParam ⟨"T", ⟨1⟩⟩).add
    "Crate").update ⟨2⟩ fun d => { d with bases := d.bases ++ [⟨⟨1⟩, [.any]⟩] }).update ⟨2⟩
    fun d => { d with bases := d.bases ++ [⟨⟨2⟩, [.any]⟩] }).update ⟨2⟩
    fun d => { d with ancestors := [⟨2⟩, ⟨1⟩] })

/-- The hierarchy is made by the changes that a program makes, starting from the one that every
program starts with. -/
lemma reachable_boxes : boxes.Reachable :=
  Hierarchy.Reachable.initial.changes
    [.alloc "Box", .declareParam ⟨1⟩ ⟨"T", ⟨1⟩⟩, .alloc "Crate", .addBase ⟨2⟩ ⟨⟨1⟩, [.any]⟩,
      .addBase ⟨2⟩ ⟨⟨2⟩, [.any]⟩, .setAncestors ⟨2⟩ [⟨1⟩]] rfl

/-- The hierarchy of boxes is accepted, because the second base does not count. -/
theorem build_accepts_iff_valid_boxes :
    (∀ f, ((build boxes .shared).observe boxes .trace).result ≠ .error (.fault f)) ∧
      (∀ ls c, boxes.LaysOut .shared ls c → boxes.ReadsWithin ls c) ∧
      ((∃ t, ((build boxes .shared).observe boxes .trace).result = .ok t) ↔
        ∀ c d, boxes.find? c = some d → boxes.Valid c d) ∧
      ∀ h' policy' v', h'.outlines = boxes.outlines →
        ((build h' policy').observe h' v').result.map (fun _ => ()) =
          ((build boxes .shared).observe boxes .trace).result.map fun _ => () :=
  build_accepts_iff_valid reachable_boxes (by decide) .shared .trace

end SlotTable

end GenericSlots
