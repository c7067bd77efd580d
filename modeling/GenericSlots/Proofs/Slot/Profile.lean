import GenericSlots.Proofs.Slot.Mapping
set_option autoImplicit false

/-!
# What slots and mappings hang on

Of a class, only the identifiers of its type parameters and its primary base count for its slots and
its mapping. Two hierarchies that agree in these, and both have a table under the same policy, get
the same answers, whatever else their classes declare.

## Main definitions

* `GenericSlots.ClassDef.profile`: the parts of a class that count.
* `GenericSlots.Hierarchy.profiles`: the parts of all classes that count.
* `GenericSlots.SlotTable.CoveredBy`: a table all of whose layouts another has too.
* `GenericSlots.SlotTable.AnswersAlike`: tables that give the same answers.

## Main results

* `GenericSlots.Hierarchy.HasLayout.eq_of_profiles`,
  `GenericSlots.Hierarchy.primarySupertype_of_profiles`: layouts and projections hang on the
  profiles.
* `GenericSlots.SlotTable.coveredBy_of_profiles`: the tables of hierarchies of the same profiles
  have the same layouts.
* `GenericSlots.SlotTable.answersAlike_of_profiles`: they give the same answers.
-/

namespace GenericSlots

/-! ## Profiles -/

/-- The parts of a class that its slots and its mapping hang on. The ancestors, the other bases and
all names are left out. -/
structure ClassDef.Profile where
  /-- The identifiers of the type parameters, in order. -/
  params : List VarId
  /-- The primary base. -/
  base? : Option Instance
  deriving DecidableEq

/-- The profile of a class as it is declared. -/
def ClassDef.profile (d : ClassDef) : Profile where
  params := d.params.map TypeParam.id
  base? := d.primaryBase?

/-- The parts of all classes that their slots and mappings hang on, in the order of identifiers. -/
def Hierarchy.profiles (h : Hierarchy) : Array ClassDef.Profile :=
  h.classes.map ClassDef.profile

namespace ClassDef

variable {d d' : ClassDef} (hp : d.profile = d'.profile)

include hp

/-- Classes of the same profile have type parameters of the same identifiers, in the same order. -/
lemma ids_of_profile : d.params.map TypeParam.id = d'.params.map TypeParam.id :=
  congrArg Profile.params hp

/-- Classes of the same profile have the same primary base, with its arguments. -/
lemma primaryBase?_of_profile : d.primaryBase? = d'.primaryBase? :=
  congrArg Profile.base? hp

/-- Classes of the same profile have as many type parameters. -/
lemma arity_of_profile : d.arity = d'.arity := by
  simpa [arity] using congrArg List.length (ids_of_profile hp)

/-- The arguments of a class within itself are its type parameters, of which only the identifiers
count. -/
lemma selfArgs_of_profile : d.selfArgs = d'.selfArgs := by
  have hself : ∀ d : ClassDef, d.selfArgs = (d.params.map TypeParam.id).map Ty.var := fun d => by
    rw [selfArgs, List.map_map]
    rfl
  rw [hself, hself, ids_of_profile hp]

/-- Arguments are assigned to the identifiers of type parameters, so the assignments are the
same. -/
lemma assignArgs_of_profile (args : List Ty) : d.assignArgs args = d'.assignArgs args := by
  rw [assignArgs, assignArgs, ids_of_profile hp]

end ClassDef

namespace Hierarchy

variable {h h' : Hierarchy} {policy : SlotPolicy} (hp : h.profiles = h'.profiles)

include hp

/-- Hierarchies of the same profiles have as many classes. -/
lemma size_eq_of_profiles : h.size = h'.size := by
  simpa [profiles, size] using congrArg Array.size hp

/-- A class is defined in both hierarchies, with the same profile, or in none. -/
lemma find?_of_profiles (c : ClassId) :
    h.find? c = none ∧ h'.find? c = none ∨
      ∃ d d', h.find? c = some d ∧ h'.find? c = some d' ∧ d.profile = d'.profile :=
  find?_of_map_eq hp c

/-- A class that is defined in the one hierarchy is defined in the other, with the same profile. -/
lemma exists_find?_of_profiles {c : ClassId} {d : ClassDef} (hd : h.find? c = some d) :
    ∃ d', h'.find? c = some d' ∧ d.profile = d'.profile := by
  rcases find?_of_profiles hp c with ⟨hnone, -⟩ | ⟨e, d', he, hd', heq⟩
  · cases hnone.symm.trans hd
  · obtain rfl := Option.some.inj (he.symm.trans hd)
    exact ⟨d', hd', heq⟩

/-- Layouts hang on the profiles: if a class has a layout in both hierarchies, it has the same. It
may have one in only one of them, since the ancestors decide that too.

**Proof sketch.** By induction on the first layout. The class has the same primary base in both
hierarchies, or none. The layouts of the base are the same, and they are extended by the same
identifiers. -/
theorem HasLayout.eq_of_profiles {c : ClassId} {l l' : Layout} (hl : h.HasLayout policy c l)
    (hl' : h'.HasLayout policy c l') : l = l' := by
  induction hl generalizing l' with
  | root hd hb =>
    obtain ⟨d', hd', heq⟩ := exists_find?_of_profiles hp hd.find
    rw [hl'.eq_root hd' (ClassDef.primaryBase?_of_profile heq ▸ hb), ClassDef.arity_of_profile heq]
  | extend hd hb _ _ _ _ ih =>
    obtain ⟨d', hd', heq⟩ := exists_find?_of_profiles hp hd.find
    obtain ⟨b', lb', -, -, hlb', -, rfl⟩ :=
      hl'.eq_extend hd' (ClassDef.primaryBase?_of_profile heq ▸ hb)
    rw [ih hlb', ClassDef.ids_of_profile heq]

/-- Projections onto primary bases hang on the profiles, since the base and the identifiers that
arguments are assigned to are part of them. -/
theorem primarySupertype_of_profiles : h.primarySupertype = h'.primarySupertype := by
  funext i
  unfold primarySupertype
  rcases find?_of_profiles hp i.cls with ⟨hd, hd'⟩ | ⟨d, d', hd, hd', heq⟩
  · rw [hd, hd']
  · simp only [hd, hd', ClassDef.primaryBase?_of_profile heq, ClassDef.assignArgs_of_profile heq]

end Hierarchy

namespace SlotTable

/-! ## Answers -/

/-- All layouts of the classes of a hierarchy are the layouts that another table has for those of
another hierarchy. The other table may have more. -/
def CoveredBy (t : SlotTable) (h : Hierarchy) (t' : SlotTable) (h' : Hierarchy) : Prop :=
  ∀ c l, t.layout h c = .ok l → t'.layout h' c = .ok l

/-- Two tables give the same answers, where they give any. Errors are not compared, because they
mention names. -/
structure AnswersAlike (t : SlotTable) (h : Hierarchy) (t' : SlotTable) (h' : Hierarchy) :
    Prop where
  /-- The numbers of slots. -/
  numSlots : ∀ c n, t.numSlots h c = .ok n ↔ t'.numSlots h' c = .ok n
  /-- The numbers of slots that are introduced. -/
  ownSlots : ∀ c n, t.ownSlots h c = .ok n ↔ t'.ownSlots h' c = .ok n
  /-- The chains. -/
  chain : ∀ c cs, t.chain h c = .ok cs ↔ t'.chain h' c = .ok cs
  /-- The slots of type parameters. -/
  paramSlot : ∀ c k s, t.paramSlot h c k = .ok s ↔ t'.paramSlot h' c k = .ok s
  /-- The origins of slots. -/
  slotOrigin : ∀ c s origin, t.slotOrigin h c s = .ok origin ↔ t'.slotOrigin h' c s = .ok origin
  /-- The mappings, compiled without recording. -/
  compile : ∀ c mapping, ((t.compile h c).observe h .off).result = .ok mapping ↔
    ((t'.compile h' c).observe h' .off).result = .ok mapping

namespace CoveredBy

variable {t t' : SlotTable} {h h' : Hierarchy} {c : ClassId} (ht : t.CoveredBy h t' h')

include ht

/-- An answer that only looks at the layout of a class is kept. -/
lemma bind_layout {α : Type} {f f' : Layout → Except (Failure SlotError) α} {a : α}
    (hf : ∀ l, f l = .ok a → f' l = .ok a) (hok : (t.layout h c >>= f) = .ok a) :
    (t'.layout h' c >>= f') = .ok a := by
  obtain ⟨l, hl, hok⟩ := bind_eq_ok_iff.1 hok
  exact bind_eq_ok_iff.2 ⟨l, ht c l hl, hf l hok⟩

/-- Numbers of slots are kept, because they are read off the layout. -/
lemma numSlots {n : Nat} (hok : t.numSlots h c = .ok n) : t'.numSlots h' c = .ok n :=
  ht.bind_layout (fun _ => id) hok

/-- Numbers of slots that are introduced are kept, for the same reason. -/
lemma ownSlots {n : Nat} (hok : t.ownSlots h c = .ok n) : t'.ownSlots h' c = .ok n :=
  ht.bind_layout (fun _ => id) hok

/-- Chains are kept, and with them the classes that slots may come from. -/
lemma chain {cs : List ClassId} (hok : t.chain h c = .ok cs) : t'.chain h' c = .ok cs :=
  ht.bind_layout (fun _ => id) hok

/-- Slots of type parameters are kept. A position that is out of range has no answer to keep. -/
lemma paramSlot {k s : Nat} (hok : t.paramSlot h c k = .ok s) :
    t'.paramSlot h' c k = .ok s := by
  refine ht.bind_layout (fun l hok => ?_) hok
  cases hk : l.paramSlots[k]? with
  | some s' =>
    simp only [hk] at hok ⊢
    exact hok
  | none =>
    simp only [hk] at hok
    obtain ⟨_, -, hok⟩ := bind_eq_ok_iff.1 hok
    cases hok

/-- The origin of a slot is read off the layouts of the class and of the class that introduced it,
which are both kept. -/
lemma slotOrigin {s : Nat} {origin : ClassId × Nat} (hok : t.slotOrigin h c s = .ok origin) :
    t'.slotOrigin h' c s = .ok origin := by
  obtain ⟨o, k⟩ := origin
  obtain ⟨l, lo, hl, hs, hlo, hk⟩ := slotOrigin_eq_ok_iff.1 hok
  exact slotOrigin_eq_ok_iff.2 ⟨l, lo, ht c l hl, hs, ht o lo hlo, hk⟩

end CoveredBy

variable {t t' : SlotTable} {h h' : Hierarchy} {policy : SlotPolicy}

/-- The tables of hierarchies of the same profiles have the same layouts.

**Proof sketch.** A table that answers was made below the limit of identifiers, and the other
hierarchy has as many classes. So both tables describe their hierarchies, and the layouts of a class
are the same. -/
theorem coveredBy_of_profiles (hp : h.profiles = h'.profiles) (hs : h.size ≤ ClassId.limit)
    (ht : (build h policy).result = .ok t) (ht' : (build h' policy).result = .ok t') :
    t.CoveredBy h t' h' := by
  intro c l hl
  have hlt := size_lt_of_layout hs ht hl
  obtain ⟨rfl, hdescribes⟩ := describes_of_build hlt ht
  obtain ⟨hpolicy, hdescribes'⟩ :=
    describes_of_build (Hierarchy.size_eq_of_profiles hp ▸ hlt) ht'
  obtain ⟨l₁, hl₁⟩ := hdescribes.exists_hasLayout (isDefined_of_layout hl)
  obtain rfl := Except.ok.inj (hl.symm.trans (hdescribes.layout_eq hl₁))
  obtain ⟨d, hd⟩ := hl₁.checked
  obtain ⟨d', hd', -⟩ := Hierarchy.exists_find?_of_profiles hp hd.find
  obtain ⟨l', hl'⟩ := hdescribes'.exists_hasLayout (Hierarchy.isDefined_iff.2 ⟨d', hd'⟩)
  rw [hdescribes'.layout_eq hl', hl₁.eq_of_profiles hp (hpolicy ▸ hl')]

/-- Hierarchies of the same profiles have the same mappings.

**Proof sketch.** The values of both are the arguments of projections, which are the same, onto the
origins of slots, which are the same too. Both mappings have a value for each slot and none
beyond. -/
lemma compile_of_profiles (hp : h.profiles = h'.profiles) (hs : h.size ≤ ClassId.limit)
    (ht : (build h policy).result = .ok t) (ht' : (build h' policy).result = .ok t') {c : ClassId}
    {mapping : List Ty} (hm : (t.compile h c).result = .ok mapping) :
    (t'.compile h' c).result = .ok mapping := by
  have hcovered := coveredBy_of_profiles hp hs ht ht'
  obtain ⟨l, hlayout⟩ := exists_layout_of_compile hm
  have hs' : h'.size ≤ ClassId.limit := Hierarchy.size_eq_of_profiles hp ▸ hs
  obtain ⟨-, hdescribes⟩ := describes_of_layout hs ht hlayout
  obtain ⟨-, hdescribes'⟩ := describes_of_layout hs' ht' (hcovered c l hlayout)
  obtain ⟨d, hd⟩ := Hierarchy.isDefined_iff.1 (isDefined_of_layout hlayout)
  obtain ⟨d', hd', heq⟩ := Hierarchy.exists_find?_of_profiles hp hd
  obtain ⟨l₁, hl⟩ := hdescribes.exists_hasLayout (Hierarchy.isDefined_iff.2 ⟨d, hd⟩)
  obtain ⟨l₂, hl'⟩ := hdescribes'.exists_hasLayout (Hierarchy.isDefined_iff.2 ⟨d', hd'⟩)
  obtain rfl := Except.ok.inj ((hcovered c _ (hdescribes.layout_eq hl)).symm.trans
    (hdescribes'.layout_eq hl'))
  obtain ⟨mapping₁, hm₁, hlen, hstored⟩ := hdescribes.exists_compile hl hd
  obtain rfl := Except.ok.inj (hm.symm.trans hm₁)
  obtain ⟨mapping', hm', hlen', hstored'⟩ := hdescribes'.exists_compile hl' hd'
  rw [hm']
  refine congrArg Except.ok (List.ext_getElem? fun s => ?_)
  by_cases hslot : s < l₁.numSlots
  · obtain ⟨o, k, n, value, horigin, hn, hk⟩ := hdescribes.exists_argument hl hd hslot
    rw [hstored hslot horigin hn hk, hstored' hslot (hcovered.slotOrigin horigin) hn]
    rwa [← Hierarchy.primarySupertype_of_profiles hp, ← ClassDef.selfArgs_of_profile heq]
  · rw [List.getElem?_eq_none (by omega), List.getElem?_eq_none (by omega)]

/-- Hierarchies of the same profiles, which both have a table under the same policy, get the same
answers. The tables cover each other, so an answer of the one is an answer of the other.

**Proof sketch.** Having the same profiles is symmetric, so each of the two tables covers the other.
Queries and mappings are kept in both directions. -/
theorem answersAlike_of_profiles (hp : h.profiles = h'.profiles) (hs : h.size ≤ ClassId.limit)
    (ht : (build h policy).result = .ok t) (ht' : (build h' policy).result = .ok t') :
    t.AnswersAlike h t' h' := by
  have hs' : h'.size ≤ ClassId.limit := Hierarchy.size_eq_of_profiles hp ▸ hs
  have hcovered := coveredBy_of_profiles hp hs ht ht'
  have hcovered' := coveredBy_of_profiles hp.symm hs' ht' ht
  exact
    { numSlots := fun c n => ⟨hcovered.numSlots, hcovered'.numSlots⟩
      ownSlots := fun c n => ⟨hcovered.ownSlots, hcovered'.ownSlots⟩
      chain := fun c cs => ⟨hcovered.chain, hcovered'.chain⟩
      paramSlot := fun c k s => ⟨hcovered.paramSlot, hcovered'.paramSlot⟩
      slotOrigin := fun c s origin => ⟨hcovered.slotOrigin, hcovered'.slotOrigin⟩
      compile := fun c mapping => by
        rw [Run.result_observe_off, Run.result_observe_off]
        exact ⟨compile_of_profiles hp hs ht ht', compile_of_profiles hp.symm hs' ht' ht⟩ }

end SlotTable

/-! ## A hierarchy of the same profiles -/

namespace Twisted

/-- The classes of `hierarchy` under other names, without their other bases and with more ancestors.
The profiles are the same. -/
def plain : Hierarchy where
  classes := #[.fresh "object" .object,
    ⟨"P", true, [⟨"X", ⟨1⟩⟩, ⟨"Y", ⟨2⟩⟩], [], [⟨1⟩, ⟨0⟩]⟩,
    ⟨"F", false, [⟨"X", ⟨2⟩⟩, ⟨"Y", ⟨1⟩⟩], [⟨⟨1⟩, [.var ⟨1⟩, .var ⟨2⟩]⟩], [⟨2⟩, ⟨1⟩, ⟨0⟩]⟩,
    ⟨"T", false, [⟨"X", ⟨2⟩⟩, ⟨"Y", ⟨1⟩⟩], [⟨⟨2⟩, [.var ⟨2⟩, .var ⟨2⟩]⟩], [⟨3⟩, ⟨2⟩, ⟨1⟩, ⟨0⟩]⟩,
    ⟨"L", true, [⟨"X", ⟨1⟩⟩], [⟨⟨3⟩, [.inst ⟨1⟩ [.var ⟨1⟩, .any], .var ⟨1⟩]⟩, ⟨⟨1⟩, []⟩],
      [⟨4⟩, ⟨9⟩, ⟨1⟩, ⟨2⟩, ⟨3⟩]⟩]
  names := ∅

/-- The hierarchy has the same table, by evaluation. -/
lemma build_plain : (SlotTable.build plain .shared).result = .ok table := by
  decide +kernel

end Twisted

/-- A hierarchy with other bases gets the answers that one without them gets. -/
theorem SlotTable.answersAlike_of_profiles_plain :
    Twisted.table.AnswersAlike Twisted.hierarchy Twisted.table Twisted.plain :=
  answersAlike_of_profiles (by decide +kernel) (by decide) Twisted.build_hierarchy
    Twisted.build_plain

end GenericSlots
