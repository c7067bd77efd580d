import GenericSlots.Proofs.Slot.Mapping
import GenericSlots.Slot.Mappings
set_option autoImplicit false

/-!
# Mappings that are kept

A mapping that is kept is given out again without being compiled. Nobody can tell, as long as every
mapping that is kept is the one that compiling would give. This is so when nothing is kept, and each
request leaves it so, whether it succeeds or fails. Asking for the mappings of all classes reads
what is kept and adds to it while it goes on, and would stop at the first class that has no mapping.
In a hierarchy that was laid out there is none.

## Main definitions

* `GenericSlots.SlotMappings.Request`, `GenericSlots.SlotMappings.after`: what is asked for, and
  what is kept after a sequence of requests.
* `GenericSlots.SlotMappings.Faithful`: every mapping that is kept is the one that compiling gives.
* `GenericSlots.SlotMappings.ServesAsNew`: requests have the outcome that they have when nothing is
  kept.

## Main results

* `GenericSlots.SlotMappings.Faithful.compile`, `GenericSlots.SlotMappings.Faithful.compileAll`: the
  outcome of one request, and that it keeps faithful mappings.
* `GenericSlots.SlotMappings.Faithful.after`: a sequence of requests keeps faithful mappings.
* `GenericSlots.SlotMappings.servesAsNew_of_build`: the outcome of requests after any others.
-/

namespace GenericSlots

namespace SlotTable

variable {t : SlotTable} {h : Hierarchy} {c : ClassId} {cs : List ClassId} {mapping : List Ty}
  {mappings : List (ClassId × List Ty)}

/-! ## Mappings of several classes -/

/-- The mappings of those of some classes that have slots, in the order of the classes. No class is
left out that has a slot, and none is listed that lacks one. -/
structure Collects (t : SlotTable) (h : Hierarchy) (cs : List ClassId)
    (mappings : List (ClassId × List Ty)) : Prop where
  /-- The classes stay in order. -/
  sublist : (mappings.map Prod.fst).Sublist cs
  /-- Each class has slots. -/
  slots : ∀ c ∈ mappings.map Prod.fst, ∃ n, t.numSlots h c = .ok n ∧ 0 < n
  /-- Each mapping is compiled. -/
  compiled : ∀ p ∈ mappings, (t.compile h p.1).result = .ok p.2
  /-- No class that has slots is left out. -/
  complete : ∀ c ∈ cs, ∀ n, t.numSlots h c = .ok n → 0 < n → c ∈ mappings.map Prod.fst

/-- Of no classes there are no mappings. -/
lemma collects_nil (t : SlotTable) (h : Hierarchy) : t.Collects h [] [] where
  sublist := List.Sublist.refl _
  slots _ hc := absurd hc List.not_mem_nil
  compiled _ hp := absurd hp List.not_mem_nil
  complete _ hc := absurd hc List.not_mem_nil

/-- A class without slots is left out, although it has a mapping, which is empty. -/
lemma Collects.skip (hm : t.Collects h cs mappings) (hslots : t.numSlots h c = .ok 0) :
    t.Collects h (c :: cs) mappings where
  sublist := hm.sublist.cons c
  slots := hm.slots
  compiled := hm.compiled
  complete d hd n hn hpos := by
    rcases List.mem_cons.1 hd with rfl | hd
    · obtain rfl : 0 = n := Except.ok.inj (hslots.symm.trans hn)
      exact absurd hpos (Nat.lt_irrefl 0)
    · exact hm.complete d hd n hn hpos

/-- A class that has slots comes first, with its mapping. -/
lemma Collects.cons {n : Nat} (hm : t.Collects h cs mappings)
    (hslots : t.numSlots h c = .ok (n + 1)) (hmapping : (t.compile h c).result = .ok mapping) :
    t.Collects h (c :: cs) ((c, mapping) :: mappings) where
  sublist := hm.sublist.cons_cons c
  slots := List.forall_mem_cons.2 ⟨⟨n + 1, hslots, Nat.succ_pos n⟩, hm.slots⟩
  compiled := List.forall_mem_cons.2 ⟨hmapping, hm.compiled⟩
  complete d hd k hk hpos := by
    rcases List.mem_cons.1 hd with rfl | hd
    · exact List.mem_cons_self
    · exact List.mem_cons_of_mem _ (hm.complete d hd k hk hpos)

/-- The mappings of all classes that have slots, in increasing order of the classes. This determines
the list. -/
structure ListsMappings (t : SlotTable) (h : Hierarchy) (mappings : List (ClassId × List Ty)) :
    Prop where
  /-- Each class comes after those with smaller identifiers, and only once. -/
  ordered : (mappings.map Prod.fst).Pairwise fun c d => c.index < d.index
  /-- The classes are those that have slots. -/
  mem_iff : ∀ c, c ∈ mappings.map Prod.fst ↔ ∃ n, t.numSlots h c = .ok n ∧ 0 < n
  /-- Each mapping is compiled. -/
  compiled : ∀ p ∈ mappings, ((t.compile h p.1).observe h .off).result = .ok p.2

/-- The mappings of all classes of a hierarchy, once the enumeration of classes is known to be
complete and increasing.

**Proof sketch.** The enumeration of classes is increasing, and a part of it is too. A class with
slots is defined, so it is enumerated and not left out. -/
lemma Collects.listsMappings (hs : h.size < ClassId.limit)
    (hm : t.Collects h h.classIds mappings) : t.ListsMappings h mappings where
  ordered := (Hierarchy.pairwise_classIds hs).sublist hm.sublist
  mem_iff c := by
    refine ⟨hm.slots c, ?_⟩
    rintro ⟨n, hn, hpos⟩
    obtain ⟨l, hl, -⟩ := bind_eq_ok_iff.1 hn
    exact hm.complete c ((Hierarchy.mem_classIds hs).2 (isDefined_of_layout hl)) n hn hpos
  compiled p hp := by
    rw [Run.result_observe_off]
    exact hm.compiled p hp

/-- A class that is not defined has no mapping, and the error says which class it is. -/
lemma compile_of_not_isDefined (hc : ¬h.IsDefined c) :
    (t.compile h c).result = refuse (.undefinedClass c) := by
  have hlayout : t.layout h c = refuse (.undefinedClass c) := by rw [layout, if_neg hc]
  rw [compile_of_layout_eq_error hlayout]
  rfl

/-- A class that is defined has its number of slots and its mapping, so collecting mappings does not
stop at it. -/
lemma Describes.exists_numSlots_compile (ht : t.Describes h) (hc : h.IsDefined c) :
    ∃ n mapping, t.numSlots h c = .ok n ∧ (t.compile h c).result = .ok mapping := by
  obtain ⟨l, hl⟩ := ht.exists_hasLayout hc
  obtain ⟨d, hd⟩ := Hierarchy.isDefined_iff.1 hc
  obtain ⟨mapping, hmapping, -⟩ := ht.exists_compile hl hd
  exact ⟨l.numSlots, mapping, ht.numSlots_eq hl, hmapping⟩

end SlotTable

namespace SlotMappings

variable {m : SlotMappings} {h : Hierarchy} {t : SlotTable} {v : Verbosity} {c : ClassId}

/-! ## Requests -/

/-- What may be asked for. Asking for the origin of a slot or the like keeps nothing, so it is not
among the requests. -/
inductive Request where
  /-- The mapping of a class, which need not be defined. -/
  | compile (c : ClassId)
  /-- The mappings of all classes that have slots. -/
  | compileAll

/-- What is kept after a request, whether it succeeds or fails. -/
def ask (m : SlotMappings) (v : Verbosity) : Request → SlotMappings
  | .compile c => (m.compile v c).2
  | .compileAll => (m.compileAll v).2

/-- What is kept after a sequence of requests, each of which may read what those before have
left. -/
def after (m : SlotMappings) (v : Verbosity) (requests : List Request) : SlotMappings :=
  requests.foldl (fun m r => m.ask v r) m

/-- The mappings on demand of a hierarchy with its slot table. Every mapping that is kept is the one
that compiling gives. This is the invariant of requests; it does not say which mappings are kept. -/
structure Faithful (m : SlotMappings) (h : Hierarchy) (t : SlotTable) : Prop where
  /-- The hierarchy is the given one. -/
  hierarchy_eq : m.hierarchy = h
  /-- The table is the given one. -/
  table_eq : m.table = t
  /-- A mapping that is kept is compiled. -/
  kept : ∀ c mapping, m.compiled[c]? = some mapping → (t.compile h c).result = .ok mapping

/-- At first nothing is kept, so there is nothing to compare. -/
lemma faithful_empty (h : Hierarchy) (t : SlotTable) : Faithful ⟨h, t, ∅⟩ h t :=
  ⟨rfl, rfl, fun _ _ hget => by simp at hget⟩

/-- Keeping one more mapping that is compiled leaves those of the other classes as they are.

**Proof sketch.** What is kept of a class after the insertion is the new mapping, or what was kept
before if it is another class. -/
lemma Faithful.insert {mapping : List Ty} (hm : m.Faithful h t)
    (hmapping : (t.compile h c).result = .ok mapping) :
    Faithful ⟨h, t, m.compiled.insert c mapping⟩ h t where
  hierarchy_eq := rfl
  table_eq := rfl
  kept d mapping' hget := by
    simp only [Std.HashMap.getElem?_insert, beq_iff_eq] at hget
    split at hget
    case isTrue hcd =>
      obtain rfl : mapping = mapping' := Option.some.inj hget
      rwa [← hcd]
    case isFalse => exact hm.kept d mapping' hget

/-! ## The outcome of a request -/

/-- A mapping is asked for with the outcome of compiling it, and what is kept stays faithful.

**Proof sketch.** A mapping that is kept is the one that compiling gives. Otherwise it is compiled,
and kept if this succeeds. -/
theorem Faithful.compile (hm : m.Faithful h t) (c : ClassId) :
    (m.compile .off c).1.result = (t.compile h c).result ∧ (m.compile .off c).2.Faithful h t := by
  rw [SlotMappings.compile]
  cases hget : m.compiled[c]? with
  | some mapping => exact ⟨(hm.kept c mapping hget).symm, hm⟩
  | none =>
    simp only [hm.hierarchy_eq, hm.table_eq, Run.result_observe_off]
    cases hresult : (t.compile h c).result with
    | ok mapping => exact ⟨(Run.result_observe_off _ _).trans hresult, hm.insert hresult⟩
    | error e => exact ⟨(Run.result_observe_off _ _).trans hresult, hm⟩

/-- A request for a mapping that fails leaves everything as it was, without a mapping of the class.
Had one been kept, the request would have succeeded.

**Proof sketch.** By cases on whether a mapping is kept and on the outcome of compiling it. Only if
none is kept and compiling fails does the request fail, and then nothing is inserted. -/
lemma compile_of_error {e : Failure SlotError} (herror : (m.compile v c).1.result = .error e) :
    (m.compile v c).2 = m ∧ m.compiled[c]? = none := by
  rw [SlotMappings.compile] at herror ⊢
  cases hget : m.compiled[c]? with
  | some mapping =>
    rw [hget] at herror
    cases herror
  | none =>
    cases hresult : ((m.table.compile m.hierarchy c).observe m.hierarchy v).result with
    | ok mapping =>
      simp only [hget, hresult] at herror
      cases herror
    | error e' => exact ⟨by simp only [hresult], rfl⟩

/-- The mappings of some classes are collected, if all of them have a mapping.

**Proof sketch.** By induction on the classes, with what is kept left general. A class without slots
is skipped. For any other class its mapping is asked for, which succeeds and keeps faithful
mappings, and the rest is collected from there. -/
lemma Faithful.exists_compileEach (hm : m.Faithful h t) {cs : List ClassId}
    (hcs : ∀ c ∈ cs, ∃ n mapping, t.numSlots h c = .ok n ∧ (t.compile h c).result = .ok mapping) :
    ∃ mappings, (m.compileEach .off cs).1.result = .ok mappings ∧ t.Collects h cs mappings ∧
      (m.compileEach .off cs).2.Faithful h t := by
  induction cs generalizing m with
  | nil => exact ⟨[], rfl, SlotTable.collects_nil t h, hm⟩
  | cons c cs ih =>
    rw [List.forall_mem_cons] at hcs
    obtain ⟨⟨n, mapping, hslots, hmapping⟩, hcs⟩ := hcs
    rw [compileEach, hm.hierarchy_eq, hm.table_eq, hslots]
    cases n with
    | zero =>
      obtain ⟨mappings, hresult, hcollects, hkept⟩ := ih hm hcs
      exact ⟨mappings, hresult, hcollects.skip hslots, hkept⟩
    | succ n =>
      obtain ⟨hfirst, hm'⟩ := hm.compile c
      obtain ⟨mappings, hresult, hcollects, hkept⟩ := ih hm' hcs
      refine ⟨(c, mapping) :: mappings, ?_, hcollects.cons hslots hmapping, ?_⟩
      · simp only [hfirst, hmapping, hresult]
        rfl
      · simpa only [hfirst, hmapping] using hkept

/-- The mappings of all classes are asked for with success, and the list is complete and in order.
What was kept before has no influence on it. -/
theorem Faithful.compileAll (hm : m.Faithful h t) (hs : h.size < ClassId.limit)
    (ht : t.Describes h) :
    ∃ mappings, (m.compileAll .off).1.result = .ok mappings ∧ t.ListsMappings h mappings ∧
      (m.compileAll .off).2.Faithful h t := by
  obtain ⟨mappings, hresult, hcollects, hkept⟩ := hm.exists_compileEach fun c hc =>
    ht.exists_numSlots_compile ((Hierarchy.mem_classIds hs).1 hc)
  rw [SlotMappings.compileAll, hm.hierarchy_eq]
  refine ⟨mappings, ?_, hcollects.listsMappings hs, hkept⟩
  rw [Run.result_bind, hresult, ok_bind, Run.result_bind, Run.result_observe_off]
  rfl

/-! ## Sequences of requests -/

/-- A request keeps faithful mappings, whichever of the two kinds it is. -/
lemma Faithful.ask (hm : m.Faithful h t) (hs : h.size < ClassId.limit) (ht : t.Describes h)
    (r : Request) : (m.ask .off r).Faithful h t := by
  cases r with
  | compile c => exact (hm.compile c).2
  | compileAll =>
    obtain ⟨_, -, -, hkept⟩ := hm.compileAll hs ht
    exact hkept

/-- A sequence of requests keeps faithful mappings, by induction on the requests. -/
theorem Faithful.after (hm : m.Faithful h t) (hs : h.size < ClassId.limit) (ht : t.Describes h)
    (requests : List Request) : (m.after .off requests).Faithful h t := by
  induction requests generalizing m with
  | nil => exact hm
  | cons r requests ih => exact ih (hm.ask hs ht r)

/-- Requests have the outcome that they have when nothing is kept. So keeping mappings saves work
and changes nothing else. -/
structure ServesAsNew (m : SlotMappings) (h : Hierarchy) (t : SlotTable) : Prop where
  /-- A mapping is asked for with the outcome of compiling it. -/
  compile : ∀ c, (m.compile .off c).1.result = ((t.compile h c).observe h .off).result
  /-- This succeeds for the classes that are defined. -/
  compile_of_isDefined : ∀ c, h.IsDefined c → ∃ mapping, (m.compile .off c).1.result = .ok mapping
  /-- A class that is not defined is refused. -/
  compile_of_not_isDefined : ∀ c, ¬h.IsDefined c →
    (m.compile .off c).1.result = refuse (.undefinedClass c)
  /-- A request that fails leaves everything as it was, without a mapping of the class. -/
  compile_of_error : ∀ c e, (m.compile .off c).1.result = .error e →
    (m.compile .off c).2 = m ∧ (m.compile .off c).2.compiled[c]? = none
  /-- The mappings of all classes are asked for with success. -/
  compileAll : ∃ mappings, (m.compileAll .off).1.result = .ok mappings ∧ t.ListsMappings h mappings

/-- What is kept cannot be told from outcomes if it is faithful. Each field is one of the outcomes
above. -/
lemma Faithful.servesAsNew (hm : m.Faithful h t) (hs : h.size < ClassId.limit)
    (ht : t.Describes h) : m.ServesAsNew h t where
  compile c := by rw [(hm.compile c).1, Run.result_observe_off]
  compile_of_isDefined c hc := by
    obtain ⟨-, mapping, -, hmapping⟩ := ht.exists_numSlots_compile hc
    exact ⟨mapping, (hm.compile c).1.trans hmapping⟩
  compile_of_not_isDefined c hc :=
    (hm.compile c).1.trans (SlotTable.compile_of_not_isDefined hc)
  compile_of_error c e herror := by
    obtain ⟨hsame, hnone⟩ := SlotMappings.compile_of_error herror
    exact ⟨hsame, by rw [hsame, hnone]⟩
  compileAll := by
    obtain ⟨mappings, hresult, hlists, -⟩ := hm.compileAll hs ht
    exact ⟨mappings, hresult, hlists⟩

/-- In a hierarchy that has a slot table, requests have the outcome that they have when nothing is
kept, whatever was asked for before.

**Proof sketch.** At first nothing is kept, which is faithful. Requests keep faithful mappings, so
what is kept after any sequence of them is faithful, and the outcomes follow from that. -/
theorem servesAsNew_of_build (config : Config) (hs : h.size < ClassId.limit)
    (ht : (SlotTable.build h config.slotPolicy).result = .ok t) :
    ∃ m, ((ofHierarchy h config).observe h .off).result = .ok m ∧
      ∀ requests, (m.after .off requests).ServesAsNew h t := by
  obtain ⟨-, hdescribes⟩ := SlotTable.describes_of_build hs ht
  refine ⟨⟨h, t, ∅⟩, ?_, fun requests => ?_⟩
  · rw [Run.result_observe_off, ofHierarchy, Run.result_bind, ht]
    rfl
  · exact ((faithful_empty h t).after hs hdescribes requests).servesAsNew hs hdescribes

/-- Mappings on demand of four classes whose type parameters share slots, after any requests. -/
theorem servesAsNew_of_build_twisted :
    ∃ m, ((ofHierarchy Twisted.hierarchy ⟨.shared⟩).observe Twisted.hierarchy .off).result =
        .ok m ∧
      ∀ requests, (m.after .off requests).ServesAsNew Twisted.hierarchy Twisted.table :=
  servesAsNew_of_build ⟨.shared⟩ (by decide) Twisted.build_hierarchy

end SlotMappings

end GenericSlots
