import GenericSlots.Proofs.Ladder.Construction
import GenericSlots.Proofs.Projection.Outcome
set_option autoImplicit false

/-!
# Derivations in a ladder

A class of a ladder derives from a class below in as many ways as there are ways down the ladder,
and every level doubles their number. The search for the first one keeps to the left. All bases pass
on the type parameter, so the projections along all ways have the same type argument.

## Main definitions

* `GenericSlots.Ladder.descents`: all ways from the top of some levels to the bottom.
* `GenericSlots.Ladder.leftmost`: the way that keeps to the left.

## Main results

* `GenericSlots.Ladder.length_descents`: the number of ways doubles with every level.
* `GenericSlots.Hierarchy.IsLadder.paths_join`, `GenericSlots.Hierarchy.IsLadder.path_join`: the
  paths from a join to the bottom are the ways, of which the leftmost is the first.
* `GenericSlots.Hierarchy.IsLadder.supertype_eq`: a projection onto an ancestor keeps the type
  argument.
-/

namespace GenericSlots

namespace Ladder

/-- All ways from the top of some levels, of which the highest comes first, to the bottom. A way
takes one of the two sides at every level, the left one first, and leaves out the class where it
starts. -/
def descents (bottom : ClassId) : List Level → List (List ClassId)
  | [] => [[]]
  | level :: below => [level.left, level.right].flatMap fun side =>
      (descents bottom below).map fun way => side :: top bottom below :: way

/-- The way from the top of some levels to the bottom that keeps to the left. -/
def leftmost (bottom : ClassId) : List Level → List ClassId
  | [] => []
  | level :: below => level.left :: top bottom below :: leftmost bottom below

/-- The number of ways doubles with every level, as each way from the level below can be taken by
either side. -/
theorem length_descents (bottom : ClassId) (levels : List Level) :
    (descents bottom levels).length = 2 ^ levels.length := by
  induction levels with
  | nil => rfl
  | cons level below ih =>
    simp only [descents, List.flatMap_cons, List.flatMap_nil, List.append_nil, List.length_append,
      List.length_map, ih, List.length_cons, Nat.pow_succ]
    omega

/-- The first of all ways keeps to the left. -/
lemma head?_descents (bottom : ClassId) (levels : List Level) :
    (descents bottom levels).head? = some (leftmost bottom levels) := by
  induction levels with
  | nil => rfl
  | cons level below ih =>
    obtain ⟨ways, hways⟩ := List.head?_eq_some_iff.1 ih
    simp [descents, leftmost, hways]

example (d₀ l₁ r₁ d₁ l₂ r₂ d₂ : ClassId) :
    (descents d₀ [⟨l₂, r₂, d₂⟩, ⟨l₁, r₁, d₁⟩]).head? = some [l₂, d₁, l₁, d₀] := rfl

end Ladder

open Ladder

namespace Hierarchy

variable {h : Hierarchy} {bottom a b c : ClassId} {onto ancestors : List ClassId}
  {level : Level} {levels below : List Level}

/-- A class of a ladder is defined. -/
lemma IsRung.isDefined (hc : h.IsRung c onto ancestors) : h.IsDefined c :=
  isDefined_iff.2 ⟨_, hc.choose_spec⟩

/-- A class of a ladder has a base for each class that it extends, with its own type parameter as
the only argument. -/
lemma IsRung.basesOf_eq (hc : h.IsRung c onto ancestors) :
    h.basesOf c = onto.map fun b => ⟨b, [.var ⟨1⟩]⟩ := by
  obtain ⟨name, hd⟩ := hc
  rw [basesOf, hd]
  rfl

/-! ## Ways down -/

/-- The paths through a side are the ways down from the join below, if these are its paths. A side
has only one base. -/
private lemma pathsVia_side {side : ClassId} {visiting : List ClassId}
    (hside : h.IsRung side [b] ancestors) (hne : side ≠ a) (hv : side ∉ visiting)
    {ways : List (List ClassId)}
    (hways : h.pathsVia a (side :: visiting) ⟨b, [.var ⟨1⟩]⟩ = ways.map (b :: ·)) :
    h.pathsVia a visiting ⟨side, [.var ⟨1⟩]⟩ = ways.map fun way => side :: b :: way := by
  rw [pathsVia, if_neg hne, if_pos ⟨hside.isDefined, hv⟩, pathsFrom_eq_flatMap, hside.basesOf_eq,
    List.map_singleton, List.flatMap_singleton, hways, List.map_map]
  rfl

/-- The paths from a join are the ways down from it, if this holds below.

**Proof sketch.** A join has its two sides as bases, so its paths go through the left side first and
then through the right one. Neither side is below, so each is still free while the paths below it
are enumerated. -/
private lemma pathsFrom_join_of_below (hl : h.IsLadder bottom (level :: below))
    {visiting : List ClassId}
    (hv : ∀ c ∈ level.left :: level.right :: members bottom below, c ∉ visiting)
    (hbelow : ∀ visiting, (∀ c ∈ members bottom below, c ∉ visiting) →
      h.pathsVia bottom visiting ⟨top bottom below, [.var ⟨1⟩]⟩ =
        (descents bottom below).map (top bottom below :: ·)) :
    h.pathsFrom bottom visiting level.join = descents bottom (level :: below) := by
  cases hl with
  | level _ left right join hnodup =>
    rw [members, List.nodup_cons, List.nodup_cons, List.nodup_cons] at hnodup
    obtain ⟨-, hleft, hright, -⟩ := hnodup
    have hvia : ∀ side ∈ [level.left, level.right],
        h.IsRung side [top bottom below] (members bottom below) → side ∉ members bottom below →
        h.pathsVia bottom visiting ⟨side, [.var ⟨1⟩]⟩ =
          (descents bottom below).map fun way => side :: top bottom below :: way := by
      intro side hmem hside hnew
      refine pathsVia_side hside (fun heq => hnew (heq ▸ bottom_mem_members bottom below))
        (hv side ?_) (hbelow _ fun c hc => ?_)
      · rcases List.mem_pair.1 hmem with rfl | rfl <;> simp
      · rw [List.mem_cons, not_or]
        exact ⟨fun heq => hnew (heq ▸ hc),
          hv c (List.mem_cons_of_mem _ (List.mem_cons_of_mem _ hc))⟩
    rw [pathsFrom_eq_flatMap, join.basesOf_eq, descents]
    simp only [List.map_cons, List.map_nil, List.flatMap_cons, List.flatMap_nil]
    rw [hvia _ (by simp) left fun hc => hleft (List.mem_cons_of_mem _ hc),
      hvia _ (by simp) right hright]

/-- The paths through the highest join are the ways down from it.

**Proof sketch.** Induction on the levels. No class is part of a ladder twice, so the classes that
are being visited on the way down are none of those below. -/
lemma IsLadder.pathsVia_top (hl : h.IsLadder bottom levels) {visiting : List ClassId}
    (hv : ∀ c ∈ members bottom levels, c ∉ visiting) :
    h.pathsVia bottom visiting ⟨top bottom levels, [.var ⟨1⟩]⟩ =
      (descents bottom levels).map (top bottom levels :: ·) := by
  induction hl generalizing visiting with
  | bottom _ => exact if_pos rfl
  | @level level below lower left right join hnodup ih =>
    have hl : h.IsLadder bottom (level :: below) := .level lower left right join hnodup
    obtain ⟨hjoin, -⟩ := List.nodup_cons.1 hnodup
    have hne : level.join ≠ bottom := fun heq => hjoin (by simp [heq, bottom_mem_members])
    have hpaths : h.pathsFrom bottom (level.join :: visiting) level.join =
        descents bottom (level :: below) := by
      refine pathsFrom_join_of_below hl (fun c hc => ?_) fun _ => ih
      rw [List.mem_cons, not_or]
      exact ⟨fun heq => hjoin (heq ▸ hc), hv c (List.mem_cons_of_mem _ hc)⟩
    rw [top, pathsVia, if_neg hne, if_pos ⟨join.isDefined, hv _ List.mem_cons_self⟩, hpaths]

/-- The paths from a join to the bottom are the ways down, in this order and each of them once. -/
theorem IsLadder.paths_join (hl : h.IsLadder bottom (level :: below)) :
    h.paths level.join bottom = .ok (descents bottom (level :: below)) := by
  have hjoin := (List.nodup_cons.1 hl.nodup).1
  have hsplit : h.IsLadder bottom ([level] ++ below) := hl
  rw [paths_eq_pathsFrom (hl.isDefined List.mem_cons_self)]
  refine congrArg Except.ok (pathsFrom_join_of_below hl (fun c hc => ?_) fun _ => ?_)
  · rw [List.mem_singleton]
    exact fun heq => hjoin (heq ▸ hc)
  · exact hsplit.of_append.pathsVia_top

/-- The first path from a join to the bottom keeps to the left. It is found without going through
all paths, although it is described by them. -/
theorem IsLadder.path_join (hl : h.IsLadder bottom (level :: below)) :
    h.path level.join bottom = .ok (some (leftmost bottom (level :: below))) := by
  obtain ⟨paths, hpaths, hpath, -⟩ :=
    path_eq_head?_paths (hl.isDefined List.mem_cons_self) bottom
  obtain rfl := Except.ok.inj (hl.paths_join.symm.trans hpaths)
  rw [hpath, head?_descents]

/-! ## Projections -/

/-- A projection onto a base keeps the type argument.

**Proof sketch.** The base is the first that the class declares for that class, and its only
argument is the type parameter, for which the argument of the instance is put in. -/
lemma IsRung.directSupertype_eq (hc : h.IsRung c onto ancestors) (hb : b ∈ onto) (u : Ty) :
    h.directSupertype ⟨c, [u]⟩ b = .ok ⟨b, [u]⟩ := by
  obtain ⟨name, hd⟩ := hc
  have hfind : onto.find? (fun a => a = b) = some b := by
    cases hfound : onto.find? fun a => a = b with
    | none => exact absurd (decide_eq_true rfl) (List.find?_eq_none.1 hfound b hb)
    | some a => simpa using List.find?_some hfound
  have hbase : (ClassDef.rung name c onto ancestors).baseOf? b = some ⟨b, [.var ⟨1⟩]⟩ := by
    rw [ClassDef.baseOf?, ClassDef.rung, List.find?_map, Function.comp_def, hfind]
    rfl
  rw [directSupertype, get_eq_ok_iff.2 hd, ok_bind]
  simp only [hbase]
  rfl

/-- Following declarations from a class of a ladder on keeps the type argument.

**Proof sketch.** Induction on the declarations. The bases of the class belong to the ladder too. -/
lemma IsLadder.exists_followPath (hl : h.IsLadder bottom levels) {r : List BaseDecl}
    (hr : h.Follows c r) (hc : c ∈ members bottom levels) (u : Ty) :
    ∃ k, h.followPath ⟨c, [u]⟩ (r.map BaseDecl.cls) = .ok ⟨k, [u]⟩ := by
  induction hr with
  | nil => exact ⟨_, rfl⟩
  | @cons c s r hs _ ih =>
    obtain ⟨onto, ancestors, hrung, honto⟩ := hl.exists_rung hc
    have hbase : s.base ∈ onto.map fun b => (⟨b, [.var ⟨1⟩]⟩ : Instance) := by
      rw [← hrung.basesOf_eq]
      exact List.mem_of_getElem? (mem_baseDeclsOf.1 hs)
    obtain ⟨b, hb, hsb⟩ := List.mem_map.1 hbase
    have hcls : s.cls = b := congrArg Instance.cls hsb.symm
    obtain ⟨k, hk⟩ := ih (hcls ▸ honto b hb)
    refine ⟨k, ?_⟩
    rw [List.map_cons, followPath, List.foldlM_cons, hcls, hrung.directSupertype_eq hb, ok_bind]
    exact hcls ▸ hk

/-- A class of a ladder leads wherever a class leads that it extends. -/
lemma IsRung.leadsTo (hc : h.IsRung c onto ancestors) (hb : b ∈ onto) (hdefined : h.IsDefined b)
    (ha : b = a ∨ h.LeadsTo a [] b) : h.LeadsTo a [] c := by
  have hbase : (⟨b, [.var ⟨1⟩]⟩ : Instance) ∈ h.basesOf c := by
    rw [hc.basesOf_eq]
    exact List.mem_map_of_mem hb
  rcases ha with ha | ha
  · exact .direct hbase ha
  · exact .step hbase hdefined List.not_mem_nil ha

/-- The highest join leads to all other classes of the ladder.

**Proof sketch.** Induction on the levels. The join leads to its sides at once, and by its left side
to the join below and whatever that leads to. -/
lemma IsLadder.leadsTo_of_mem (hl : h.IsLadder bottom levels) (ha : a ∈ members bottom levels) :
    top bottom levels = a ∨ h.LeadsTo a [] (top bottom levels) := by
  induction hl with
  | bottom _ => exact Or.inl (List.mem_singleton.1 ha).symm
  | @level level below lower left right join _ ih =>
    have htop := lower.isDefined (top_mem_members bottom below)
    rw [members, List.mem_cons, List.mem_cons, List.mem_cons] at ha
    rcases ha with rfl | rfl | rfl | ha
    · exact Or.inl rfl
    · exact Or.inr (join.leadsTo (by simp) left.isDefined (Or.inl rfl))
    · exact Or.inr (join.leadsTo (by simp) right.isDefined (Or.inl rfl))
    · exact Or.inr (join.leadsTo (by simp) left.isDefined
        (Or.inr (left.leadsTo (by simp) htop (ih ha))))

/-- A class of a ladder leads to the ancestors that it lists, so none of them is listed without
reason.

**Proof sketch.** Induction on the levels. A join lists all classes up to its level, and a side
those of the levels below, to which it leads by the join there. -/
lemma IsLadder.leadsTo_of_listed (hl : h.IsLadder bottom levels)
    (hc : c ∈ members bottom levels) {d : ClassDef} (hd : h.find? c = some d)
    (ha : a ∈ d.ancestors) : c = a ∨ h.LeadsTo a [] c := by
  induction hl with
  | bottom join =>
    obtain rfl := List.mem_singleton.1 hc
    obtain ⟨name, hbottom⟩ := join
    obtain rfl := Option.some.inj (hbottom.symm.trans hd)
    exact Or.inl (List.mem_singleton.1 ha).symm
  | @level level below lower left right join hnodup ih =>
    have hl : h.IsLadder bottom (level :: below) := .level lower left right join hnodup
    have htop := lower.isDefined (top_mem_members bottom below)
    have hside : ∀ {side}, h.IsRung side [top bottom below] (members bottom below) →
        h.find? side = some d → side = a ∨ h.LeadsTo a [] side := by
      intro side hrung hd
      obtain ⟨name, hside⟩ := id hrung
      obtain rfl := Option.some.inj (hside.symm.trans hd)
      rcases List.mem_cons.1 ha with ha | ha
      · exact Or.inl ha.symm
      · exact Or.inr (hrung.leadsTo (by simp) htop (lower.leadsTo_of_mem ha))
    rw [members, List.mem_cons, List.mem_cons, List.mem_cons] at hc
    rcases hc with rfl | rfl | rfl | hc
    · obtain ⟨name, hjoin⟩ := join
      obtain rfl := Option.some.inj (hjoin.symm.trans hd)
      exact hl.leadsTo_of_mem ha
    · exact hside left hd
    · exact hside right hd
    · exact ih hc

/-- The projection of a class of a ladder onto an ancestor keeps the type argument, whichever way
the ancestor is reached.

**Proof sketch.** The ancestor is reached, so the projection follows the first path to it. That path
is the path of some route, and following a route keeps the argument. -/
theorem IsLadder.supertype_eq (hl : h.IsLadder bottom levels) (hc : c ∈ members bottom levels)
    {d : ClassDef} (hd : h.find? c = some d) (ha : a ∈ d.ancestors) (u : Ty) :
    h.supertype ⟨c, [u]⟩ a = pure ⟨a, [u]⟩ := by
  by_cases hca : c = a
  · rw [supertype_of_cls_eq hca, hca]
  · have hleads := (hl.leadsTo_of_listed hc hd ha).resolve_left hca
    obtain ⟨p, j, -, hpath, hj, -, hcls⟩ := exists_supertypes_cons (i := ⟨c, [u]⟩) hd hleads
    have hp : p ∈ h.pathsFrom a [c] c :=
      List.mem_of_head? (Except.ok.inj ((path_eq_head?_pathsFrom hd a).symm.trans hpath))
    rw [pathsFrom_eq_map_routesFrom] at hp
    obtain ⟨r, hr, rfl⟩ := List.mem_map.1 hp
    obtain ⟨k, hk⟩ := hl.exists_followPath (mem_routesFrom_iff.1 hr).follows hc u
    obtain rfl := Except.ok.inj (hk.symm.trans hj)
    obtain rfl : k = a := hcls
    rw [supertype_of_path hca hd ha hpath, hj]
    rfl

end Hierarchy

end GenericSlots
