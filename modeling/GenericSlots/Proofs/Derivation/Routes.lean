import GenericSlots.Proofs.Derivation.FirstPath
import Mathlib.Data.List.Sort
set_option autoImplicit false

/-!
# Routes

A class may declare the same base class more than once, so a path of classes does not tell which
declarations lead along it. A route does: it is a sequence of declarations, each with its position
among the bases of the class that makes it. Positions order the routes from a class to another as a
dictionary orders words.

The enumeration of paths goes through the declarations of a class in order and puts each in front of
the routes that are left. So it gives the paths of all routes, each as often as there are routes
along it, in the order of the routes.

## Main definitions

* `GenericSlots.BaseDecl`: a declared base with its position.
* `GenericSlots.BaseDecl.Before`: the order of sequences of declarations.
* `GenericSlots.Hierarchy.IsRoute`: declarations that lead from a class to another, past classes
  that are `GenericSlots.Hierarchy.Passable`.
* `GenericSlots.Hierarchy.ListsRoutes`: all routes from a class to another, in order.
* `GenericSlots.Hierarchy.routesFrom`: the routes that the enumeration of paths goes through.

## Main results

* `GenericSlots.Hierarchy.mem_routesFrom_iff`, `GenericSlots.Hierarchy.pairwise_routesFrom`: what
  the enumeration goes through are all routes, in order.
* `GenericSlots.Hierarchy.ListsRoutes.eq`: there is only one list of all routes in order.
* `GenericSlots.Hierarchy.paths_eq_map_routes`: all paths from a class to another.
-/

namespace GenericSlots

/-- A declared base, with its position among the bases of the class that declares it. The position
tells declarations apart that are equal as bases. -/
structure BaseDecl where
  /-- The position, counted from zero. -/
  position : Nat
  /-- The base. -/
  base : Instance
  deriving DecidableEq

namespace BaseDecl

/-- The class of the base, which is where the declaration leads. -/
def cls (s : BaseDecl) : ClassId :=
  s.base.cls

/-- Declarations come before others by their positions, the first of which counts most. A sequence
that another continues comes before it. -/
def Before (r r' : List BaseDecl) : Prop :=
  r.map position < r'.map position

/-- No sequence of declarations comes before itself. -/
instance : Std.Irrefl Before :=
  ⟨fun r => List.lt_irrefl (r.map position)⟩

/-- Of two sequences of declarations, at most one comes before the other. A list of routes in order
is therefore determined by its members. -/
instance : Std.Antisymm Before :=
  ⟨fun _ _ hlt hgt => absurd hgt (List.lt_asymm hlt)⟩

/-- The first positions decide which sequence comes before the other, and if they are equal, what
follows them does. -/
lemma before_cons_iff {s s' : BaseDecl} {r r' : List BaseDecl} :
    Before (s :: r) (s' :: r') ↔
      s.position < s'.position ∨ s.position = s'.position ∧ Before r r' :=
  List.cons_lt_cons_iff

end BaseDecl

namespace Hierarchy

/-- The declarations that a class makes, in order. A class that is not defined makes none. -/
def baseDeclsOf (h : Hierarchy) (c : ClassId) : List BaseDecl :=
  (h.basesOf c).mapIdx BaseDecl.mk

/-- Declarations that follow each other: a class makes the first, and the class of each makes the
next. This says nothing about which classes are passed. -/
inductive Follows (h : Hierarchy) : ClassId → List BaseDecl → Prop
  /-- No declarations at all. -/
  | nil {c : ClassId} : Follows h c []
  /-- A declaration of the class, followed by declarations from the class of the base on. -/
  | cons {c : ClassId} {s : BaseDecl} {r : List BaseDecl} (declared : s ∈ h.baseDeclsOf c)
      (onward : Follows h s.cls r) : Follows h c (s :: r)

/-- Classes that may be passed on the way to the target: they are defined, differ from each other
and from the target, and none of them is to be avoided. -/
structure Passable (h : Hierarchy) (target : ClassId) (avoid ks : List ClassId) : Prop where
  /-- No class is passed twice. -/
  nodup : ks.Nodup
  /-- The classes are defined. -/
  defined : ∀ k ∈ ks, h.IsDefined k
  /-- The classes are not to be avoided. -/
  allowed : ∀ k ∈ ks, k ∉ avoid
  /-- The target is not passed. -/
  ahead : ∀ k ∈ ks, k ≠ target

/-- A route from a class to the target. Where it starts is free, and so is the target: it may be a
class to be avoided, or not be defined. -/
structure IsRoute (h : Hierarchy) (target : ClassId) (avoid : List ClassId) (c : ClassId)
    (r : List BaseDecl) : Prop where
  /-- The declarations follow each other. -/
  follows : h.Follows c r
  /-- The last base is the target. -/
  arrives : (r.map BaseDecl.cls).getLast? = some target
  /-- The classes of the other bases may be passed. -/
  passable : h.Passable target avoid (r.map BaseDecl.cls).dropLast

/-- All routes from a class to the target that do not come back to the class, in the order of the
positions of their declarations. This says what the enumeration of paths should go through, without
saying how. -/
structure ListsRoutes (h : Hierarchy) (c target : ClassId) (routes : List (List BaseDecl)) :
    Prop where
  /-- They are listed in order, and none of them twice. -/
  ordered : routes.Pairwise BaseDecl.Before
  /-- What is listed are the routes. -/
  mem_iff : ∀ r, r ∈ routes ↔ h.IsRoute target [c] c r

variable {h : Hierarchy} {target c : ClassId} {avoid visiting : List ClassId} {s : BaseDecl}
  {r : List BaseDecl}

/-! ## Declarations -/

/-- A class makes exactly the declarations that have one of its bases in its position. -/
lemma mem_baseDeclsOf : s ∈ h.baseDeclsOf c ↔ (h.basesOf c)[s.position]? = some s.base := by
  obtain ⟨n, b⟩ := s
  simp only [baseDeclsOf, List.mem_mapIdx, BaseDecl.mk.injEq, List.getElem?_eq_some_iff]
  constructor
  · rintro ⟨_, hn, rfl, rfl⟩
    exact ⟨hn, rfl⟩
  · rintro ⟨hn, rfl⟩
    exact ⟨n, hn, rfl, rfl⟩

/-- The bases that a class declares are those of its declarations, in the same order. -/
lemma map_base_baseDeclsOf (h : Hierarchy) (c : ClassId) :
    (h.baseDeclsOf c).map BaseDecl.base = h.basesOf c := by
  apply List.ext_getElem <;> simp [baseDeclsOf]

/-- A class makes its declarations in the order of their positions. -/
lemma pairwise_baseDeclsOf (h : Hierarchy) (c : ClassId) :
    (h.baseDeclsOf c).Pairwise fun s s' => s.position < s'.position := by
  rw [List.pairwise_iff_getElem]
  intro m n hm hn hlt
  simpa [baseDeclsOf] using hlt

/-! ## Routes -/

/-- A route that leads to the target at once passes no class. -/
lemma passable_nil : h.Passable target avoid [] :=
  ⟨List.nodup_nil, by simp, by simp, by simp⟩

/-- A class that has been passed is to be avoided from there on. This is what takes the condition on
a whole route apart into one on each step.

**Proof sketch.** That no class is passed twice means, for the first class, that it is not among the
others; the condition on those says so too, as it has the first class among those to be avoided. -/
lemma passable_cons_iff {k : ClassId} {ks : List ClassId} :
    h.Passable target avoid (k :: ks) ↔
      k ≠ target ∧ (h.IsDefined k ∧ k ∉ avoid) ∧ h.Passable target (k :: avoid) ks := by
  constructor
  · rintro ⟨hnodup, hdefined, hallowed, hahead⟩
    rw [List.nodup_cons] at hnodup
    rw [List.forall_mem_cons] at hdefined hallowed hahead
    refine ⟨hahead.1, ⟨hdefined.1, hallowed.1⟩, hnodup.2, hdefined.2, fun k' hk' hmem => ?_,
      hahead.2⟩
    rcases List.mem_cons.1 hmem with rfl | hmem
    · exact hnodup.1 hk'
    · exact hallowed.2 k' hk' hmem
  · rintro ⟨hne, ⟨hdef, hfree⟩, hnodup, hdefined, hallowed, hahead⟩
    refine ⟨List.nodup_cons.2 ⟨fun hmem => hallowed k hmem List.mem_cons_self, hnodup⟩,
      List.forall_mem_cons.2 ⟨hdef, hdefined⟩, List.forall_mem_cons.2 ⟨hfree, ?_⟩,
      List.forall_mem_cons.2 ⟨hne, hahead⟩⟩
    exact fun k' hk' hmem => hallowed k' hk' (List.mem_cons_of_mem _ hmem)

/-- A route has at least one declaration, since it arrives at the target by the last one. -/
lemma not_isRoute_nil : ¬h.IsRoute target avoid c [] :=
  fun hr => nomatch hr.arrives

/-- A route is a declaration of the target, or a declaration of a class that may be passed, followed
by a route that does not come back to it.

**Proof sketch.** Whether another declaration follows tells the two cases apart. If one does, the
route arrives where the rest of it arrives, and passes the class of the first declaration before
those that the rest passes. -/
lemma isRoute_cons_iff :
    h.IsRoute target avoid c (s :: r) ↔ s ∈ h.baseDeclsOf c ∧
      (s.cls = target ∧ r = [] ∨
        s.cls ≠ target ∧ (h.IsDefined s.cls ∧ s.cls ∉ avoid) ∧
          h.IsRoute target (s.cls :: avoid) s.cls r) := by
  cases r with
  | nil =>
    constructor
    · rintro ⟨_ | ⟨hs, -⟩, harrives, -⟩
      exact ⟨hs, Or.inl ⟨by simpa using harrives, rfl⟩⟩
    · rintro ⟨hs, ⟨ht, -⟩ | ⟨-, -, hr⟩⟩
      · exact ⟨.cons hs .nil, by simp [ht], passable_nil⟩
      · exact absurd hr not_isRoute_nil
  | cons s' r =>
    have hlast : ((s :: s' :: r).map BaseDecl.cls).getLast? =
        ((s' :: r).map BaseDecl.cls).getLast? := by simp
    have hway : ((s :: s' :: r).map BaseDecl.cls).dropLast =
        s.cls :: ((s' :: r).map BaseDecl.cls).dropLast := by simp
    constructor
    · rintro ⟨_ | ⟨hs, hr⟩, harrives, hpassable⟩
      rw [hlast] at harrives
      rw [hway, passable_cons_iff] at hpassable
      obtain ⟨hne, hfree, hpassable⟩ := hpassable
      exact ⟨hs, Or.inr ⟨hne, hfree, hr, harrives, hpassable⟩⟩
    · rintro ⟨hs, ⟨-, hnil⟩ | ⟨hne, hfree, hr, harrives, hpassable⟩⟩
      · cases hnil
      · refine ⟨.cons hs hr, hlast.trans harrives, ?_⟩
        rw [hway, passable_cons_iff]
        exact ⟨hne, hfree, hpassable⟩

/-! ## Enumeration -/

/-- All routes from a class to the target that avoid the classes being visited, in order. This goes
through the declarations in the same way as the enumeration of paths goes through the bases. -/
def routesFrom (h : Hierarchy) (target : ClassId) (visiting : List ClassId) (c : ClassId) :
    List (List BaseDecl) :=
  (h.baseDeclsOf c).flatMap fun s =>
    if s.cls = target then
      [[s]]
    else if _hs : h.IsDefined s.cls ∧ s.cls ∉ visiting then
      (routesFrom h target (s.cls :: visiting) s.cls).map (s :: ·)
    else
      []
termination_by h.unseen visiting
decreasing_by exact unseen_cons_lt _hs.1 _hs.2

/-- The routes that start with a given declaration. -/
def routesVia (h : Hierarchy) (target : ClassId) (visiting : List ClassId) (s : BaseDecl) :
    List (List BaseDecl) :=
  if s.cls = target then
    [[s]]
  else if h.IsDefined s.cls ∧ s.cls ∉ visiting then
    (h.routesFrom target (s.cls :: visiting) s.cls).map (s :: ·)
  else
    []

/-- All routes are those that start with each declaration in turn. -/
lemma routesFrom_eq_flatMap (h : Hierarchy) (target : ClassId) (visiting : List ClassId)
    (c : ClassId) :
    h.routesFrom target visiting c = (h.baseDeclsOf c).flatMap (h.routesVia target visiting) := by
  rw [routesFrom]
  rfl

/-- A route is enumerated below its first declaration, either because that leads to the target or
because the rest is enumerated from there on.

**Proof sketch.** By cases on whether the declaration leads to the target, and then on whether the
search may go on from its class. Each case is one branch of the enumeration. -/
lemma mem_routesVia_iff :
    r ∈ h.routesVia target visiting s ↔ ∃ rest, r = s :: rest ∧
      (s.cls = target ∧ rest = [] ∨
        s.cls ≠ target ∧ (h.IsDefined s.cls ∧ s.cls ∉ visiting) ∧
          rest ∈ h.routesFrom target (s.cls :: visiting) s.cls) := by
  unfold routesVia
  by_cases ht : s.cls = target
  · simp [ht]
  · by_cases hs : h.IsDefined s.cls ∧ s.cls ∉ visiting
    · simp [ht, hs, eq_comm, and_comm]
    · simp [ht, hs]

/-- What is enumerated are the paths of all routes, in the order of the routes. A path occurs as
often as there are routes along it.

**Proof sketch.** Induction on the enumeration. Bases and declarations are gone through in the same
order, and for each the same question is asked, so the paths below a base are those of the routes
below its declaration. -/
lemma pathsFrom_eq_map_routesFrom (h : Hierarchy) (target : ClassId) (visiting : List ClassId)
    (c : ClassId) :
    h.pathsFrom target visiting c =
      (h.routesFrom target visiting c).map (List.map BaseDecl.cls) := by
  induction visiting, c using routesFrom.induct h with
  | case1 visiting c ih =>
    rw [pathsFrom_eq_flatMap, routesFrom_eq_flatMap, ← map_base_baseDeclsOf, List.flatMap_map,
      List.map_flatMap]
    refine List.flatMap_congr fun s _ => ?_
    have hcls : s.base.cls = s.cls := rfl
    simp only [pathsVia, routesVia, hcls]
    by_cases ht : s.cls = target
    · simp [ht]
    · by_cases hs : h.IsDefined s.cls ∧ s.cls ∉ visiting
      · simp [ht, hs, ih s hs]
      · simp [ht, hs]

/-- What is enumerated are the routes that avoid the classes being visited.

**Proof sketch.** Induction on the enumeration. By `isRoute_cons_iff` a route is its first
declaration and, unless that leads to the target, a route from there on, which is what
`mem_routesVia_iff` says of the enumeration. -/
theorem mem_routesFrom_iff :
    r ∈ h.routesFrom target visiting c ↔ h.IsRoute target visiting c r := by
  induction visiting, c using routesFrom.induct h generalizing r with
  | case1 visiting c ih =>
    rw [routesFrom_eq_flatMap, List.mem_flatMap]
    cases r with
    | nil => simp [mem_routesVia_iff, not_isRoute_nil]
    | cons s rest =>
      rw [isRoute_cons_iff]
      constructor
      · rintro ⟨_, hs, hvia⟩
        obtain ⟨_, heq, hrest⟩ := mem_routesVia_iff.1 hvia
        obtain ⟨rfl, rfl⟩ := List.cons.inj heq
        exact ⟨hs, hrest.imp_right fun ⟨ht, hfree, hmem⟩ => ⟨ht, hfree, (ih s hfree).1 hmem⟩⟩
      · rintro ⟨hs, hrest⟩
        refine ⟨s, hs, mem_routesVia_iff.2 ⟨rest, rfl, ?_⟩⟩
        exact hrest.imp_right fun ⟨ht, hfree, hroute⟩ => ⟨ht, hfree, (ih s hfree).2 hroute⟩

/-- Routes are enumerated in the order of their positions.

**Proof sketch.** Induction on the enumeration. Routes that start with the same declaration are in
order because the rests of them are, and otherwise the positions of the first declarations
decide. -/
theorem pairwise_routesFrom (h : Hierarchy) (target : ClassId) (visiting : List ClassId)
    (c : ClassId) :
    (h.routesFrom target visiting c).Pairwise BaseDecl.Before := by
  induction visiting, c using routesFrom.induct h with
  | case1 visiting c ih =>
    rw [routesFrom_eq_flatMap, List.pairwise_flatMap]
    constructor
    · -- routes with the same first declaration differ in what follows it
      intro s _
      unfold routesVia
      split
      · exact List.pairwise_singleton _ _
      · split
        next hs =>
          rw [List.pairwise_map]
          exact (ih s hs).imp fun hlt => BaseDecl.before_cons_iff.2 (Or.inr ⟨rfl, hlt⟩)
        next => exact List.Pairwise.nil
    · -- otherwise the first declarations decide
      refine (h.pairwise_baseDeclsOf c).imp fun hlt r hr r' hr' => ?_
      obtain ⟨_, rfl, -⟩ := mem_routesVia_iff.1 hr
      obtain ⟨_, rfl, -⟩ := mem_routesVia_iff.1 hr'
      exact BaseDecl.before_cons_iff.2 (Or.inl hlt)

/-! ## All paths -/

/-- The paths of a class that is defined are enumerated with only the class itself to be avoided. -/
lemma paths_eq_pathsFrom (hc : h.IsDefined c) (target : ClassId) :
    h.paths c target = .ok (h.pathsFrom target [c] c) := by
  obtain ⟨d, hd⟩ := isDefined_iff.1 hc
  rw [paths, get_eq_ok_iff.2 hd, ok_bind]
  rfl

/-- The routes that the enumeration goes through are all routes in order. -/
lemma listsRoutes_routesFrom (h : Hierarchy) (c target : ClassId) :
    h.ListsRoutes c target (h.routesFrom target [c] c) where
  ordered := h.pairwise_routesFrom target [c] c
  mem_iff _ := mem_routesFrom_iff

/-- There is only one list of all routes in order, because lists in order that have the same members
are equal. -/
theorem ListsRoutes.eq {routes routes' : List (List BaseDecl)}
    (hr : h.ListsRoutes c target routes) (hr' : h.ListsRoutes c target routes') :
    routes = routes' := by
  refine hr.ordered.eq_of_mem_iff hr'.ordered fun r => ?_
  rw [hr.mem_iff, hr'.mem_iff]

/-- All paths from a class to another are the paths of all routes, in the order of the routes. The
routes and their order are determined by the hierarchy alone, so this says which paths there are,
how often each is listed and in which order. -/
theorem paths_eq_map_routes (hc : h.IsDefined c) (target : ClassId) :
    ∃ routes, h.ListsRoutes c target routes ∧
      (∀ routes', h.ListsRoutes c target routes' → routes' = routes) ∧
      h.paths c target = .ok (routes.map (List.map BaseDecl.cls)) := by
  have hlists := h.listsRoutes_routesFrom c target
  refine ⟨_, hlists, fun routes' hr' => hr'.eq hlists, ?_⟩
  rw [paths_eq_pathsFrom hc, pathsFrom_eq_map_routesFrom]

/-- Two routes lead from the hub back to it, since it declares the loop twice. -/
theorem paths_eq_map_routes_knot :
    ∃ routes, knot.ListsRoutes ⟨2⟩ ⟨2⟩ routes ∧
      (∀ routes', knot.ListsRoutes ⟨2⟩ ⟨2⟩ routes' → routes' = routes) ∧
      knot.paths ⟨2⟩ ⟨2⟩ = .ok (routes.map (List.map BaseDecl.cls)) :=
  paths_eq_map_routes (by decide) ⟨2⟩

end Hierarchy

end GenericSlots
