import GenericSlots.Projection
import GenericSlots.Proofs.Derivation.Routes
import GenericSlots.Proofs.Failure
set_option autoImplicit false

/-!
# Projections along all routes

Paths are recorded as classes, and each step of a path is resolved again by the first base that the
class declares for the next class. So routes that pass the same classes all give what the first of
them gives, although there are as many results as routes. Each route gives what its own declarations
say if no class declares the same base class twice.

## Main definitions

* `GenericSlots.Hierarchy.through`, `GenericSlots.Hierarchy.followRoute`: the projection of an
  instance onto one declared base and along a route.
* `GenericSlots.Hierarchy.firstRoute`: the first of all routes along a path.

## Main results

* `GenericSlots.Hierarchy.followPath_eq_followRoute`: following a path is following the first route
  along it.
* `GenericSlots.Hierarchy.exists_followRoute`: following a route does not fail and leads to the
  class of its last base.
* `GenericSlots.Hierarchy.exists_supertypes_of_routes`: what the projections along all paths are.
-/

namespace GenericSlots

/-- A search in an ordered list finds an element that is looked for, or one before it. This is what
makes the first route that is found along a path the first of all routes along it.

**Proof sketch.** By induction on the list. The first element is found, or it is not looked for and
the rest is searched. If it is found, it is the given element or stands before it. -/
lemma exists_find?_eq_some {α : Type} {R : α → α → Prop} {p : α → Bool} {l : List α} {a : α}
    (hl : l.Pairwise R) (ha : a ∈ l) (hp : p a) :
    ∃ b, l.find? p = some b ∧ (b = a ∨ R b a) := by
  induction hl with
  | nil => cases ha
  | @cons x l hx _ ih =>
    by_cases hpx : p x
    · refine ⟨x, List.find?_cons_of_pos hpx, ?_⟩
      exact (List.mem_cons.1 ha).imp Eq.symm (hx a)
    · rw [List.find?_cons_of_neg hpx]
      rcases List.mem_cons.1 ha with rfl | ha
      · exact absurd hp hpx
      · exact ih ha

namespace Hierarchy

/-- The base of a declaration, with the arguments of an instance in place of the type parameters of
its class. It takes the declaration as it is given, and does not look for another one of the same
base class. -/
def through (h : Hierarchy) (i : Instance) (s : BaseDecl) : Except Fault Instance :=
  return s.base.expand (← h.argumentsOf i)

/-- The projection of an instance along a route: it is expanded through one declaration after the
other. This is what the declarations on the route say, while the program knows the classes on the
way only. -/
def followRoute (h : Hierarchy) (i : Instance) (r : List BaseDecl) : Except Fault Instance :=
  r.foldlM h.through i

/-- The first declaration of a base class that a class makes, with its position. The same base class
may be declared again further on, with other arguments. -/
def firstBaseDecl? (h : Hierarchy) (c k : ClassId) : Option BaseDecl :=
  (h.baseDeclsOf c).find? fun s => s.cls = k

/-- The route along a path that takes the first declaration of each class on it. It ends where there
is none, which does not happen on the path of a route. -/
def firstRoute (h : Hierarchy) : ClassId → List ClassId → List BaseDecl
  | _, [] => []
  | c, k :: p =>
    match h.firstBaseDecl? c k with
    | some s => s :: firstRoute h k p
    | none => []

variable {h : Hierarchy} {c a : ClassId} {i : Instance} {s : BaseDecl} {r : List BaseDecl}

/-! ## The first route along a path -/

/-- A class that declares a base has a first declaration of its class, at no later position. The two
are the same declaration if the base class is declared once. -/
lemma exists_firstBaseDecl? (hs : s ∈ h.baseDeclsOf c) :
    ∃ s', h.firstBaseDecl? c s.cls = some s' ∧ s' ∈ h.baseDeclsOf c ∧ s'.cls = s.cls ∧
      s'.position ≤ s.position := by
  obtain ⟨s', hfirst, hbefore⟩ :=
    exists_find?_eq_some (p := fun s' => s'.cls = s.cls) (h.pairwise_baseDeclsOf c) hs (by simp)
  refine ⟨s', hfirst, List.mem_of_find?_eq_some hfirst, ?_, ?_⟩
  · simpa using List.find?_some hfirst
  · rcases hbefore with rfl | hlt
    · exact Nat.le_refl _
    · exact Nat.le_of_lt hlt

/-- The first route along the path of a route follows its declarations and passes the same classes,
and the route does not come before it.

**Proof sketch.** By induction on the route. The first declaration of a class has no later position
than the one on the route, and both lead to the same class, from where the induction hypothesis goes
on. If the route came before the first one, it would do so at this declaration, which has no earlier
position, or further on, which the hypothesis excludes. -/
lemma Follows.firstRoute (hr : h.Follows c r) :
    h.Follows c (h.firstRoute c (r.map BaseDecl.cls)) ∧
      (h.firstRoute c (r.map BaseDecl.cls)).map BaseDecl.cls = r.map BaseDecl.cls ∧
      ¬BaseDecl.Before r (h.firstRoute c (r.map BaseDecl.cls)) := by
  induction hr with
  | nil => exact ⟨.nil, rfl, Std.Irrefl.irrefl _⟩
  | @cons c s r hs _ ih =>
    obtain ⟨s', hfirst, hs', hcls, hle⟩ := exists_firstBaseDecl? hs
    obtain ⟨hfollows, hmap, hnot⟩ := ih
    rw [List.map_cons, Hierarchy.firstRoute, hfirst]
    refine ⟨.cons hs' (hcls ▸ hfollows), by rw [List.map_cons, hcls, hmap], ?_⟩
    rw [BaseDecl.before_cons_iff]
    rintro (hlt | ⟨-, hlt⟩)
    · omega
    · exact hnot hlt

/-- Whether declarations that follow each other are a route depends on their path only: arriving at
the target and passing no class twice are said of the classes. -/
lemma IsRoute.of_map_cls {target : ClassId} {avoid : List ClassId} {r' : List BaseDecl}
    (hr : h.IsRoute target avoid c r) (hr' : h.Follows c r')
    (hmap : r'.map BaseDecl.cls = r.map BaseDecl.cls) : h.IsRoute target avoid c r' where
  follows := hr'
  arrives := hmap ▸ hr.arrives
  passable := hmap ▸ hr.passable

/-- In a list of all routes, the first one along a path is the first of all routes along it.

**Proof sketch.** The first route along the path is a route, so it is in the list, and the search
finds it or a route before it. A route along the path that came before it would contradict
`Follows.firstRoute`. -/
lemma ListsRoutes.find?_eq {target : ClassId} {routes : List (List BaseDecl)}
    (hlists : h.ListsRoutes c target routes) (hr : h.IsRoute target [c] c r) :
    (routes.find? fun r' => r'.map BaseDecl.cls = r.map BaseDecl.cls) =
      some (h.firstRoute c (r.map BaseDecl.cls)) := by
  obtain ⟨hfollows, hmap, -⟩ := hr.follows.firstRoute
  have hmem := (hlists.mem_iff _).2 (hr.of_map_cls hfollows hmap)
  obtain ⟨r', hfind, rfl | hbefore⟩ :=
    exists_find?_eq_some (p := fun r' => r'.map BaseDecl.cls = r.map BaseDecl.cls)
      hlists.ordered hmem (by simpa using hmap)
  · exact hfind
  · -- a route along the path cannot come before the first one
    have hroute' := (hlists.mem_iff r').1 (List.mem_of_find?_eq_some hfind)
    have hmap' : r'.map BaseDecl.cls = r.map BaseDecl.cls := by simpa using List.find?_some hfind
    rw [← hmap'] at hbefore
    exact absurd hbefore hroute'.follows.firstRoute.2.2

/-- If no class on the way declares the same base class twice, there is only one route along a path.
The class at the end of the path does not count, because no base of it is followed.

**Proof sketch.** By induction on the route. Both routes start with a declaration of the same base
class. The class declares it once, so the declarations are the same, and the rests of the routes
agree by the induction hypothesis. -/
lemma Follows.eq_of_map_cls {r' : List BaseDecl} (hr : h.Follows c r)
    (honce : ∀ k ∈ (c :: r.map BaseDecl.cls).dropLast, ((h.basesOf k).map Instance.cls).Nodup)
    (hr' : h.Follows c r') (hmap : r'.map BaseDecl.cls = r.map BaseDecl.cls) : r' = r := by
  induction hr generalizing r' with
  | nil => exact List.map_eq_nil_iff.1 hmap
  | @cons c s r hs _ ih =>
    rw [List.map_cons, List.dropLast_cons_cons, List.forall_mem_cons] at honce
    cases hr' with
    | nil => cases hmap
    | @cons _ s' r' hs' hr' =>
      obtain ⟨hcls, hmap⟩ := List.cons.inj hmap
      have hnodup : ((h.baseDeclsOf c).map BaseDecl.cls).Nodup := by
        have := honce.1
        rwa [← map_base_baseDeclsOf, List.map_map] at this
      rw [List.inj_on_of_nodup_map hnodup hs' hs hcls, ih honce.2 (hcls ▸ hr') hmap]

/-! ## Following routes -/

/-- The first declaration is what a base class is resolved to, because the declarations are the
bases together with their positions, in the same order. -/
lemma map_base_firstBaseDecl? {d : ClassDef} (hd : h.find? c = some d) (k : ClassId) :
    (h.firstBaseDecl? c k).map BaseDecl.base = d.baseOf? k := by
  have hbases : d.bases = (h.baseDeclsOf c).map BaseDecl.base := by
    rw [map_base_baseDeclsOf, basesOf, hd]
  rw [ClassDef.baseOf?, hbases, List.find?_map]
  rfl

/-- A class that declares a base is defined, since an undefined class is taken for one without
bases. -/
lemma isDefined_of_mem_baseDeclsOf (hs : s ∈ h.baseDeclsOf c) : h.IsDefined c := by
  obtain ⟨d, hd, -⟩ := mem_basesOf.1 (List.mem_of_getElem? (mem_baseDeclsOf.1 hs))
  exact isDefined_iff.2 ⟨d, hd⟩

/-- An instance can be expanded through every declaration of its class, and what results is an
instance of the base. The number of its arguments does not matter here. -/
lemma exists_through (hs : s ∈ h.baseDeclsOf i.cls) :
    ∃ j, h.through i s = .ok j ∧ j.cls = s.cls := by
  obtain ⟨d, hd⟩ := isDefined_iff.1 (isDefined_of_mem_baseDeclsOf hs)
  refine ⟨s.base.expand (d.assignArgs i.args), ?_, rfl⟩
  rw [through, argumentsOf, get_eq_ok_iff.2 hd]
  rfl

/-- The projection onto a declared base takes the first declaration of its class. This one step is
where the position of a declaration on a route is lost. -/
lemma directSupertype_eq_through (hfirst : h.firstBaseDecl? i.cls a = some s) :
    h.directSupertype i a = h.through i s := by
  have hs : s ∈ h.baseDeclsOf i.cls := List.mem_of_find?_eq_some hfirst
  obtain ⟨d, hd⟩ := isDefined_iff.1 (isDefined_of_mem_baseDeclsOf hs)
  have hbase : d.baseOf? a = some s.base := by
    rw [← map_base_firstBaseDecl? hd, hfirst, Option.map_some]
  rw [directSupertype, through, argumentsOf, get_eq_ok_iff.2 hd, ok_bind, hbase]
  rfl

/-- Following a route does not fail and leads to the class of its last base. On an empty route the
instance stays as it is.

**Proof sketch.** By induction on the route, with the instance kept general. Each declaration can be
expanded through, which gives an instance of the class that the next one starts from. For the last
declaration the rest of the route is empty, so its class is the one that is reached. -/
theorem exists_followRoute (hr : h.Follows c r) (hi : i.cls = c) :
    ∃ j, h.followRoute i r = .ok j ∧
      ∀ k, (r.map BaseDecl.cls).getLast? = some k → j.cls = k := by
  induction hr generalizing i with
  | nil => exact ⟨i, rfl, by simp⟩
  | @cons c s r hs hr ih =>
    subst hi
    obtain ⟨j, hj, hcls⟩ := exists_through hs
    obtain ⟨j', hj', hcls'⟩ := ih hcls
    refine ⟨j', ?_, fun k hk => ?_⟩
    · rw [followRoute, List.foldlM_cons, hj, ok_bind]
      exact hj'
    · cases hr with
      | nil =>
        obtain rfl : j = j' := Except.ok.inj hj'
        rw [hcls]
        simpa using hk
      | cons => exact hcls' k (by simpa using hk)

/-- Following a path is following the first route along it, because each step of a path is resolved
again to the first declaration of the next class.

**Proof sketch.** By induction on the route, with the instance kept general. One step along the path
expands the instance through the first declaration of the next class, which is the first step of the
first route. The result is an instance of the class that both go on from. -/
theorem followPath_eq_followRoute (hr : h.Follows c r) (hi : i.cls = c) :
    h.followPath i (r.map BaseDecl.cls) =
      h.followRoute i (h.firstRoute c (r.map BaseDecl.cls)) := by
  induction hr generalizing i with
  | nil => rfl
  | @cons c s r hs _ ih =>
    subst hi
    obtain ⟨s', hfirst, hs', hcls, -⟩ := exists_firstBaseDecl? hs
    obtain ⟨j, hj, hjcls⟩ := exists_through hs'
    rw [List.map_cons, Hierarchy.firstRoute, hfirst, followPath, List.foldlM_cons,
      directSupertype_eq_through hfirst, followRoute, List.foldlM_cons, hj]
    exact ih (hjcls.trans hcls)

/-! ## All projections -/

/-- The path of a route can be followed and leads to an instance of the target. What it gives is the
instance expanded through the first route along the same path. -/
lemma IsRoute.exists_followPath {avoid : List ClassId} (hr : h.IsRoute a avoid c r)
    (hi : i.cls = c) :
    ∃ j, h.followPath i (r.map BaseDecl.cls) = .ok j ∧
      h.followRoute i (h.firstRoute c (r.map BaseDecl.cls)) = .ok j ∧ j.cls = a := by
  obtain ⟨hfollows, hmap, -⟩ := hr.follows.firstRoute
  obtain ⟨j, hj, hcls⟩ := exists_followRoute hfollows hi
  refine ⟨j, ?_, hj, hcls a (by rw [hmap, hr.arrives])⟩
  rw [followPath_eq_followRoute hr.follows hi, hj]

/-- The projections of an instance are what the paths give one by one, in the order of the paths.
The first path that cannot be followed would end the computation. -/
lemma supertypes_eq_mapM (hi : h.IsDefined i.cls) (a : ClassId) :
    h.supertypes i a = (h.pathsFrom a [i.cls] i.cls).mapM (h.followPath i) := by
  rw [supertypes, paths_eq_pathsFrom hi, ok_bind]

/-- Every path that is enumerated can be followed and leads to an instance of the target, since it
is the path of some route. -/
lemma exists_followPath_of_mem_pathsFrom {avoid : List ClassId} {p : List ClassId}
    (hp : p ∈ h.pathsFrom a avoid i.cls) : ∃ j, h.followPath i p = .ok j ∧ j.cls = a := by
  rw [pathsFrom_eq_map_routesFrom] at hp
  obtain ⟨r, hr, rfl⟩ := List.mem_map.1 hp
  obtain ⟨j, hj, -, hcls⟩ := (mem_routesFrom_iff.1 hr).exists_followPath rfl
  exact ⟨j, hj, hcls⟩

/-- An instance of a class that is defined has projections onto every class, none of them at fault.
Each is an instance of that class and is what some path gives.

**Proof sketch.** Every enumerated path can be followed, so following all of them succeeds. A
projection of the resulting list is what one of the paths gives. -/
lemma exists_supertypes (hi : h.IsDefined i.cls) (a : ClassId) :
    ∃ js, h.supertypes i a = .ok js ∧ ∀ j ∈ js, j.cls = a ∧ ∃ p, h.followPath i p = .ok j := by
  have heach : ∀ p ∈ h.pathsFrom a [i.cls] i.cls, ∃ j, h.followPath i p = .ok j ∧ j.cls = a :=
    fun _ => exists_followPath_of_mem_pathsFrom
  obtain ⟨js, hjs, -⟩ := exists_mapM_eq_ok fun p hp => (heach p hp).imp fun _ => And.left
  refine ⟨js, (supertypes_eq_mapM hi a).trans hjs, fun j hj => ?_⟩
  obtain ⟨p, hp, hfollow⟩ := exists_of_mem_of_mapM_eq_ok hjs hj
  obtain ⟨j', hfollow', hcls⟩ := heach p hp
  obtain rfl : j = j' := Except.ok.inj (hfollow.symm.trans hfollow')
  exact ⟨hcls, p, hfollow⟩

/-- There is one projection for each route, in the order of the routes. It is the instance expanded
through the first route that passes the same classes. This is the route itself if no class on it
declares the same base class twice.

**Proof sketch.** The list of paths is the list of routes with the declarations forgotten, so the
projection at a position comes from the path of the route there. Following this path is following
the first route along it, and the first route is the first one in the list that has this path. If
each class declares the base class once, routes along the same path are the same. -/
theorem exists_supertypes_of_routes (hi : h.IsDefined i.cls) (a : ClassId) :
    ∃ routes js, h.ListsRoutes i.cls a routes ∧ h.supertypes i a = .ok js ∧
      js.length = routes.length ∧
      ∀ (n : Nat) (r : List BaseDecl), routes[n]? = some r → ∃ r' j,
        (routes.find? fun r' => r'.map BaseDecl.cls = r.map BaseDecl.cls) = some r' ∧
        h.followRoute i r' = .ok j ∧ js[n]? = some j ∧
        ((∀ k ∈ (i.cls :: r.map BaseDecl.cls).dropLast, ((h.basesOf k).map Instance.cls).Nodup) →
          r' = r) := by
  have hlists := h.listsRoutes_routesFrom i.cls a
  have heach : ∀ p ∈ h.pathsFrom a [i.cls] i.cls, ∃ j, h.followPath i p = .ok j := fun p hp =>
    (exists_followPath_of_mem_pathsFrom hp).imp fun _ => And.left
  obtain ⟨js, hjs, hlen, hget⟩ := exists_mapM_eq_ok heach
  rw [pathsFrom_eq_map_routesFrom] at hlen hget
  refine ⟨_, js, hlists, (supertypes_eq_mapM hi a).trans hjs, by rw [hlen, List.length_map],
    fun n r hr => ?_⟩
  have hroute := mem_routesFrom_iff.1 (List.mem_of_getElem? hr)
  obtain ⟨j, hj, hfollow, -⟩ := hroute.exists_followPath rfl
  have hpath : ((h.routesFrom a [i.cls] i.cls).map (List.map BaseDecl.cls))[n]? =
      some (r.map BaseDecl.cls) := by rw [List.getElem?_map, hr, Option.map_some]
  refine ⟨_, j, hlists.find?_eq hroute, hfollow, hget n _ j hpath hj, fun honce => ?_⟩
  obtain ⟨hfollows, hmap, -⟩ := hroute.follows.firstRoute
  exact hroute.follows.eq_of_map_cls honce hfollows hmap

/-- A pair is a box of its first component and also a box of its second one. So there are two routes
from the class of pairs to the class of boxes, and they pass the same classes. -/
def doubled : Hierarchy where
  classes := #[
    .fresh "object" .object,
    { ClassDef.fresh "Box" ⟨1⟩ with params := [⟨"T", ⟨1⟩⟩] },
    { ClassDef.fresh "Pair" ⟨2⟩ with
      params := [⟨"S", ⟨1⟩⟩, ⟨"T", ⟨2⟩⟩]
      bases := [⟨⟨1⟩, [.var ⟨1⟩]⟩, ⟨⟨1⟩, [.var ⟨2⟩]⟩] }]
  names := ∅

/-- A pair is projected onto the class of boxes along two routes. Both projections are what the
first of them gives. -/
theorem exists_supertypes_of_routes_doubled :
    ∃ routes js, doubled.ListsRoutes ⟨2⟩ ⟨1⟩ routes ∧
      doubled.supertypes ⟨⟨2⟩, [.any, .noneType]⟩ ⟨1⟩ = .ok js ∧ js.length = routes.length ∧
      ∀ (n : Nat) (r : List BaseDecl), routes[n]? = some r → ∃ r' j,
        (routes.find? fun r' => r'.map BaseDecl.cls = r.map BaseDecl.cls) = some r' ∧
        doubled.followRoute ⟨⟨2⟩, [.any, .noneType]⟩ r' = .ok j ∧ js[n]? = some j ∧
        ((∀ k ∈ ((⟨2⟩ : ClassId) :: r.map BaseDecl.cls).dropLast,
          ((doubled.basesOf k).map Instance.cls).Nodup) → r' = r) :=
  exists_supertypes_of_routes (i := ⟨⟨2⟩, [.any, .noneType]⟩) (by decide) ⟨1⟩

/-- The box of the second component is not among the projections of a pair, although there is a
route that leads to it.

**Proof sketch.** If each projection were the instance expanded along its own route, the route
through the second base would put a box of the second component into the list. The list holds the
box of the first component twice. -/
theorem not_exists_supertypes_of_routes_doubled :
    ¬∃ routes js, doubled.ListsRoutes ⟨2⟩ ⟨1⟩ routes ∧
      doubled.supertypes ⟨⟨2⟩, [.any, .noneType]⟩ ⟨1⟩ = .ok js ∧ js.length = routes.length ∧
      ∀ (n : Nat) (r : List BaseDecl), routes[n]? = some r → ∃ j,
        doubled.followRoute ⟨⟨2⟩, [.any, .noneType]⟩ r = .ok j ∧ js[n]? = some j := by
  rintro ⟨routes, js, hlists, hjs, -, hall⟩
  have hroute : doubled.IsRoute ⟨1⟩ [⟨2⟩] ⟨2⟩ [⟨1, ⟨⟨1⟩, [.var ⟨2⟩]⟩⟩] :=
    ⟨.cons (by decide +kernel) .nil, rfl, passable_nil⟩
  have hfollow : doubled.followRoute ⟨⟨2⟩, [.any, .noneType]⟩ [⟨1, ⟨⟨1⟩, [.var ⟨2⟩]⟩⟩] =
      .ok ⟨⟨1⟩, [.noneType]⟩ := by decide +kernel
  have hsame : doubled.supertypes ⟨⟨2⟩, [.any, .noneType]⟩ ⟨1⟩ =
      .ok [⟨⟨1⟩, [.any]⟩, ⟨⟨1⟩, [.any]⟩] := by decide +kernel
  obtain ⟨n, hn⟩ := List.mem_iff_getElem?.1 ((hlists.mem_iff _).2 hroute)
  obtain ⟨j, hj, hget⟩ := hall n _ hn
  obtain rfl := Except.ok.inj (hfollow.symm.trans hj)
  obtain rfl := Except.ok.inj (hsame.symm.trans hjs)
  exact absurd (List.mem_of_getElem? hget) (by decide)

end Hierarchy

end GenericSlots
