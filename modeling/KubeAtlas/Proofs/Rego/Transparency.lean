import KubeAtlas.Rego.Engine
import Mathlib.Data.List.Permutation

/-!
# `KubeAtlas.Proofs.Rego.Transparency`: when the evaluation cache can be ignored

The cache of the engine is keyed by the UID and the version of a
resource and by the digest of a module's source. The result of an
evaluation also depends on the entrypoint of the module, and on a
resource of which the UID and the version may be empty, as they are
for a Secret. So an engine can answer with the edges of another
module or another resource.

The main result is about all histories over given modules, routes
and resources: each call returns what it would without the cache if
and only if the key determines the result, for the pairs of module
and resource that can be evaluated. From right to left, whatever the
cache finds is the result of such a pair. From left to right, one
evaluation stores a result and the next one finds it. Of the LRU
library only `CacheOps.Lawful` is used.
-/

set_option autoImplicit false

namespace KubeAtlas.Proofs.Rego

open KubeAtlas.Graph Lib KubeAtlas.Rego

variable {S : Type} (ext : Externals S)

/-! ### Without the cache -/

/-- The edges that a module derives from a resource. -/
def edgesOf (m : Module) (r : Resource) : Except RuleError (List Edge) :=
  match ext.eval m (buildEvalInput r) with
  | .error cause => .error (.eval cause)
  | .ok rs => (decodeEdges rs).mapError .decode

/-- The evaluation of the given modules, one after the other. -/
def evaluateAll (e : Engine S) (r : Resource) :
    List ModuleSpec → Except EngineError (List Edge)
  | [] => .ok []
  | m :: ms =>
    match e.modules.lookup m.name with
    | none => .error (.moduleNotLoaded m.name r.ID)
    | some cm =>
      match edgesOf ext cm.query r with
      | .error cause => .error (.rule m.name r.ID cause)
      | .ok edges => (evaluateAll e r ms).map (edges ++ ·)

/-- What a call returns if there is no cache. -/
def evaluateUncached (e : Engine S) (r : Resource) : Except EngineError (List Edge) :=
  match e.router with
  | none => .error .noRouter
  | some router => evaluateAll ext e r (router.matching (gvkOf r))

/-- Every call of a history returns what it would without the cache. -/
def Transparent (size : Int) (ops : List Engine.Op) : Prop :=
  ∀ before r after, ops = before ++ .evaluate r :: after →
    ((Engine.run ext size before).evaluateForResource ext r).1 =
      evaluateUncached ext (Engine.run ext size before) r

/-! ### What can be evaluated -/

/-- The modules that may be loaded, the routes that may be
registered, and the resources that may be evaluated. -/
structure Universe where
  modules : Set Module
  routes : Set (String × ModuleSpec)
  resources : Set Resource

/-- The operations of a history are those of the universe. -/
def Universe.Allows (u : Universe) : Engine.Op → Prop
  | .load m => m ∈ u.modules
  | .register packName m => (packName, m) ∈ u.routes
  | .evaluate r => r ∈ u.resources

/-- The module is routed for the resources of a kind. -/
def Covers (m : ModuleSpec) (gvk : GVK) : Prop := m.gvkMatch = {} ∨ m.gvkMatch = gvk

instance (m : ModuleSpec) (gvk : GVK) : Decidable (Covers m gvk) :=
  inferInstanceAs (Decidable (_ ∨ _))

/-- `LoadModule` accepts the module. -/
def Loadable (m : Module) : Prop :=
  ¬(m.name = "" ∨ m.source = "" ∨ m.entrypoint = "") ∧ ext.prepare m = none

/-- What `LoadModule` stores. -/
def compiled (m : Module) : CompiledModule := { query := m, ruleHash := ext.sum m.source }

/-- The module may be evaluated on the resource. -/
structure Evaluable (u : Universe) (m : Module) (r : Resource) : Prop where
  module : m ∈ u.modules
  loadable : Loadable ext m
  resource : r ∈ u.resources
  route : ∃ route ∈ u.routes, (namespaced route.1 route.2).name = m.name ∧
    Covers route.2 (gvkOf r)

/-- The key determines the result. -/
def KeysDetermine (u : Universe) : Prop :=
  ∀ m r m' r', Evaluable ext u m r → Evaluable ext u m' r' →
    cacheKey r (compiled ext m) = cacheKey r' (compiled ext m') →
    ∀ edges, edgesOf ext m r = .ok edges → edgesOf ext m' r' = .ok edges

/-! ### The parts of the engine -/

variable {ext} {e : Engine S}

theorem evaluateEdges_eq {name : String} {cm : CompiledModule} (r : Resource)
    (h : e.modules.lookup name = some cm) :
    e.evaluateEdges ext name (buildEvalInput r) = edgesOf ext cm.query r := by
  simp only [Engine.evaluateEdges, Engine.evaluate, edgesOf, h]
  cases ext.eval cm.query (buildEvalInput r) <;> rfl

variable {mod : Module} {m : ModuleSpec}

section

variable (r : Resource) (h : e.modules.lookup m.name = some (compiled ext mod))
include h

/-- One turn of the loop over the modules, with the cache. -/
theorem evaluateMatches_cons (c : Cache S) (ms : List ModuleSpec) :
    e.evaluateMatches ext r c (m :: ms) =
      match c.getOrEvaluate ext.lru (cacheKey r (compiled ext mod)) (edgesOf ext mod r) with
      | (.error cause, c) => (.error (.rule m.name r.ID cause), c)
      | (.ok edges, c) =>
        ((e.evaluateMatches ext r c ms).1.map (edges ++ ·), (e.evaluateMatches ext r c ms).2) := by
  rw [Engine.evaluateMatches, h]
  rw [evaluateEdges_eq r h]
  rfl

/-- The same turn without the cache. -/
theorem evaluateAll_cons (ms : List ModuleSpec) :
    evaluateAll ext e r (m :: ms) =
      match edgesOf ext mod r with
      | .error cause => .error (.rule m.name r.ID cause)
      | .ok edges => (evaluateAll ext e r ms).map (edges ++ ·) := by
  rw [evaluateAll, h]
  rfl

end

variable {c : Cache S} {router : Router}

theorem evaluateForResource_eq (hrouter : e.router = some router) (hcache : e.cache = some c)
    (r : Resource) :
    e.evaluateForResource ext r =
      ((e.evaluateMatches ext r c (router.matching (gvkOf r))).1,
        { e with cache := some (e.evaluateMatches ext r c (router.matching (gvkOf r))).2 }) := by
  unfold Engine.evaluateForResource
  rw [hrouter, hcache]

theorem loadModule_of_loadable {m : Module} (h : Loadable ext m) (e : Engine S) :
    e.step ext (.load m) = { e with modules := e.modules.insert m.name (compiled ext m) } := by
  simp only [Engine.step, Engine.loadModule, if_neg h.1, h.2]
  rfl

theorem loadModule_cases (e : Engine S) (m : Module) :
    e.step ext (.load m) = e ∨ Loadable ext m := by
  unfold Engine.step Engine.loadModule Loadable
  by_cases hrequired : m.name = "" ∨ m.source = "" ∨ m.entrypoint = ""
  · exact .inl (by simp only [if_pos hrequired]; rfl)
  · cases hprepare : ext.prepare m with
    | some cause => exact .inl (by simp only [if_neg hrequired, hprepare]; rfl)
    | none => exact .inr ⟨hrequired, rfl⟩

/-- A registration adds its module to what is found for the kinds it
covers. -/
theorem matching_register (router : Router) (packName : String) (m : ModuleSpec) (gvk : GVK) :
    ((router.register packName m).matching gvk).Perm
      (if Covers m gvk then namespaced packName m :: router.matching gvk
        else router.matching gvk) := by
  unfold Router.register Router.matching
  by_cases hwild : m.gvkMatch = {}
  · rw [if_pos hwild, if_pos (show Covers m gvk from .inl hwild)]
    simp only [← List.append_assoc]
    exact List.perm_append_singleton _ _
  · rw [if_neg hwild]
    by_cases hgvk : m.gvkMatch = gvk
    · rw [if_pos (show Covers m gvk from .inr hgvk)]
      subst hgvk
      simp only [AList.lookup_insert, Option.getD_some, List.append_assoc]
      exact List.perm_middle
    · rw [if_neg (show ¬Covers m gvk from not_or.mpr ⟨hwild, hgvk⟩)]
      simp only [AList.lookup_insert_ne (Ne.symm hgvk)]
      exact List.Perm.refl _

/-! ### Entries that are right -/

/-- What the cache finds is the result of a pair that may be
evaluated, and has its key. -/
def EntriesRight (ext : Externals S) (u : Universe) (c : Cache S) : Prop :=
  ∀ key edges, (ext.lru.get c.lru key).1 = some edges → ∃ m r, Evaluable ext u m r ∧
    cacheKey r (compiled ext m) = key ∧ edgesOf ext m r = .ok edges

/-- What every history of a universe keeps. -/
structure Sourced (ext : Externals S) (u : Universe) (e : Engine S) : Prop where
  modules : ∀ name cm, e.modules.lookup name = some cm →
    ∃ m ∈ u.modules, Loadable ext m ∧ m.name = name ∧ cm = compiled ext m
  router : ∃ router, e.router = some router ∧
    ∀ gvk, ∀ m ∈ router.matching gvk, ∃ route ∈ u.routes,
      m = namespaced route.1 route.2 ∧ Covers route.2 gvk
  cache : ∃ cache, e.cache = some cache ∧ EntriesRight ext u cache

section Right

variable {u : Universe} {c : Cache S} {r : Resource}

section

variable (hlawful : ext.lru.Lawful) (hkeys : KeysDetermine ext u)
include hlawful hkeys

/-- A call of the cache, for a pair that may be evaluated. -/
theorem getOrEvaluate_right (hright : EntriesRight ext u c)
    {m : Module} (hpair : Evaluable ext u m r) :
    (c.getOrEvaluate ext.lru (cacheKey r (compiled ext m)) (edgesOf ext m r)).1 = edgesOf ext m r ∧
      EntriesRight ext u
        (c.getOrEvaluate ext.lru (cacheKey r (compiled ext m)) (edgesOf ext m r)).2 := by
  generalize hkey : cacheKey r (compiled ext m) = key
  have hlooked (k : CacheKey) (edges : List Edge)
      (h : (ext.lru.get (ext.lru.get c.lru key).2 k).1 = some edges) :=
    hright k edges (hlawful.of_get _ _ _ _ h)
  cases hfound : (ext.lru.get c.lru key).1 with
  | some edges =>
    -- the entry belongs to a pair with the same key
    obtain ⟨m', r', hpair', hkey', hedges⟩ := hright key edges hfound
    have hsame : edgesOf ext m r = .ok edges :=
      hkeys m' r' m r hpair' hpair (hkey'.trans hkey.symm) edges hedges
    obtain ⟨hout, hlru⟩ := Cache.getOrEvaluate_hit hfound (edgesOf ext m r)
    refine ⟨hout.trans hsame.symm, ?_⟩
    unfold EntriesRight
    rw [hlru]
    exact hlooked
  | none =>
    obtain ⟨hout, hlru⟩ := Cache.getOrEvaluate_miss hfound (edgesOf ext m r)
    refine ⟨hout, fun k found hget => ?_⟩
    rw [hlru] at hget
    cases hedges : edgesOf ext m r with
    | error cause =>
      rw [hedges] at hget
      exact hlooked k found hget
    | ok edges =>
      rw [hedges] at hget
      rcases hlawful.of_add _ _ _ _ _ hget with ⟨rfl, rfl⟩ | hold
      · exact ⟨m, r, hpair, hkey, hedges⟩
      · exact hlooked k found hold

/-- The loop over the modules that are routed for a resource. -/
theorem evaluateMatches_right {e : Engine S}
    (hsourced : Sourced ext u e) (hr : r ∈ u.resources) (hright : EntriesRight ext u c)
    (ms : List ModuleSpec)
    (hroutes : ∀ m ∈ ms, ∃ route ∈ u.routes, m = namespaced route.1 route.2 ∧ Covers route.2 (gvkOf
      r)) :
    (e.evaluateMatches ext r c ms).1 = evaluateAll ext e r ms ∧
      EntriesRight ext u (e.evaluateMatches ext r c ms).2 := by
  induction ms generalizing c with
  | nil => exact ⟨rfl, hright⟩
  | cons m ms ih =>
    cases hlookup : e.modules.lookup m.name with
    | none =>
      rw [Engine.evaluateMatches, evaluateAll, hlookup]
      exact ⟨rfl, hright⟩
    | some cm =>
      obtain ⟨mod, hmod, hloadable, hname, rfl⟩ := hsourced.modules _ _ hlookup
      obtain ⟨route, hroute, hm, hcovers⟩ := hroutes m (by simp)
      have hpair : Evaluable ext u mod r :=
        ⟨hmod, hloadable, hr, route, hroute, by rw [hname, hm], hcovers⟩
      obtain ⟨hout, hright'⟩ := getOrEvaluate_right hlawful hkeys hright hpair
      have hrest := ih hright' fun m' hm' => hroutes m' (List.mem_cons_of_mem _ hm')
      rw [evaluateMatches_cons r hlookup, evaluateAll_cons r hlookup]
      generalize c.getOrEvaluate ext.lru (cacheKey r (compiled ext mod)) (edgesOf ext mod r) = call
        at hout hright' hrest ⊢
      rw [← hout]
      cases call with
      | mk out cache =>
        cases out with
        | error cause => exact ⟨rfl, hright'⟩
        | ok edges => exact ⟨congrArg (Except.map (edges ++ ·)) hrest.1, hrest.2⟩

/-- A call returns what it would without the cache, and leaves right
entries behind. -/
theorem evaluateForResource_right {e : Engine S} (hsourced : Sourced ext u e)
    (hr : r ∈ u.resources) :
    (e.evaluateForResource ext r).1 = evaluateUncached ext e r ∧
      Sourced ext u (e.evaluateForResource ext r).2 := by
  obtain ⟨router, hrouter, hroutes⟩ := hsourced.router
  obtain ⟨cache, hcache, hright⟩ := hsourced.cache
  obtain ⟨hout, hafter⟩ := evaluateMatches_right hlawful hkeys hsourced hr hright
    (router.matching (gvkOf r)) (hroutes (gvkOf r))
  rw [evaluateForResource_eq hrouter hcache, evaluateUncached, hrouter]
  exact ⟨hout, hsourced.modules, ⟨router, rfl, hroutes⟩, _, rfl, hafter⟩

/-- Step: what is cached stays a result of its key. -/
theorem Sourced.step {e : Engine S} (h : Sourced ext u e)
    {op : Engine.Op} (hop : u.Allows op) : Sourced ext u (e.step ext op) := by
  cases op with
  | load m =>
    rcases loadModule_cases e m with hsame | hloadable
    · rw [hsame]
      exact h
    · rw [loadModule_of_loadable hloadable]
      refine ⟨fun name cm hlookup => ?_, h.router, h.cache⟩
      rcases GoMap.of_lookup_insert hlookup with ⟨rfl, rfl⟩ | hold
      · exact ⟨m, hop, hloadable, rfl, rfl⟩
      · exact h.modules name cm hold
  | register packName m =>
    obtain ⟨router, hrouter, hroutes⟩ := h.router
    refine ⟨h.modules, ⟨router.register packName m, ?_, fun gvk found hfound => ?_⟩, h.cache⟩
    · show e.router.map _ = _
      rw [hrouter]
      rfl
    · have hfound := (matching_register router packName m gvk).subset hfound
      by_cases hcovers : Covers m gvk
      · rw [if_pos hcovers] at hfound
        rcases List.mem_cons.mp hfound with rfl | hold
        · exact ⟨(packName, m), hop, rfl, hcovers⟩
        · exact hroutes gvk found hold
      · rw [if_neg hcovers] at hfound
        exact hroutes gvk found hfound
  | evaluate r => exact (evaluateForResource_right hlawful hkeys h hop).2

end

theorem sourced_new (hlawful : ext.lru.Lawful) (size : Int) :
    Sourced ext u (Engine.new ext size) where
  modules name cm h := by cases h
  router := ⟨{}, rfl, fun gvk m hm => by cases hm⟩
  cache := by
    refine ⟨_, rfl, fun key edges hget => ?_⟩
    rw [hlawful.get_new] at hget
    cases hget

theorem run_snoc (size : Int) (ops : List Engine.Op) (op : Engine.Op) :
    Engine.run ext size (ops ++ [op]) = (Engine.run ext size ops).step ext op := by
  unfold Engine.run
  rw [List.foldl_append]
  rfl

/-- Run: by induction on the operations, from the last one. -/
theorem sourced_run (hlawful : ext.lru.Lawful) (hkeys : KeysDetermine ext u) (size : Int)
    (ops : List Engine.Op) (hops : ∀ op ∈ ops, u.Allows op) :
    Sourced ext u (Engine.run ext size ops) := by
  induction ops using List.reverseRecOn with
  | nil => exact sourced_new hlawful size
  | append_singleton ops op ih =>
    rw [run_snoc]
    exact (ih fun op' hop' => hops op' (List.mem_append_left _ hop')).step hlawful hkeys
      (hops op (by simp))

end Right

/-! ### Entries that are found -/

/-- The cache of the engine finds a result. -/
def Primed (ext : Externals S) (e : Engine S) (key : CacheKey) (edges : List Edge) : Prop :=
  ∃ c, e.cache = some c ∧ (ext.lru.get c.lru key).1 = some edges

variable {key : CacheKey} {edges : List Edge} {r : Resource}

section

variable (hlawful : ext.lru.Lawful)
include hlawful

/-- If all keys are that of one result, every module answers with
it. -/
theorem evaluateMatches_primed (hprimed : (ext.lru.get c.lru key).1 = some edges)
    (ms : List ModuleSpec) (hms : ∀ m ∈ ms, ∃ mod,
      e.modules.lookup m.name = some (compiled ext mod) ∧ cacheKey r (compiled ext mod) = key) :
    (e.evaluateMatches ext r c ms).1 = .ok (ms.flatMap fun _ => edges) := by
  induction ms generalizing c with
  | nil => rfl
  | cons m ms ih =>
    obtain ⟨mod, hlookup, rfl⟩ := hms m (by simp)
    obtain ⟨hout, hlru⟩ := Cache.getOrEvaluate_hit hprimed (edgesOf ext mod r)
    rw [evaluateMatches_cons r hlookup]
    generalize c.getOrEvaluate ext.lru (cacheKey r (compiled ext mod)) (edgesOf ext mod r) = call
      at hout hlru ⊢
    cases call with
    | mk out cache =>
      cases hout
      have hagain : (ext.lru.get cache.lru (cacheKey r (compiled ext mod))).1 = some edges := by
        rw [hlru]
        exact hlawful.get_get _ _ _ hprimed
      have hrest := ih hagain fun m' hm' => hms m' (List.mem_cons_of_mem _ hm')
      dsimp only
      rw [hrest]
      rfl

/-- What a call returns then. -/
theorem evaluateForResource_primed (hprimed : Primed ext e key edges)
    (hrouter : e.router = some router) (hms : ∀ m ∈ router.matching (gvkOf r), ∃ mod,
      e.modules.lookup m.name = some (compiled ext mod) ∧ cacheKey r (compiled ext mod) = key) :
    (e.evaluateForResource ext r).1 =
      .ok ((router.matching (gvkOf r)).flatMap fun _ => edges) := by
  obtain ⟨c, hcache, hget⟩ := hprimed
  rw [evaluateForResource_eq hrouter hcache]
  exact evaluateMatches_primed hlawful hget _ hms

end

/-- The engine with one module, one route and the result of one
evaluation. -/
structure Seeded (ext : Externals S) (m : Module) (route : String × ModuleSpec) (key : CacheKey)
    (edges : List Edge) (e : Engine S) : Prop where
  modules : e.modules.lookup m.name = some (compiled ext m)
  router : ∃ router, e.router = some router ∧
    ∀ gvk, router.matching gvk = if Covers route.2 gvk then [namespaced route.1 route.2] else []
  primed : Primed ext e key edges

/-- An engine is seeded by a registration, the load of its module
and one evaluation. -/
theorem seeded_run (hlawful : ext.lru.Lawful) {m : Module} {route : String × ModuleSpec}
    (size : Int) (hloadable : Loadable ext m) (hname : (namespaced route.1 route.2).name = m.name)
    (hcovers : Covers route.2 (gvkOf r)) (hedges : edgesOf ext m r = .ok edges) :
    Seeded ext m route (cacheKey r (compiled ext m)) edges
      (Engine.run ext size [.register route.1 route.2, .load m, .evaluate r]) := by
  have hmatching (gvk : GVK) : ((({} : Router).register route.1 route.2).matching gvk) =
      if Covers route.2 gvk then [namespaced route.1 route.2] else [] := by
    have hperm := matching_register {} route.1 route.2 gvk
    by_cases hgvk : Covers route.2 gvk
    · rw [if_pos hgvk] at hperm ⊢
      exact List.perm_singleton.mp hperm
    · rw [if_neg hgvk] at hperm ⊢
      exact List.perm_nil.mp hperm
  -- the engine before the evaluation
  generalize he : Engine.run ext size [.register route.1 route.2, .load m] = e
  have hloaded : e = { (Engine.new ext size) with
      modules := (Engine.new ext size).modules.insert m.name (compiled ext m)
      router := some (({} : Router).register route.1 route.2) } := by
    rw [← he]
    exact loadModule_of_loadable hloadable _
  have hlookup : e.modules.lookup (namespaced route.1 route.2).name = some (compiled ext m) := by
    rw [hloaded, hname]
    exact AList.lookup_insert _
  have hrouter : e.router = some (({} : Router).register route.1 route.2) := by rw [hloaded]
  have hcache : e.cache = some { lru := ext.lru.new (cacheCapacity size) } := by
    rw [hloaded]
    rfl
  have hrun : Engine.run ext size [.register route.1 route.2, .load m, .evaluate r] =
      (e.evaluateForResource ext r).2 := by
    rw [← he]
    rfl
  have hcall := Cache.getOrEvaluate_miss (E := RuleError)
    (c := { lru := ext.lru.new (cacheCapacity size) })
    (hlawful.get_new _ (cacheKey r (compiled ext m))) (.ok edges)
  rw [hrun, evaluateForResource_eq hrouter hcache, hmatching, if_pos hcovers,
    evaluateMatches_cons r hlookup, hedges]
  generalize Cache.getOrEvaluate ext.lru _ _ _ = call at hcall ⊢
  cases call with
  | mk out cache =>
    obtain ⟨rfl, hlru⟩ := hcall
    refine ⟨?_, ⟨_, hrouter, hmatching⟩, cache, rfl, ?_⟩
    · rw [← hname]
      exact hlookup
    · rw [show cache.lru = _ from hlru]
      exact hlawful.get_add _ _ _

/-! ### The condition -/

section Condition

variable {e : Engine S} {router : Router} {r : Resource} {key : CacheKey} {edges : List Edge}
  {m m' : Module} {a b : ModuleSpec}

/-- The first module gives what the others leave of the outcome. -/
theorem edges_of_cons {ms : List ModuleSpec} {rest : List Edge}
    (hlookup : e.modules.lookup a.name = some (compiled ext m))
    (hrest : evaluateAll ext e r ms = .ok rest)
    (hout : evaluateAll ext e r (a :: ms) = .ok (edges ++ rest)) : edgesOf ext m r = .ok edges := by
  rw [evaluateAll_cons r hlookup, hrest] at hout
  cases hedges : edgesOf ext m r with
  | error cause =>
    rw [hedges] at hout
    cases hout
  | ok found =>
    rw [hedges] at hout
    rw [List.append_cancel_right (Except.ok.inj hout : found ++ rest = edges ++ rest)]

section

variable (hlawful : ext.lru.Lawful)
  (hcall : (e.evaluateForResource ext r).1 = evaluateUncached ext e r)
  (hprimed : Primed ext e key edges) (hrouter : e.router = some router)
include hlawful hcall hprimed hrouter

/-- If a call is answered from one entry and returns what it should,
the modules that are routed give the entry one after the other. -/
theorem evaluateAll_primed (hms : ∀ found ∈ router.matching (gvkOf r), ∃ mod,
      e.modules.lookup found.name = some (compiled ext mod) ∧
        cacheKey r (compiled ext mod) = key) :
    evaluateAll ext e r (router.matching (gvkOf r)) =
      .ok ((router.matching (gvkOf r)).flatMap fun _ => edges) := by
  rw [evaluateForResource_primed hlawful hprimed hrouter hms, evaluateUncached, hrouter] at hcall
  exact hcall.symm

/-- One module. -/
theorem edges_of_single (hmatching : router.matching (gvkOf r) = [a])
    (hlookup : e.modules.lookup a.name = some (compiled ext m))
    (hkey : cacheKey r (compiled ext m) = key) : edgesOf ext m r = .ok edges := by
  have hout := evaluateAll_primed hlawful hcall hprimed hrouter (by
    intro found hfound
    rw [hmatching] at hfound
    cases List.mem_singleton.mp hfound
    exact ⟨m, hlookup, hkey⟩)
  rw [hmatching] at hout
  exact edges_of_cons hlookup rfl hout

/-- Two modules, one of which is known to give the entry. -/
theorem edges_of_pair (hmatching : (router.matching (gvkOf r)).Perm [b, a])
    (ha : e.modules.lookup a.name = some (compiled ext m))
    (hb : e.modules.lookup b.name = some (compiled ext m'))
    (hkey : cacheKey r (compiled ext m) = key) (hkey' : cacheKey r (compiled ext m') = key)
    (hedges : edgesOf ext m r = .ok edges) : edgesOf ext m' r = .ok edges := by
  have hout := evaluateAll_primed hlawful hcall hprimed hrouter (by
    intro found hfound
    have hfound := hmatching.subset hfound
    simp only [List.mem_cons, List.not_mem_nil, or_false] at hfound
    rcases hfound with rfl | rfl
    · exact ⟨m', hb, hkey'⟩
    · exact ⟨m, ha, hkey⟩)
  rcases List.perm_pair.mp hmatching with horder | horder
  · rw [horder] at hout
    refine edges_of_cons hb ?_ hout
    rw [evaluateAll_cons r ha, hedges]
    rfl
  · rw [horder, evaluateAll_cons r ha, hedges] at hout
    cases hlast : evaluateAll ext e r [b] with
    | error cause =>
      rw [hlast] at hout
      cases hout
    | ok found =>
      rw [hlast] at hout
      have hsame : edges ++ found = edges ++ (edges ++ []) := Except.ok.inj hout
      rw [List.append_cancel_left hsame] at hlast
      exact edges_of_cons hb rfl hlast

end

end Condition

variable {u : Universe}

theorem allows_snoc {ops : List Engine.Op} {op : Engine.Op} (hops : ∀ op ∈ ops, u.Allows op)
    (hop : u.Allows op) :
    ∀ op' ∈ ops ++ [op], u.Allows op' := by
  intro op' hop'
  rcases List.mem_append.mp hop' with hop' | hop'
  · exact hops op' hop'
  · cases List.mem_singleton.mp hop'
    exact hop

/-- Two pairs of a module and a resource with one key and two results
make a history that is not transparent: the second call finds the
result of the first. -/
theorem keysDetermine_of_transparent (hlawful : ext.lru.Lawful) {size : Int}
    (h : ∀ ops, (∀ op ∈ ops, u.Allows op) → Transparent ext size ops) : KeysDetermine ext u := by
  intro m r m' r' hpair hpair' hkeys edges hedges
  obtain ⟨route, hroute, hname, hcovers⟩ := hpair.route
  obtain ⟨route', hroute', hname', hcovers'⟩ := hpair'.route
  -- the three parts of the key, which only looks at the source of a module
  simp only [cacheKey, CacheKey.mk.injEq] at hkeys
  have hkey' : cacheKey r' (compiled ext m') = cacheKey r (compiled ext m) := by
    simp only [cacheKey, hkeys]
  have hkey : cacheKey r' (compiled ext m) = cacheKey r (compiled ext m) := by
    simp only [cacheKey, hkeys.1, hkeys.2.1]
  have hcall (ops : List Engine.Op) (hops : ∀ op ∈ ops, u.Allows op) :
      ((Engine.run ext size ops).evaluateForResource ext r').1 =
        evaluateUncached ext (Engine.run ext size ops) r' := by
    have hlast : u.Allows (.evaluate r') := hpair'.resource
    exact h (ops ++ [.evaluate r']) (allows_snoc hops hlast) ops r' [] rfl
  have hseed := seeded_run hlawful size hpair.loadable hname hcovers hedges
  generalize hops : [Engine.Op.register route.1 route.2, .load m, .evaluate r] = ops at hseed
  have hallowed : ∀ op ∈ ops, u.Allows op := by
    rw [← hops]
    intro op hop
    simp only [List.mem_cons, List.not_mem_nil, or_false] at hop
    rcases hop with rfl | rfl | rfl
    · exact hroute
    · exact hpair.module
    · exact hpair.resource
  obtain ⟨router, hrouter, hmatching⟩ := hseed.router
  have hroutes := matching_register router route'.1 route'.2 (gvkOf r')
  rw [if_pos hcovers', hmatching] at hroutes
  -- the other module is loaded next, and its route registered if that is needed
  have hlast : u.Allows (.load m') := hpair'.module
  have hroute' : u.Allows (.register route'.1 route'.2) := hroute'
  have hload (e : Engine S) := loadModule_of_loadable hpair'.loadable e
  have hregistered : Engine.run ext size (ops ++ [.register route'.1 route'.2] ++ [.load m']) =
      { (Engine.run ext size ops) with
        router := some (router.register route'.1 route'.2)
        modules := (Engine.run ext size ops).modules.insert m'.name (compiled ext m') } := by
    rw [run_snoc, run_snoc, hload, Engine.step, hrouter]
    rfl
  have hcall' := hcall _ (allows_snoc (allows_snoc hallowed hroute') hlast)
  rw [hregistered] at hcall'
  by_cases hboth : Covers route.2 (gvkOf r')
  · have hsingle := hmatching (gvkOf r')
    rw [if_pos hboth] at hsingle hroutes
    by_cases hsame : m'.name = m.name
    · -- the new module takes the place of the old one
      have hcall := hcall _ (allows_snoc hallowed hlast)
      rw [run_snoc, hload] at hcall
      refine edges_of_single hlawful hcall hseed.primed hrouter hsingle ?_ hkey'
      rw [hname, ← hsame]
      exact AList.lookup_insert _
    · have hfirst : edgesOf ext m r' = .ok edges :=
        edges_of_single hlawful (hcall ops hallowed) hseed.primed hrouter hsingle
          (by rw [hname]; exact hseed.modules) hkey
      refine edges_of_pair hlawful hcall' hseed.primed rfl hroutes ?_ ?_ hkey hkey' hfirst
      · rw [hname]
        exact (AList.lookup_insert_ne (Ne.symm hsame)).trans hseed.modules
      · rw [hname']
        exact AList.lookup_insert _
  · rw [if_neg hboth] at hroutes
    refine edges_of_single hlawful hcall' hseed.primed rfl (List.perm_singleton.mp hroutes) ?_ hkey'
    rw [hname']
    exact AList.lookup_insert _

/-- The calls of every history return what they would without the
cache if and only if the key of a module and a resource determines
the result of the evaluation. The LRU library may evict what it
likes, as long as a value that it finds was stored under its key,
and what was just stored or found is found again. -/
theorem transparent_iff (ext : Externals S) (hlawful : ext.lru.Lawful) (size : Int)
    (u : Universe) :
    (∀ ops, (∀ op ∈ ops, u.Allows op) → Transparent ext size ops) ↔ KeysDetermine ext u := by
  constructor
  · exact keysDetermine_of_transparent hlawful
  · intro hkeys ops hops before r after hsplit
    rw [hsplit] at hops
    have hbefore := sourced_run hlawful hkeys size before fun op hop =>
      hops op (List.mem_append_left _ hop)
    exact (evaluateForResource_right hlawful hkeys hbefore (hops (.evaluate r) (by simp))).1

/-- A library whose queries return one edge, of the type of the
entrypoint and from the name of the resource to itself. -/
def oneEdge : Externals (Lru CacheKey (List Edge)) where
  prepare _ := none
  eval m input :=
    let metadata := ((input.members?.getD []).lookup "metadata").getD .null
    let name := ((metadata.members?.getD []).lookup "name").getD .null
    let endpoint := Json.obj [("kind", .str "Secret"), ("name", name)]
    .ok [[.obj [("type", .str m.entrypoint), ("from", endpoint), ("to", endpoint)]]]
  sum source := source
  lru := Lru.ops

/-- A history that loads modules for all kinds. -/
def loaded (ms : List (String × Module)) : List Engine.Op :=
  ms.flatMap fun m => [.register "p" { name := m.1, gvkMatch := {} }, .load m.2]

/-- Two modules with one source and two entrypoints. -/
def twoEntrypoints : List Engine.Op :=
  loaded [("a", { name := "p/a", source := "s", entrypoint := "A" }),
    ("b", { name := "p/b", source := "s", entrypoint := "B" })]

/-- One module, and a Secret has been evaluated. -/
def oneSecret : List Engine.Op :=
  loaded [("a", { name := "p/a", source := "s", entrypoint := "A" })] ++
    [.evaluate (secretReferenceResource "d" "first" "")]

def somePod : Resource := { kind := "Pod", name := "w", uid := "u", resourceVersion := "1" }

/-- One module and one Pod, which the module is routed for. -/
def onePod : Universe where
  modules := {{ name := "p/a", source := "s", entrypoint := "A" }}
  routes := {("p", { name := "a", gvkMatch := {} })}
  resources := {somePod}

/-- No two pairs share a key there, so the second call, which the
cache answers, returns what an evaluation would. -/
theorem transparent_onePod :
    Transparent oneEdge 0
      (loaded [("a", { name := "p/a", source := "s", entrypoint := "A" })] ++
        [.evaluate somePod, .evaluate somePod]) := by
  refine (transparent_iff oneEdge Lru.lawful 0 onePod).mpr ?_ _ ?_
  · rintro m r m' r' ⟨rfl, -, rfl, -⟩ ⟨rfl, -, rfl, -⟩ - edges hedges
    exact hedges
  · intro op hop
    simp only [loaded, List.flatMap_cons, List.flatMap_nil, List.cons_append, List.nil_append,
      List.mem_cons, List.not_mem_nil, or_false] at hop
    rcases hop with rfl | rfl | rfl | rfl
    all_goals exact Set.mem_singleton _

/-- The second of two modules with one source answers with the edges
of the first, and a Secret with those of another one. -/
theorem not_transparent :
    ¬Transparent oneEdge 0
        (twoEntrypoints ++ [.evaluate somePod]) ∧
      ¬Transparent oneEdge 0
        (oneSecret ++ [.evaluate (secretReferenceResource "d" "second" "")]) := by
  constructor
  · intro h
    exact absurd (h twoEntrypoints _ [] rfl) (by decide +kernel)
  · intro h
    exact absurd (h oneSecret _ [] rfl) (by decide +kernel)

end KubeAtlas.Proofs.Rego
