import KubeAtlas.Proofs.Impact.Index

/-!
# `KubeAtlas.Proofs.Impact.Traversal`: `AnalyzeImpact` computes distances

The impact graph of a projection has the selected resources as
vertices and one arc for each distinct stored edge of a modeled type
between two of them, except `OWNS` edges whose owner is known to be
another instance. `ImpactArc` states it over the projection alone,
without the index or the heaps.

`TraversalSpec` is what the ordinary part of a result means in that
graph: the depths are distances, the paths are chains of arcs, and
the truncation flag tells whether something reachable is missing.
`analyzeImpact_traversalSpec` proves it for every successful
analysis. The argument is `Search.Final`, instantiated with the
popped arcs of the index (`mem_arcs_iff`).
-/

set_option autoImplicit false

namespace KubeAtlas.Proofs.Impact

open KubeAtlas.Graph Lib Analysis

/-! ### The impact graph -/

/-- The stored edge `edge` is an arc from `u` to `v`. -/
structure ImpactArc (g : Graph) (opts : ImpactOptions) (edge : EdgeKey) (u v : String) :
    Prop where
  stored : edge ∈ g.edges.map Edge.key
  modeled : edge.type ∈ modeledTypes
  oriented : (opts.relation = .dependents ∧ u = edge.toID ∧ v = edge.fromID) ∨
    (opts.relation = .dependencies ∧ u = edge.fromID ∧ v = edge.toID)
  present : ∃ child ∈ selected opts.clusterID g.resources,
    ∃ owner ∈ selected opts.clusterID g.resources,
      child.ID = edge.fromID ∧ owner.ID = edge.toID ∧
        (edge.type = .owns → impactOwnerUIDStatus child owner ≠ .mismatch)

/-- The impact graph, without its edge labels. -/
def ImpactAdj (g : Graph) (opts : ImpactOptions) (u v : String) : Prop :=
  ∃ edge, ImpactArc g opts edge u v

/-- The steps lead from `u` to `v` along arcs of the impact graph,
each leaving where the one before it ended. -/
def Chains (g : Graph) (opts : ImpactOptions) : String → List ImpactStep → String → Prop
  | u, [], v => u = v
  | u, step :: rest, v =>
    step.traversalFrom = u ∧
      ImpactArc g opts ⟨step.fromID, step.toID, step.type⟩ u step.traversalTo ∧
      Chains g opts step.traversalTo rest v

variable {opts : ImpactOptions}

theorem Chains.snoc {g : Graph} {u v : String} {path : List ImpactStep} {step : ImpactStep}
    (h : Chains g opts u path v) (hfrom : step.traversalFrom = v)
    (harc : ImpactArc g opts ⟨step.fromID, step.toID, step.type⟩ v step.traversalTo) :
    Chains g opts u (path ++ [step]) step.traversalTo := by
  induction path generalizing u with
  | nil =>
    have huv : u = v := h
    subst huv
    exact ⟨hfrom, harc, rfl⟩
  | cons s path ih =>
    obtain ⟨hs, hsarc, hrest⟩ := h
    exact ⟨hs, hsarc, ih hrest⟩

/-- What the ordinary part of an impact result says about the
projection, for the normalized options. -/
structure TraversalSpec (g : Graph) (rootID : String) (opts : ImpactOptions)
    (result : ImpactResult) : Prop where
  /-- Each match is a vertex other than the root. -/
  vertex : ∀ m ∈ result.resources, m.resource.id ≠ rootID ∧
    ∃ r ∈ selected opts.clusterID g.resources, m.resource = impactIdentity r
  /-- No vertex is matched twice. -/
  once : (result.resources.map (fun m => m.resource.id)).Nodup
  /-- The depth of a match is its distance from the root, within the bound. -/
  distance : ∀ m ∈ result.resources,
    IsDistance (ImpactAdj g opts) rootID m.resource.id m.depth ∧
      (m.depth : Int) ≤ opts.maxDepth
  /-- The path of a match is a chain of arcs, and its proper prefixes are the paths of
  earlier matches. -/
  path : ∀ pre m post, result.resources = pre ++ m :: post →
    m.path.length = m.depth ∧ Chains g opts rootID m.path m.resource.id ∧
      ∀ k, 0 < k → k < m.path.length → ∃ p ∈ pre, p.path = m.path.take k
  /-- The matches come in non-decreasing depth. -/
  sorted : result.resources.Pairwise (fun m m' => m.depth ≤ m'.depth)
  /-- The limit holds. -/
  limited : (result.resources.length : Int) ≤ opts.limit
  /-- Below the limit the matches are the vertices at distance `1` to `maxDepth`. -/
  complete : (result.resources.length : Int) < opts.limit → ∀ v,
    (∃ m ∈ result.resources, m.resource.id = v) ↔
      ∃ n : Nat, 1 ≤ n ∧ (n : Int) ≤ opts.maxDepth ∧ IsDistance (ImpactAdj g opts) rootID v n
  /-- The flag is up exactly when a reachable vertex besides the root is missing. -/
  truncated_iff : result.truncated = true ↔
    ∃ v, v ≠ rootID ∧ Relation.ReflTransGen (ImpactAdj g opts) rootID v ∧
      ∀ m ∈ result.resources, m.resource.id ≠ v

/-! ### The pieces of a successful analysis -/

variable {rootID : String}

section

variable {opts o : ImpactOptions} (h : normalizeImpactOptions rootID opts = .ok o)
include h

theorem normalizeImpactOptions_valid : o.valid rootID = true := by
  unfold normalizeImpactOptions at h
  split at h
  · rename_i hgood
    rw [Except.ok.injEq] at h
    rwa [h] at hgood
  · exact absurd h (by simp)

/-- What normalized options satisfy. -/
theorem normalizeImpactOptions_ok :
    (o.relation = .dependents ∨ o.relation = .dependencies) ∧ 1 ≤ o.maxDepth ∧ 1 ≤ o.limit := by
  have hgood := normalizeImpactOptions_valid h
  simp only [ImpactOptions.valid, Bool.not_eq_true', Bool.or_eq_false_iff,
    Bool.and_eq_false_iff, decide_eq_false_iff_not, ne_eq, not_not, not_lt] at hgood
  obtain ⟨⟨⟨⟨⟨-, hrel⟩, hdepth⟩, -⟩, hlimit⟩, -⟩ := hgood
  exact ⟨hrel, hdepth, hlimit⟩

theorem normalizeImpactOptions_clusterID : o.clusterID = opts.clusterID := by
  unfold normalizeImpactOptions at h
  split at h
  · cases h
    rfl
  · cases h

end

/-- The root found is the one loaded under its identifier. -/
theorem checkRoot_ok {table : ResourceTable} {root : Resource}
    (h : checkRoot table rootID opts = .ok root) :
    table rootID = some root := by
  unfold checkRoot at h
  split at h
  · exact absurd h (by simp)
  · rename_i r hr
    have hroot : r = root := by
      split at h
      · split at h
        · exact absurd h (by simp)
        · split at h
          · exact absurd h (by simp)
          · exact Except.ok.inj h
      · exact Except.ok.inj h
    rw [hr, hroot]

/-- What the analysis has before it walks: normalized options, the
loaded resources and the root among them. -/
structure Prepared (g : Graph) (rootID : String) (opts o : ImpactOptions)
    (table : ResourceTable) (root : Resource) : Prop where
  options : normalizeImpactOptions rootID opts = .ok o
  loaded : loadResources o.clusterID g.resources (fun _ => none) = .ok table
  root : checkRoot table rootID o = .ok root

namespace Prepared

variable {g : Graph} {rootID : String} {opts o : ImpactOptions} {table : ResourceTable}
  {root : Resource}

theorem tabulates (h : Prepared g rootID opts o table root) :
    Tabulates table (selected o.clusterID g.resources) :=
  loadResources_ok h.loaded

theorem root_eq (h : Prepared g rootID opts o table root) : table rootID = some root :=
  checkRoot_ok h.root

end Prepared

/-- The stages of a successful analysis. -/
theorem analyzeImpact_ok {range : RangeOrder EdgeKey} {g : Graph} {result : ImpactResult}
    (h : analyzeImpact range (some g) rootID opts = .ok result) :
    ∃ o table root s authorization,
      Prepared g rootID opts o table root ∧
      Search.search
        (impactSearch table (scanEdges table o g.edges).index.arcs
          (scanEdges table o g.edges).index.notices o)
        { resource := impactIdentity root } {} = .ok s ∧
      analyzeImpactAuthorization range g.edges table root o = .ok authorization ∧
      result = impactResult o root s authorization := by
  unfold analyzeImpact at h
  split at h
  · exact absurd h (by simp)
  · rename_i o ho
    simp only at h
    split at h
    · exact absurd h (by simp)
    · rename_i table htable
      split at h
      · exact absurd h (by simp)
      · rename_i root hroot
        simp only [analyzeFrom] at h
        split at h
        · exact absurd h (by simp)
        · rename_i s hs
          split at h
          · exact absurd h (by simp)
          · rename_i authorization hauthorization
            exact ⟨o, table, root, s, authorization, ⟨ho, htable, hroot⟩, hs, hauthorization,
              (Except.ok.inj h).symm⟩

/-! ### The search runs on the impact graph -/

section Search

variable {g : Graph} {o : ImpactOptions} {table : ResourceTable} {step : ImpactStep} {u : String}

section

variable (htab : Tabulates table (selected o.clusterID g.resources))
  (hrel : o.relation = .dependents ∨ o.relation = .dependencies)
include htab hrel

/-- The popped arcs are the arcs of the impact graph. -/
theorem mem_arcs_iff :
    step ∈ (scanEdges table o g.edges).index.arcs u ↔
      ∃ edge, ImpactArc g o edge u step.traversalTo ∧ step = stepAlong table o edge := by
  rw [mem_scanEdges_arcs]
  -- The two ends of an edge and of its walk are the same two identifiers.
  have hends : ∀ edge : EdgeKey, ∀ u v,
      ((o.relation = .dependents ∧ u = edge.toID ∧ v = edge.fromID) ∨
        (o.relation = .dependencies ∧ u = edge.fromID ∧ v = edge.toID)) ↔
      traversalEnds o.relation edge = (u, v) := by
    intro edge u v
    cases hrel with
    | inl hd =>
      simp only [traversalEnds, hd, if_true, Prod.mk.injEq, true_and, reduceCtorEq,
        false_and, or_false, eq_comm]
    | inr hd =>
      simp only [traversalEnds, hd, reduceCtorEq, if_false, Prod.mk.injEq, true_and,
        false_and, false_or, eq_comm]
  have hboth : ∀ edge : EdgeKey, ∀ u v, traversalEnds o.relation edge = (u, v) →
      ((table u).isSome ∧ (table v).isSome ↔
        (table edge.fromID).isSome ∧ (table edge.toID).isSome) := by
    intro edge u v h
    rcases (hends edge u v).mpr h with ⟨-, rfl, rfl⟩ | ⟨-, rfl, rfl⟩
    · exact and_comm
    · exact Iff.rfl
  constructor
  · rintro ⟨edge, hmem, hu, hsome, hw, hstep⟩
    refine ⟨edge, ?_, hstep⟩
    have hto : step.traversalTo = (traversalEnds o.relation edge).2 := by
      rw [hstep]
      rfl
    have hpair : traversalEnds o.relation edge = (u, step.traversalTo) := by
      rw [hto, ← hu]
    obtain ⟨hfrom, hto'⟩ := (hboth edge u step.traversalTo hpair).mp
      ⟨hsome, hto ▸ hw.present⟩
    obtain ⟨hchild, hchildID⟩ := htab.get_spec hfrom
    obtain ⟨howner, hownerID⟩ := htab.get_spec hto'
    exact ⟨hmem, hw.modeled, (hends edge u _).mpr hpair,
      _, hchild, _, howner, hchildID, hownerID, hw.owner⟩
  · rintro ⟨edge, harc, hstep⟩
    obtain ⟨child, hchild, owner, howner, hchildID, hownerID, hstatus⟩ := harc.present
    have hpair := (hends edge u step.traversalTo).mp harc.oriented
    have hfrom : (table edge.fromID).isSome := by
      rw [htab.isSome_iff, ← hchildID]
      exact List.mem_map_of_mem hchild
    have hto : (table edge.toID).isSome := by
      rw [htab.isSome_iff, ← hownerID]
      exact List.mem_map_of_mem howner
    obtain ⟨hu, hv⟩ := (hboth edge u step.traversalTo hpair).mpr ⟨hfrom, hto⟩
    refine ⟨edge, harc.stored, by rw [hpair], hu, ⟨harc.modeled, by rw [hpair]; exact hv, ?_⟩,
      hstep⟩
    intro howns
    rw [← hchildID, ← hownerID, htab.get_eq hchild, htab.get_eq howner]
    exact hstatus howns

/-- An arc as the step along it: its ends and its label. -/
theorem step_spec (h : step ∈ (scanEdges table o g.edges).index.arcs u) :
    step.traversalFrom = u ∧ (table step.traversalTo).isSome ∧
      ImpactArc g o ⟨step.fromID, step.toID, step.type⟩ u step.traversalTo := by
  obtain ⟨edge, harc, hstep⟩ := (mem_arcs_iff htab hrel).mp h
  obtain ⟨edge', -, hu, -, hw, hstep'⟩ := mem_scanEdges_arcs.mp h
  refine ⟨?_, ?_, ?_⟩
  · rw [hstep', ← hu]
    rfl
  · rw [hstep']
    exact hw.present
  · have hlabel : (⟨step.fromID, step.toID, step.type⟩ : EdgeKey) = edge := by
      rw [hstep]
      rfl
    rw [hlabel]
    exact harc

/-- The search problem of the analysis. -/
abbrev problem (g : Graph) (o : ImpactOptions) (table : ResourceTable) :=
  impactSearch table (scanEdges table o g.edges).index.arcs
    (scanEdges table o g.edges).index.notices o

/-- The search's own arcs are those of the impact graph. -/
theorem arc_iff (u v : String) :
    Search.Arc (problem g o table) u v ↔ ImpactAdj g o u v := by
  constructor
  · rintro ⟨step, hstep, rfl⟩
    exact ⟨_, (step_spec htab hrel hstep).2.2⟩
  · rintro ⟨edge, harc⟩
    have hv : (stepAlong table o edge).traversalTo = v := by
      show (traversalEnds o.relation edge).2 = v
      rcases harc.oriented with ⟨hd, -, rfl⟩ | ⟨hd, -, rfl⟩
      · simp [traversalEnds, hd]
      · simp [traversalEnds, hd]
    refine ⟨stepAlong table o edge, ?_, hv⟩
    exact (mem_arcs_iff htab hrel).mpr ⟨edge, hv.symm ▸ harc, rfl⟩

theorem impactSearch_lawful (root : Resource) :
    Search.Lawful (problem g o table) { resource := impactIdentity root } where
  key_extend m step hstep := by
    have hsome := (step_spec htab hrel hstep).2.1
    show (impactIdentity (table.get step.traversalTo)).id = step.traversalTo
    rw [impactIdentity_id]
    exact (htab.get_spec hsome).2
  depth_extend _ _ := rfl
  depth_root := rfl

/-- Reachability and distances of the search are those of the impact
graph. -/
theorem reachable_iff (u v : String) :
    Relation.ReflTransGen (Search.Arc (problem g o table)) u v ↔
      Relation.ReflTransGen (ImpactAdj g o) u v := by
  have heq : Search.Arc (problem g o table) = ImpactAdj g o :=
    funext fun a => funext fun b => propext (arc_iff htab hrel a b)
  rw [heq]

/-- A trail of the search is a chain of arcs of the impact graph. -/
theorem chains_of_trail {u v : String}
    {path : List ImpactStep} (h : Search.Trail (problem g o table) u path v) :
    Chains g o u path v := by
  induction h with
  | nil => rfl
  | snoc _ mem ih =>
    obtain ⟨hfrom, -, harc⟩ := step_spec htab hrel mem
    exact ih.snoc hfrom harc

end

variable {s : Search.State String ImpactMatch ImpactWork} {root : Resource}

section

variable (htab : Tabulates table (selected o.clusterID g.resources))
  (hrel : o.relation = .dependents ∨ o.relation = .dependencies)
  (hfinal : Search.Final (problem g o table) { resource := impactIdentity root } s)
include htab hrel hfinal

/-- A match other than the root carries the identity of a selected
resource. -/
theorem match_identity {m : ImpactMatch} (hm : m ∈ s.found) :
    ∃ r ∈ selected o.clusterID g.resources, m.resource = impactIdentity r := by
  obtain ⟨pre, post, hsplit⟩ := List.append_of_mem hm
  refine hfinal.found_induction
    (Q := fun _ m => ∃ r ∈ selected o.clusterID g.resources, m.resource = impactIdentity r)
    ?_ ?_ pre m post hsplit
  · intro _ step hstep
    exact ⟨_, (htab.get_spec (step_spec htab hrel hstep).2.1).1, rfl⟩
  · intro _ p _ step hstep _
    exact ⟨_, (htab.get_spec (step_spec htab hrel hstep).2.1).1, rfl⟩

/-- A limit was hit exactly if a reachable vertex besides the root
is missing. -/
theorem truncated_iff_missing {rootID : String} (hkey : (impactIdentity root).id = rootID) :
    (s.depthLimited || s.resultLimited) = true ↔
      ∃ v, v ≠ rootID ∧ Relation.ReflTransGen (ImpactAdj g o) rootID v ∧
        ∀ m ∈ s.found, m.resource.id ≠ v := by
  have hroot : (problem g o table).key { resource := impactIdentity root } = rootID := hkey
  rw [Bool.or_eq_true, hfinal.truncated_iff (impactSearch_lawful htab hrel root), hroot]
  constructor
  · rintro ⟨v, hreach, hmiss⟩
    refine ⟨v, ?_, (reachable_iff htab hrel _ _).mp hreach, ?_⟩
    · exact fun hv => hmiss _ List.mem_cons_self (hroot.trans hv.symm)
    · exact fun m hm => hmiss m (List.mem_cons_of_mem _ hm)
  · rintro ⟨v, hv, hreach, hmiss⟩
    refine ⟨v, (reachable_iff htab hrel _ _).mpr hreach, fun m hm => ?_⟩
    cases List.mem_cons.mp hm with
    | inl hm =>
      subst hm
      exact fun hk => hv (hk.symm.trans hroot)
    | inr hm => exact hmiss m hm

end

end Search

/-! ### The result -/

/-- The ordinary part of every successful analysis means what
`TraversalSpec` says, for whatever order the authorization facet
ranges in. -/
theorem analyzeImpact_traversalSpec (range : RangeOrder EdgeKey) (g : Graph)
    (rootID : String) (opts : ImpactOptions) (result : ImpactResult)
    (h : analyzeImpact range (some g) rootID opts = .ok result) :
    ∃ o, normalizeImpactOptions rootID opts = .ok o ∧ result.maxDepth = o.maxDepth ∧
      result.limit = o.limit ∧ result.relation = o.relation ∧
      TraversalSpec g rootID o result := by
  obtain ⟨o, table, root, s, authorization, hprepared, hs, -, rfl⟩ := analyzeImpact_ok h
  have ho := hprepared.options
  have htab := hprepared.tabulates
  have hroot := hprepared.root_eq
  obtain ⟨hrel, hdepth, hlimit⟩ := normalizeImpactOptions_ok ho
  refine ⟨o, ho, rfl, rfl, rfl, ?_⟩
  have hlaw := impactSearch_lawful htab hrel root
  have hfinal := Search.search_final hlaw hs
  obtain ⟨exam, hinv, -⟩ := hfinal.inv
  -- The root's own key is `rootID`.
  have hkey : (problem g o table).key { resource := impactIdentity root } = rootID := by
    show (impactIdentity root).id = rootID
    rw [impactIdentity_id]
    exact ((htab.lookup rootID root).mp hroot).2
  have hadj : ∀ u v, Search.Arc (problem g o table) u v ↔ ImpactAdj g o u v :=
    arc_iff htab hrel
  have hmax : ((problem g o table).maxDepth : Int) = o.maxDepth :=
    Int.toNat_of_nonneg (by omega)
  have hlim : ((problem g o table).limit : Int) = o.limit := Int.toNat_of_nonneg (by omega)
  have hdist : ∀ m ∈ s.found, IsDistance (ImpactAdj g o) rootID m.resource.id m.depth := by
    intro m hm
    have := hfinal.isDistance hlaw (List.mem_cons_of_mem _ hm)
    rw [isDistance_congr hadj, hkey] at this
    exact this
  refine
    { vertex := ?_, once := hfinal.found_nodup.1, distance := ?_, path := ?_, sorted := ?_,
      limited := ?_, complete := ?_, truncated_iff := ?_ }
  · intro m hm
    exact ⟨hkey ▸ hfinal.found_nodup.2 m hm, match_identity htab hrel hfinal hm⟩
  · intro m hm
    refine ⟨hdist m hm, ?_⟩
    rw [← hmax]
    exact Int.ofNat_le.mpr (hinv.depth_le m (List.mem_cons_of_mem _ hm))
  · intro pre m post hsplit
    obtain ⟨htrail, hlen, hprefix⟩ :=
      hfinal.trail hlaw ImpactMatch.path rfl (fun _ _ => rfl) pre m post hsplit
    rw [hkey] at htrail
    exact ⟨hlen, chains_of_trail htab hrel htrail, hprefix⟩
  · exact (List.pairwise_cons.mp hinv.sorted).2
  · show (s.found.length : Int) ≤ o.limit
    rw [← hlim]
    exact Int.ofNat_le.mpr hinv.length_le
  · intro hlt v
    have hlt' : s.found.length < (problem g o table).limit := by
      rw [← Int.ofNat_lt, hlim]
      exact hlt
    constructor
    · rintro ⟨m, hm, rfl⟩
      refine ⟨m.depth, hfinal.depth_pos hlaw hm, ?_, hdist m hm⟩
      rw [← hmax]
      exact Int.ofNat_le.mpr (hinv.depth_le m (List.mem_cons_of_mem _ hm))
    · rintro ⟨n, hn, hnmax, hd⟩
      have hw : Walk (Search.Arc (problem g o table))
          ((problem g o table).key { resource := impactIdentity root }) n v := by
        rw [hkey]
        exact hd.1.mono fun a b => (hadj a b).mpr
      obtain ⟨m, hm, hmv⟩ := hfinal.matched_of_walk hlaw hlt' hw (by omega)
      cases List.mem_cons.mp hm with
      | inr hm => exact ⟨m, hm, hmv⟩
      | inl hm =>
        -- The root is at distance zero.
        subst hm
        have hroot0 : Walk (ImpactAdj g o) rootID 0 v := by
          rw [← hmv, hkey]
          exact .refl
        have := hd.2 0 hroot0
        omega
  · exact truncated_iff_missing htab hrel hfinal hkey

/-- A Deployment owns a ReplicaSet, which owns a Pod that points
back at the Deployment. -/
def cyclicGraph : Graph where
  resources :=
    [{ kind := "Deployment", name := "web", ns := "d", uid := "u1" },
     { kind := "ReplicaSet", name := "web", ns := "d", uid := "u2",
       ownerReferences := [⟨"Deployment", "web", "u1"⟩] },
     { kind := "Pod", name := "web", ns := "d",
       ownerReferences := [⟨"ReplicaSet", "web", ""⟩] }]
  edges :=
    [⟨"d/ReplicaSet/web", "d/Deployment/web", .owns, []⟩,
     ⟨"d/Pod/web", "d/ReplicaSet/web", .owns, []⟩,
     ⟨"d/Deployment/web", "d/Pod/web", .selects, []⟩]

/-- On the cycle, with a depth bound of one, a single match is
returned and the flag is up. -/
theorem analyzeImpact_traversalSpec_cyclic :
    ∃ result, analyzeImpact (.inserted _) (some cyclicGraph) "d/Deployment/web"
        { maxDepth := 1 } = .ok result ∧
      result.resources.length = 1 ∧ result.truncated = true ∧
      ∃ o, normalizeImpactOptions "d/Deployment/web" { maxDepth := 1 } = .ok o ∧
        result.maxDepth = o.maxDepth ∧ result.limit = o.limit ∧
        result.relation = o.relation ∧
        TraversalSpec cyclicGraph "d/Deployment/web" o result := by
  have hrun : (do
      let result ← (analyzeImpact (.inserted _) (some cyclicGraph) "d/Deployment/web"
        { maxDepth := 1 }).toOption
      pure (result.resources.length, result.truncated)) = some (1, true) := by
    decide +kernel
  obtain ⟨result, h, hrun⟩ := exists_ok_of_bind hrun
  obtain ⟨hlength, htruncated⟩ := Prod.mk.inj (Option.some.inj hrun)
  exact ⟨result, h, hlength, htruncated, analyzeImpact_traversalSpec _ _ _ _ _ h⟩

end KubeAtlas.Proofs.Impact
