import KubeAtlas.Proofs.Impact.Presentation
import KubeAtlas.Proofs.Projection.Interpretation
import KubeAtlas.Proofs.Store.Contents

/-!
# `KubeAtlas.Proofs.Projection.Noninterference`: what a snapshot can reveal

A two-run property. Take two stores whose contents look the same
through the allowlist: identities, edge tuples and the allowlisted
reference fields of the selected cluster. Everything else may
differ: labels, annotations, edge attributes, literal environment
values, the text of sub-paths, any field of a Secret, and other
clusters altogether. `snapshotImpact_noninterference` says that the
two snapshots are the same up to order, or fail with the same error,
and that the analysis cannot tell them apart.

The loops of the builder charge one budget, so the first question is
whether an excluded value can be seen through a charge.
`Budget.Takes.foldlM_eq` reduces each loop to a count and a sum, and
`projected_congr` makes the summands agree. One difference does
show: a resource with an empty raw object pays for an object, and
one without a raw object does not. `snapshotImpact_sees_nil_raw` is
a budget that separates the two.
-/

set_option autoImplicit false

namespace KubeAtlas.Proofs.Projection

open KubeAtlas.Graph Lib Analysis KubeAtlas.Store KubeAtlas.Store.MemoryStore
open KubeAtlas.Proofs.Impact KubeAtlas.Proofs.Store

/-! ### What a snapshot copies -/

/-- The edge that `AddEdge` appends: the tuple, without attributes. -/
def bareEdge (k : EdgeKey) : Edge := { fromID := k.fromID, toID := k.toID, type := k.type }

/-- The bytes that `AddEdge` charges. -/
def edgeCost (k : EdgeKey) : Nat := Budget.cost 96 [k.fromID, k.toID, k.type]

/-- An edge between two identifiers of the cluster. -/
def edgeInCluster (cluster : String) (k : EdgeKey) : Bool :=
  impactIDInCluster k.fromID cluster && impactIDInCluster k.toID cluster

/-- The builder appends a resource of its cluster. -/
def pushResource (b : ImpactProjectionBuilder) (r : Resource) : ImpactProjectionBuilder :=
  { b with
    graph := { b.graph with
      resources := b.graph.resources ++ [projectedResource (sanitizeResource r)] }
    remaining := b.remaining - resourceCost (sanitizeResource r) }

/-- The builder appends an edge of its cluster. -/
def pushEdge (b : ImpactProjectionBuilder) (e : Edge) : ImpactProjectionBuilder :=
  { b with
    graph := { b.graph with edges := b.graph.edges ++ [bareEdge e.key] }
    remaining := b.remaining - edgeCost e.key }

theorem addEdge_eq (b : ImpactProjectionBuilder) (e : Edge) :
    b.addEdge e =
      if edgeInCluster b.opts.clusterID e.key = false then .ok b
      else if (b.graph.edges.length : Int) = b.opts.maxEdges ∨ b.remaining < edgeCost e.key then
        .error .limit
      else .ok (pushEdge b e) := by
  have hout : (!impactIDInCluster e.fromID b.opts.clusterID ||
      !impactIDInCluster e.toID b.opts.clusterID) = !edgeInCluster b.opts.clusterID e.key :=
    (Bool.not_and _ _).symm
  have hpay : charge 96 [e.fromID, e.toID, e.type] b.remaining
      = if edgeCost e.key ≤ b.remaining then .ok ((), b.remaining - edgeCost e.key)
        else .error .limit := charge_meters 96 _ b.remaining
  unfold ImpactProjectionBuilder.addEdge
  rw [hout, hpay]
  cases edgeInCluster b.opts.clusterID e.key with
  | false => rfl
  | true =>
    simp only [Bool.not_true, Bool.false_eq_true, Bool.true_eq_false, if_false]
    by_cases hfull : (b.graph.edges.length : Int) = b.opts.maxEdges
    · rw [if_pos hfull, if_pos (Or.inl hfull)]
    · rw [if_neg hfull]
      by_cases hcost : edgeCost e.key ≤ b.remaining
      · rw [if_pos hcost, if_neg (by omega)]
        rfl
      · rw [if_neg hcost, if_pos (Or.inr (by omega))]

/-- Both loops of a snapshot are bounded loops of the builder. -/
theorem addResource_takes (opts : ImpactSnapshotOptions) :
    Budget.Takes SnapshotError.limit ImpactProjectionBuilder.addResource
      (fun r => r.clusterID = opts.clusterID) (fun r => resourceCost (sanitizeResource r))
      (fun b => b.opts = opts ∧ (b.graph.resources.length : Int) ≤ opts.maxResources)
      (fun b => (opts.maxResources - b.graph.resources.length).toNat) (fun b => b.remaining)
      pushResource where
  skip b r hb hr := by
    rw [addResource_eq, hb.1, if_pos (of_decide_eq_false hr)]
  take b r hb hr := by
    obtain ⟨rfl, hlen⟩ := hb
    have hfull : (b.graph.resources.length : Int) = b.opts.maxResources ↔
        (b.opts.maxResources - b.graph.resources.length).toNat = 0 := by
      omega
    rw [addResource_eq, if_neg (not_not.mpr (of_decide_eq_true hr))]
    simp only [hfull]
    rfl
  push b r hb hroom := by
    have hlen : (pushResource b r).graph.resources.length = b.graph.resources.length + 1 :=
      List.length_append
    refine ⟨⟨hb.1, ?_⟩, ?_, rfl⟩
    · rw [hlen]
      omega
    · simp only [hlen]
      omega

theorem addEdge_takes (opts : ImpactSnapshotOptions) :
    Budget.Takes SnapshotError.limit ImpactProjectionBuilder.addEdge
      (fun e => edgeInCluster opts.clusterID e.key) (fun e => edgeCost e.key)
      (fun b => b.opts = opts ∧ (b.graph.edges.length : Int) ≤ opts.maxEdges)
      (fun b => (opts.maxEdges - b.graph.edges.length).toNat) (fun b => b.remaining)
      pushEdge where
  skip b e hb he := by
    rw [addEdge_eq, hb.1, if_pos he]
  take b e hb he := by
    obtain ⟨rfl, hlen⟩ := hb
    have hfull : (b.graph.edges.length : Int) = b.opts.maxEdges ↔
        (b.opts.maxEdges - b.graph.edges.length).toNat = 0 := by
      omega
    rw [addEdge_eq, if_neg (Bool.not_eq_false _ ▸ he)]
    simp only [hfull]
  push b e hb hroom := by
    have hlen : (pushEdge b e).graph.edges.length = b.graph.edges.length + 1 :=
      List.length_append
    refine ⟨⟨hb.1, ?_⟩, ?_, rfl⟩
    · rw [hlen]
      omega
    · simp only [hlen]
      omega

theorem foldl_pushResource (rs : List Resource) (b : ImpactProjectionBuilder) :
    rs.foldl pushResource b =
      { b with
        graph := { b.graph with
          resources := b.graph.resources ++
            rs.map fun r => projectedResource (sanitizeResource r) }
        remaining := b.remaining - (rs.map fun r => resourceCost (sanitizeResource r)).sum } := by
  induction rs generalizing b with
  | nil => simp
  | cons r rs ih =>
    rw [List.foldl_cons, ih, List.map_cons, List.map_cons, List.sum_cons, pushResource]
    simp only [List.append_assoc, List.singleton_append, Nat.sub_sub]

theorem foldl_pushEdge (es : List Edge) (b : ImpactProjectionBuilder) :
    (es.foldl pushEdge b).graph =
      { b.graph with edges := b.graph.edges ++ es.map fun e => bareEdge e.key } := by
  induction es generalizing b with
  | nil => simp
  | cons e es ih =>
    rw [List.foldl_cons, ih, List.map_cons, pushEdge]
    simp only [List.append_assoc, List.singleton_append]

/-! ### The outcome of a snapshot -/

/-- What a snapshot selects from the resources it ranges over. -/
def chosenResources (cluster : String) (rs : List Resource) : List Resource :=
  rs.filter fun r => r.clusterID = cluster

/-- And from the edges. -/
def chosenEdges (cluster : String) (es : List Edge) : List Edge :=
  es.filter fun e => edgeInCluster cluster e.key

/-- The whole charge for resources. -/
def resourcesCost (rs : List Resource) : Nat :=
  (rs.map fun r => resourceCost (sanitizeResource r)).sum

/-- The whole charge for edges. -/
def edgesCost (es : List Edge) : Nat := (es.map fun e => edgeCost e.key).sum

/-- The selected resources and edges fit the options. -/
def Fits (opts : ImpactSnapshotOptions) (rs : List Resource) (es : List Edge) : Prop :=
  (rs.length : Int) ≤ opts.maxResources ∧ (es.length : Int) ≤ opts.maxEdges ∧
    resourcesCost rs + edgesCost es ≤ opts.maxBytes.toNat

instance (opts : ImpactSnapshotOptions) (rs : List Resource) (es : List Edge) :
    Decidable (Fits opts rs es) :=
  inferInstanceAs (Decidable (_ ∧ _ ∧ _))

/-- The builder after the resources `rs` of its cluster. -/
def builderOf (o : ImpactSnapshotOptions) (rs : List Resource) : ImpactProjectionBuilder where
  graph := ⟨rs.map fun r => projectedResource (sanitizeResource r), []⟩
  opts := o
  remaining := o.maxBytes.toNat - resourcesCost rs

variable {o : ImpactSnapshotOptions}

theorem foldlM_addResource (hpos : 0 ≤ o.maxResources) (rs : List Resource) :
    rs.foldlM ImpactProjectionBuilder.addResource (builderOf o []) =
      if ((chosenResources o.clusterID rs).length : Int) ≤ o.maxResources ∧
          resourcesCost (chosenResources o.clusterID rs) ≤ o.maxBytes.toNat then
        .ok (builderOf o (chosenResources o.clusterID rs))
      else .error .limit := by
  have hroom : (o.maxResources - ((builderOf o []).graph.resources.length : Nat)).toNat
      = o.maxResources.toNat := by
    show (o.maxResources - (0 : Nat)).toNat = _
    omega
  have hpush : (chosenResources o.clusterID rs).foldl pushResource (builderOf o [])
      = builderOf o (chosenResources o.clusterID rs) := by
    rw [foldl_pushResource]
    rfl
  rw [(addResource_takes o).foldlM_eq rs (s := builderOf o []) ⟨rfl, hpos⟩, hroom, ← hpush]
  apply if_congr _ rfl rfl
  show (chosenResources o.clusterID rs).length ≤ o.maxResources.toNat ∧
    resourcesCost (chosenResources o.clusterID rs) ≤ o.maxBytes.toNat - 0 ↔ _
  omega

theorem foldlM_addEdge (hpos : 0 ≤ o.maxEdges) (rs : List Resource) (es : List Edge) :
    (es.foldlM ImpactProjectionBuilder.addEdge (builderOf o rs)).map (fun b => b.graph) =
      if ((chosenEdges o.clusterID es).length : Int) ≤ o.maxEdges ∧
          edgesCost (chosenEdges o.clusterID es) ≤ o.maxBytes.toNat - resourcesCost rs then
        .ok ⟨rs.map fun r => projectedResource (sanitizeResource r),
          (chosenEdges o.clusterID es).map fun e => bareEdge e.key⟩
      else .error .limit := by
  have hroom : (o.maxEdges - ((builderOf o rs).graph.edges.length : Nat)).toNat
      = o.maxEdges.toNat := by
    show (o.maxEdges - (0 : Nat)).toNat = _
    omega
  rw [(addEdge_takes o).foldlM_eq es (s := builderOf o rs) ⟨rfl, hpos⟩, hroom,
    apply_ite (Except.map _)]
  apply if_congr
  · show (chosenEdges o.clusterID es).length ≤ o.maxEdges.toNat ∧
      edgesCost (chosenEdges o.clusterID es) ≤ o.maxBytes.toNat - resourcesCost rs ↔ _
    omega
  · show Except.ok ((chosenEdges o.clusterID es).foldl pushEdge (builderOf o rs)).graph = _
    rw [foldl_pushEdge]
    rfl
  · rfl

/-- Both loops together succeed exactly when what they select fits. -/
theorem foldlM_snapshot (hpos : 0 ≤ o.maxResources ∧ 0 ≤ o.maxEdges) (rs : List Resource)
    (es : List Edge) :
    ((rs.foldlM ImpactProjectionBuilder.addResource (builderOf o [])).bind fun b =>
        (es.foldlM ImpactProjectionBuilder.addEdge b).map fun b => b.graph) =
      if Fits o (chosenResources o.clusterID rs) (chosenEdges o.clusterID es) then
        .ok ⟨(chosenResources o.clusterID rs).map fun r => projectedResource (sanitizeResource r),
          (chosenEdges o.clusterID es).map fun e => bareEdge e.key⟩
      else .error .limit := by
  rw [foldlM_addResource hpos.1]
  generalize chosenResources o.clusterID rs = rs
  by_cases hres : (rs.length : Int) ≤ o.maxResources ∧ resourcesCost rs ≤ o.maxBytes.toNat
  · rw [if_pos hres]
    show (es.foldlM ImpactProjectionBuilder.addEdge (builderOf o rs)).map
      (fun b => b.graph) = _
    rw [foldlM_addEdge hpos.2]
    apply if_congr _ rfl rfl
    unfold Fits
    omega
  · have hnot : ¬ Fits o rs (chosenEdges o.clusterID es) := by
      unfold Fits
      omega
    rw [if_neg hres, if_neg hnot]
    rfl

variable {opts o : ImpactSnapshotOptions}

/-- A snapshot with valid options succeeds exactly when what it
selects fits. -/
theorem snapshotImpact_eq (range : MapOrder) (s : MemoryStore) (hopts : opts.normalize = .ok o)
    (hpos : 0 ≤ o.maxResources ∧ 0 ≤ o.maxEdges) :
    s.snapshotImpact range opts =
      if Fits o (chosenResources o.clusterID (GoMap.values range s.resources))
          (chosenEdges o.clusterID (s.outgoing.values range)) then
        .ok ⟨(chosenResources o.clusterID (GoMap.values range s.resources)).map fun r =>
            projectedResource (sanitizeResource r),
          (chosenEdges o.clusterID (s.outgoing.values range)).map fun e => bareEdge e.key⟩
      else .error .limit := by
  rw [← foldlM_snapshot hpos]
  unfold MemoryStore.snapshotImpact newImpactProjectionBuilder
  rw [hopts]
  rfl

/-- Valid options keep the cluster and have positive bounds. -/
theorem normalize_ok (h : opts.normalize = .ok o) :
    o.clusterID = opts.clusterID ∧ 0 ≤ o.maxResources ∧ 0 ≤ o.maxEdges := by
  unfold ImpactSnapshotOptions.normalize at h
  simp only [Bool.or_eq_true, decide_eq_true_eq] at h
  split at h
  · cases h
  · rename_i hvalid
    cases h
    exact ⟨rfl, by omega, by omega⟩

/-! ### Contents that look the same -/

/-- The resources agree on what the allowlist names: the identity,
and, unless they are Secrets, the versions, the owners and the
allowlisted fields. A missing raw object has no fields. -/
structure SameFields (r r' : Resource) : Prop where
  kind : r.kind = r'.kind
  name : r.name = r'.name
  ns : r.ns = r'.ns
  clusterID : r.clusterID = r'.clusterID
  versions : r.kind ≠ "Secret" → r.groupVersion = r'.groupVersion ∧ r.uid = r'.uid ∧
    r.resourceVersion = r'.resourceVersion ∧ r.ownerReferences = r'.ownerReferences
  fields : r.kind ≠ "Secret" → ∀ shape,
    impactReferenceShape r.kind r.groupVersion = some shape →
      AgreesOn shape (.obj (r.raw.getD [])) (.obj (r'.raw.getD []))

/-- They also agree on whether there is a raw object, where the
snapshot looks at it. -/
def SameRaw (r r' : Resource) : Prop :=
  r.kind ≠ "Secret" → (impactReferenceShape r.kind r.groupVersion).isSome →
    r.raw.isSome = r'.raw.isSome

/-- Two graphs look the same in a cluster: the resources of the
cluster are related one by one, and the edge tuples within the
cluster are the same. -/
structure SameInCluster (Same : Resource → Resource → Prop) (cluster : String)
    (a a' : GraphState) : Prop where
  resources : ∀ id, Option.Rel Same ((a.resources id).filter fun r => r.clusterID = cluster)
    ((a'.resources id).filter fun r => r.clusterID = cluster)
  edges : ∀ k, edgeInCluster cluster k = true → (a.edges k).isSome = (a'.edges k).isSome

/-- What a snapshot makes of a resource: the copy and its price. -/
def footprint (r : Resource) : Resource × Nat :=
  (projectedResource (sanitizeResource r), resourceCost (sanitizeResource r))

/-- Resources that look the same leave the same footprint. -/
theorem footprint_congr {r r' : Resource} (h : SameFields r r') (hraw : SameRaw r r') :
    footprint r = footprint r' := by
  unfold footprint
  by_cases hk : r.kind = "Secret"
  · rw [sanitizeResource_of_secret r hk, sanitizeResource_of_secret r' (h.kind ▸ hk), h.ns,
      h.name, h.clusterID]
  · have hk' : r'.kind ≠ "Secret" := h.kind ▸ hk
    obtain ⟨hgv, huid, hrv, howners⟩ := h.versions hk
    have hcopy : projectedRaw r = projectedRaw r' ∧ rawCost r = rawCost r' := by
      unfold projectedRaw rawCost
      rw [← h.kind, ← hgv, ← huid, ← hrv]
      cases hshape : impactReferenceShape r.kind r.groupVersion with
      | none => exact ⟨rfl, rfl⟩
      | some shape =>
        have hnil := hraw hk (by rw [hshape]; rfl)
        have hfields := h.fields hk shape hshape
        cases hr : r.raw with
        | none =>
          cases hr' : r'.raw with
          | none => exact ⟨rfl, rfl⟩
          | some raw' => rw [hr, hr'] at hnil; cases hnil
        | some raw =>
          cases hr' : r'.raw with
          | none => rw [hr, hr'] at hnil; cases hnil
          | some raw' =>
            rw [hr, hr'] at hfields
            obtain ⟨hvalue, hcost⟩ := projected_congr shape (.obj raw) (.obj raw') hfields
            simp only [hvalue, hcost, and_self]
    rw [sanitizeResource_of_ne r hk, sanitizeResource_of_ne r' hk',
      projectedResource_of_ne hk, projectedResource_of_ne hk']
    unfold resourceCost
    rw [hcopy.1, hcopy.2, h.kind, h.name, h.ns, h.clusterID, hgv, huid, hrv, howners]

section Contents

variable {s s' : MemoryStore} {a a' : GraphState} (hs : Represents s a) (hs' : Represents s' a')
  (hw : a.WellFiled) (hw' : a'.WellFiled) (range range' : MapOrder) {cluster : String}
include hs hw

/-- The footprints of the chosen resources, each with its
identifier. -/
theorem mem_footprints (id : String) (f : Resource × Nat) :
    (id, f) ∈ (chosenResources cluster (GoMap.values range s.resources)).map
        (fun r => (r.ID, footprint r))
      ↔ ∃ r, (a.resources id).filter (fun r => r.clusterID = cluster) = some r ∧
          footprint r = f := by
  obtain ⟨-, hmem⟩ := hs.resources_values hw range
  simp only [chosenResources, List.mem_map, List.mem_filter, hmem, Option.filter_eq_some_iff,
    Prod.mk.injEq]
  constructor
  · rintro ⟨r, ⟨hget, hc⟩, rfl, hf⟩
    exact ⟨r, ⟨hget, hc⟩, hf⟩
  · rintro ⟨r, ⟨hget, hc⟩, hf⟩
    have hid := hw.filed id r hget
    exact ⟨r, ⟨by rw [hid]; exact hget, hc⟩, hid, hf⟩

theorem footprints_nodup :
    ((chosenResources cluster (GoMap.values range s.resources)).map
      (fun r => (r.ID, footprint r))).Nodup := by
  obtain ⟨hnodup, -⟩ := hs.resources_values hw range
  apply List.Nodup.of_map Prod.fst
  rw [List.map_map]
  exact (List.filter_sublist.map Resource.ID).nodup hnodup

/-- The keys of the chosen edges. -/
theorem mem_chosenKeys (k : EdgeKey) :
    k ∈ (chosenEdges cluster (s.outgoing.values range)).map Edge.key
      ↔ (a.edges k).isSome ∧ edgeInCluster cluster k = true := by
  obtain ⟨-, hmem⟩ := hs.edges_values hw range
  simp only [chosenEdges, List.mem_map, List.mem_filter, hmem, Option.isSome_iff_exists]
  constructor
  · rintro ⟨e, ⟨hget, hc⟩, rfl⟩
    exact ⟨⟨e, hget⟩, hc⟩
  · rintro ⟨⟨e, hget⟩, hc⟩
    have hkey := hw.keyed k e hget
    exact ⟨e, ⟨by rw [hkey]; exact hget, by rw [hkey]; exact hc⟩, hkey⟩

theorem chosenKeys_nodup :
    ((chosenEdges cluster (s.outgoing.values range)).map Edge.key).Nodup := by
  obtain ⟨hnodup, hmem⟩ := hs.edges_values hw range
  apply (hnodup.filter _).map_on
  intro e he e' he' hkey
  have hget := (hmem e).mp (List.mem_filter.mp he).1
  have hget' := (hmem e').mp (List.mem_filter.mp he').1
  rw [hkey, hget'] at hget
  exact (Option.some.inj hget).symm

include hs' hw'

theorem footprints_perm
    (h : SameInCluster (fun r r' => SameFields r r' ∧ SameRaw r r') cluster a a') :
    ((chosenResources cluster (GoMap.values range s.resources)).map footprint).Perm
      ((chosenResources cluster (GoMap.values range' s'.resources)).map footprint) := by
  have hperm : ((chosenResources cluster (GoMap.values range s.resources)).map
        (fun r => (r.ID, footprint r))).Perm
      ((chosenResources cluster (GoMap.values range' s'.resources)).map
        (fun r => (r.ID, footprint r))) := by
    rw [List.perm_ext_iff_of_nodup (footprints_nodup hs hw range)
      (footprints_nodup hs' hw' range')]
    rintro ⟨id, f⟩
    rw [mem_footprints hs hw, mem_footprints hs' hw']
    have hrel := h.resources id
    generalize (a.resources id).filter _ = x at hrel ⊢
    generalize (a'.resources id).filter _ = x' at hrel ⊢
    cases hrel with
    | none => exact Iff.rfl
    | some hsame =>
      have hfoot := footprint_congr hsame.1 hsame.2
      simp only [Option.some.injEq, exists_eq_left', hfoot]
  have hsnd := hperm.map Prod.snd
  rw [List.map_map, List.map_map] at hsnd
  exact hsnd

theorem chosenKeys_perm {Same : Resource → Resource → Prop}
    (h : SameInCluster Same cluster a a') :
    ((chosenEdges cluster (s.outgoing.values range)).map Edge.key).Perm
      ((chosenEdges cluster (s'.outgoing.values range')).map Edge.key) := by
  rw [List.perm_ext_iff_of_nodup (chosenKeys_nodup hs hw range) (chosenKeys_nodup hs' hw' range')]
  intro k
  rw [mem_chosenKeys hs hw, mem_chosenKeys hs' hw']
  exact and_congr_left fun hc => by rw [h.edges k hc]

end Contents

/-! ### Noninterference -/

/-- Snapshots that nobody can tell apart: the same error, or the
same graph up to order, on which every analysis has the same
outcome. -/
def SameSnapshot : Except SnapshotError Graph → Except SnapshotError Graph → Prop
  | .error e, .error e' => e = e'
  | .ok g, .ok g' => g.resources.Perm g'.resources ∧ g.edges.Perm g'.edges ∧
      ∀ (order order' : RangeOrder EdgeKey) (rootID : String) (opts : ImpactOptions),
        analyzeImpact order (some g) rootID opts = analyzeImpact order' (some g') rootID opts
  | _, _ => False

/-- The order of a graph does not show in an analysis. -/
theorem sameSnapshot_of_perm {g g' : Graph} (hr : g.resources.Perm g'.resources)
    (he : g.edges.Perm g'.edges) : SameSnapshot (.ok g) (.ok g') := by
  refine ⟨hr, he, ?_⟩
  intro order order' rootID opts
  apply analyzeImpact_congr order order'
  · exact SelectSame.of_perm ((hr.filter _).map _)
  · intro t _ edge _
    exact (he.map Edge.key).mem_iff

/-- **Noninterference.** Stores whose contents look the same in the
selected cluster have the same snapshots, or fail with the same
error. Neither the other clusters nor the order of writes shows. -/
theorem snapshotImpact_noninterference (range range' : MapOrder) (ops ops' : List Op)
    (opts : ImpactSnapshotOptions)
    (h : SameInCluster (fun r r' => SameFields r r' ∧ SameRaw r r') opts.clusterID
      (GraphState.run ops) (GraphState.run ops')) :
    SameSnapshot ((run range ops).snapshotImpact range opts)
      ((run range' ops').snapshotImpact range' opts) := by
  cases hopts : opts.normalize with
  | error e =>
    have hfail : ∀ (r : MapOrder) (s : MemoryStore), s.snapshotImpact r opts = .error e := by
      intro r s
      unfold MemoryStore.snapshotImpact newImpactProjectionBuilder
      rw [hopts]
      rfl
    rw [hfail, hfail]
    rfl
  | ok o =>
    obtain ⟨hcluster, hpos⟩ := normalize_ok hopts
    rw [← hcluster] at h
    have hs := run_represents range ops
    have hs' := run_represents range' ops'
    have hw := GraphState.run_wellFiled ops
    have hw' := GraphState.run_wellFiled ops'
    have hres := footprints_perm hs hs' hw hw' range range' h
    have hkeys := chosenKeys_perm hs hs' hw hw' range range' h
    rw [snapshotImpact_eq range _ hopts hpos, snapshotImpact_eq range' _ hopts hpos]
    generalize chosenResources o.clusterID (GoMap.values range (run range ops).resources)
      = rs at hres ⊢
    generalize chosenResources o.clusterID (GoMap.values range' (run range' ops').resources)
      = rs' at hres ⊢
    generalize chosenEdges o.clusterID ((run range ops).outgoing.values range)
      = es at hkeys ⊢
    generalize chosenEdges o.clusterID ((run range' ops').outgoing.values range')
      = es' at hkeys ⊢
    have hcost : resourcesCost rs = resourcesCost rs' := by
      have hsnd := (hres.map Prod.snd).sum_eq
      rw [List.map_map, List.map_map] at hsnd
      exact hsnd
    have hcost' : edgesCost es = edgesCost es' := by
      have hsum := (hkeys.map edgeCost).sum_eq
      rw [List.map_map, List.map_map] at hsum
      exact hsum
    have hlen : rs.length = rs'.length := by
      simpa using hres.length_eq
    have hlen' : es.length = es'.length := by
      simpa using hkeys.length_eq
    have hfits : Fits o rs es ↔ Fits o rs' es' := by
      unfold Fits
      rw [hlen, hlen', hcost, hcost']
    by_cases hfit : Fits o rs es
    · rw [if_pos hfit, if_pos (hfits.mp hfit)]
      apply sameSnapshot_of_perm
      · have hcopy := hres.map Prod.fst
        rw [List.map_map, List.map_map] at hcopy
        exact hcopy
      · have hbare := hkeys.map bareEdge
        rw [List.map_map, List.map_map] at hbare
        exact hbare
    · rw [if_neg hfit, if_neg fun hfit' => hfit (hfits.mpr hfit')]
      rfl

/-- Two graphs of one resource each, filed under one identifier. -/
theorem sameInCluster_single {Same : Resource → Resource → Prop} {cluster : String}
    {r r' : Resource} (hid : (sanitizeResource r).ID = (sanitizeResource r').ID)
    (hc : (sanitizeResource r).clusterID = cluster)
    (hc' : (sanitizeResource r').clusterID = cluster)
    (h : Same (sanitizeResource r) (sanitizeResource r')) :
    SameInCluster Same cluster (GraphState.run [.upsertResource r])
      (GraphState.run [.upsertResource r']) where
  resources id := by
    show Option.Rel Same
      ((Function.update (fun _ => none) (sanitizeResource r).ID
        (some (sanitizeResource r)) id).filter _)
      ((Function.update (fun _ => none) (sanitizeResource r').ID
        (some (sanitizeResource r')) id).filter _)
    rw [← hid]
    by_cases hsame : id = (sanitizeResource r).ID
    · rw [hsame, Function.update_self, Function.update_self]
      simp only [Option.filter_some, hc, hc', decide_true, if_true]
      exact .some h
    · rw [Function.update_of_ne hsame, Function.update_of_ne hsame]
      exact .none
  edges _ _ := rfl

/-- A Pod whose container takes a literal value from its
environment. -/
def literalPod (token : String) : Resource :=
  { kind := "Pod", name := "p", ns := "d", groupVersion := "v1", uid := "u",
    resourceVersion := "1", labels := [("token", token)]
    raw := some [("spec", .obj [("containers", .arr [.obj [("env", .arr
      [.obj [("name", .str "TOKEN"), ("value", .str token)]])]])])] }

/-- The literal value of a variable does not show in a snapshot, not
even at the budget that the Pod just fits. -/
theorem snapshotImpact_noninterference_literal :
    SameSnapshot
      ((run RangeOrder.inserted [.upsertResource (literalPod "alpha")]).snapshotImpact
        RangeOrder.inserted { maxBytes := 884 })
      ((run RangeOrder.inserted [.upsertResource (literalPod "a much longer value")]).snapshotImpact
        RangeOrder.inserted { maxBytes := 884 }) := by
  apply snapshotImpact_noninterference
  refine sameInCluster_single (r := literalPod "alpha") rfl rfl rfl ?_
  refine ⟨⟨rfl, rfl, rfl, rfl, fun _ => ⟨rfl, rfl, rfl, rfl⟩, ?_⟩, fun _ _ => rfl⟩
  intro _ shape hshape
  have hpod : makeImpactReferenceShape "spec" [] = shape := Option.some.inj hshape
  subst hpod
  show AgreesOn (makeImpactReferenceShape "spec" [])
    (.obj ((literalPod "alpha").raw.getD []))
    (.obj ((literalPod "a much longer value").raw.getD []))
  simp [literalPod, makeImpactReferenceShape, impactNestedShape, impactPodSpecShape,
    impactContainerShape, impactEnvShape, AgreesOn, AgreesOnFields, AgreesOnField,
    Json.members?, Json.items?, List.lookup_cons, List.lookup_nil]

/-- A Pod that was read without a raw object, and one whose raw
object is empty. -/
def barePod (raw : Option Object) : Resource :=
  { kind := "Pod", name := "p", ns := "d", groupVersion := "v1", uid := "u",
    resourceVersion := "1", raw := raw }

/-- The two agree on every field, since neither has any. The first
just fits the budget; the second pays 32 bytes more, for an object. -/
theorem snapshotImpact_sees_nil_raw :
    SameInCluster SameFields "" (GraphState.run [.upsertResource (barePod none)])
        (GraphState.run [.upsertResource (barePod (some []))]) ∧
      ((run RangeOrder.inserted [.upsertResource (barePod none)]).snapshotImpact
        RangeOrder.inserted { maxBytes := 566 }).toBool = true ∧
      ((run RangeOrder.inserted [.upsertResource (barePod (some []))]).snapshotImpact
        RangeOrder.inserted { maxBytes := 566 }).toBool = false := by
  refine ⟨?_, by decide +kernel, by decide +kernel⟩
  refine sameInCluster_single (r := barePod none) rfl rfl rfl ?_
  refine ⟨rfl, rfl, rfl, rfl, fun _ => ⟨rfl, rfl, rfl, rfl⟩, ?_⟩
  intro _ shape hshape
  have hpod : makeImpactReferenceShape "spec" [] = shape := Option.some.inj hshape
  subst hpod
  show AgreesOn (makeImpactReferenceShape "spec" []) (.obj []) (.obj [])
  simp [makeImpactReferenceShape, AgreesOn, AgreesOnFields, AgreesOnField, Json.members?]

end KubeAtlas.Proofs.Projection
