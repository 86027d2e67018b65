import KubeAtlas.Analysis.Impact
import Mathlib.Data.List.Induction

/-!
# `KubeAtlas.Proofs.Impact.Index`: what the two scans of `AnalyzeImpact` leave behind

`AnalyzeImpact` first loads the resources of the selected cluster
into a map and then indexes the edges. This file says what each of
the two loops computes.

* `loadResources_spec`: the load fails exactly when a selected
  resource is malformed or two of them share an identifier, and
  otherwise tabulates the selected resources.
* `scanEdges_spec`: the scan keeps each distinct edge that starts at
  a loaded resource once, and the index holds exactly the entries of
  those edges.
* `mem_edgeEntries_arc`: an edge adds an arc exactly when it is
  `Walkable`.
-/

set_option autoImplicit false

namespace KubeAtlas.Proofs.Impact

open KubeAtlas.Graph Lib Analysis

/-- The first stage of a run that succeeds has succeeded. -/
theorem exists_ok_of_bind {ε α β : Type} {x : Except ε α} {f : α → Option β} {y : β}
    (h : (x.toOption >>= f) = some y) : ∃ a, x = .ok a ∧ f a = some y := by
  cases x with
  | error e => cases h
  | ok a => exact ⟨a, rfl, h⟩

/-! ### The load -/

/-- The resources of one cluster, as the analysis keeps them. -/
def selected (cluster : String) (resources : List Resource) : List Resource :=
  (resources.filter (fun r => r.clusterID = cluster)).map sanitizeResource

@[simp] theorem selected_nil (cluster : String) : selected cluster [] = [] := rfl

variable {cluster : String} {r : Resource}

theorem selected_cons_of_eq (l : List Resource) (h : r.clusterID = cluster) :
    selected cluster (r :: l) = sanitizeResource r :: selected cluster l := by
  simp [selected, h]

theorem selected_cons_of_ne (l : List Resource) (h : r.clusterID ≠ cluster) :
    selected cluster (r :: l) = selected cluster l := by
  simp [selected, h]

/-- The table maps the identifier of each listed resource to that
resource, and nothing else. -/
structure Tabulates (table : ResourceTable) (listed : List Resource) : Prop where
  lookup : ∀ id r, table id = some r ↔ r ∈ listed ∧ r.ID = id
  nodup : (listed.map Resource.ID).Nodup

namespace Tabulates

variable {table : ResourceTable} {listed : List Resource}

theorem empty : Tabulates (fun _ => none) [] where
  lookup := by simp
  nodup := List.nodup_nil

section

variable (h : Tabulates table listed)
include h

theorem isSome_iff {id : String} :
    (table id).isSome ↔ id ∈ listed.map Resource.ID := by
  rw [Option.isSome_iff_exists, List.mem_map]
  simp only [h.lookup]

/-- A new identifier extends the table. -/
theorem insert {r : Resource} (hr : r.ID ∉ listed.map Resource.ID) :
    Tabulates (Function.update table r.ID (some r)) (listed ++ [r]) where
  lookup id x := by
    by_cases hid : id = r.ID
    · subst hid
      rw [Function.update_self, Option.some.injEq, List.mem_append, List.mem_singleton]
      refine ⟨fun hx => hx ▸ ⟨Or.inr rfl, rfl⟩, fun ⟨hx, hxid⟩ => ?_⟩
      cases hx with
      | inl hx => exact absurd (hxid ▸ List.mem_map_of_mem hx) hr
      | inr hx => exact hx.symm
    · rw [Function.update_of_ne hid, h.lookup, List.mem_append, List.mem_singleton]
      refine ⟨fun hx => ⟨Or.inl hx.1, hx.2⟩, fun ⟨hx, hxid⟩ => ?_⟩
      cases hx with
      | inl hx => exact ⟨hx, hxid⟩
      | inr hx => exact absurd (hx ▸ hxid).symm hid
  nodup := by
    rw [List.map_append, List.map_singleton]
    exact List.nodup_append.mpr ⟨h.nodup, List.nodup_singleton _, by
      intro a ha b hb hab
      rw [List.mem_singleton] at hb
      exact hr (hb ▸ hab ▸ ha)⟩

/-- Reading the table at a listed identifier gives the resource with
it. -/
theorem get_eq {r : Resource} (hr : r ∈ listed) :
    table.get r.ID = r := by
  show (table r.ID).getD {} = r
  rw [(h.lookup r.ID r).mpr ⟨hr, rfl⟩]
  rfl

/-- A present identifier is that of the resource it maps to. -/
theorem get_spec {id : String} (hid : (table id).isSome) :
    table.get id ∈ listed ∧ (table.get id).ID = id := by
  obtain ⟨r, hr⟩ := Option.isSome_iff_exists.mp hid
  have hget : table.get id = r := by
    show (table id).getD {} = r
    rw [hr]
    rfl
  rw [hget]
  exact (h.lookup id r).mp hr

end

end Tabulates

variable {table : ResourceTable}

/-- The two outcomes of the load. It succeeds exactly when the
selected resources are valid and their identifiers differ. -/
theorem loadResources_spec (cluster : String) (l : List Resource) {listed : List Resource}
    (h : Tabulates table listed) :
    (∃ table', loadResources cluster l table = .ok table' ∧
        Tabulates table' (listed ++ selected cluster l) ∧
        ∀ r ∈ selected cluster l, validResource r = true) ∨
      (loadResources cluster l table = .error .invalidProjection ∧
        ¬ ((∀ r ∈ selected cluster l, validResource r = true) ∧
          ((listed ++ selected cluster l).map Resource.ID).Nodup)) := by
  induction l generalizing table listed with
  | nil =>
    refine Or.inl ⟨table, rfl, ?_, by simp⟩
    rwa [selected_nil, List.append_nil]
  | cons r l ih =>
    by_cases hc : r.clusterID = cluster
    · rw [selected_cons_of_eq l hc]
      by_cases hv : validResource (sanitizeResource r) = true
      · by_cases hid : (sanitizeResource r).ID ∈ listed.map Resource.ID
        · -- The identifier is taken.
          refine Or.inr ⟨?_, fun hgood => ?_⟩
          · simp [loadResources, loadResource, hc, hv, -sanitizeResource_ID,
              h.isSome_iff.mpr hid]
          · have hnd := hgood.2
            rw [List.map_append, List.map_cons] at hnd
            exact (List.nodup_append.mp hnd).2.2 _ hid _ List.mem_cons_self rfl
        · have hload : loadResources cluster (r :: l) table
              = loadResources cluster l
                (Function.update table (sanitizeResource r).ID (some (sanitizeResource r))) := by
            have hnone : (table (sanitizeResource r).ID).isSome = false := by
              rw [← Bool.not_eq_true, h.isSome_iff]
              exact hid
            simp [loadResources, loadResource, hc, hv, hnone, -sanitizeResource_ID]
          rw [hload]
          cases ih (h.insert hid) with
          | inl hok =>
            obtain ⟨table', hrun, htab, hvalid⟩ := hok
            refine Or.inl ⟨table', hrun, ?_, ?_⟩
            · rwa [List.append_assoc] at htab
            · exact List.forall_mem_cons.mpr ⟨hv, hvalid⟩
          | inr herr =>
            refine Or.inr ⟨herr.1, fun hgood => herr.2 ⟨?_, ?_⟩⟩
            · exact (List.forall_mem_cons.mp hgood.1).2
            · rw [List.append_assoc]
              exact hgood.2
      · refine Or.inr ⟨?_, fun hgood => hv (hgood.1 _ List.mem_cons_self)⟩
        simp [loadResources, loadResource, hc, hv]
    · rw [selected_cons_of_ne l hc]
      have hload : loadResources cluster (r :: l) table = loadResources cluster l table := by
        simp [loadResources, loadResource, hc]
      rw [hload]
      exact ih h

variable {l : List Resource}

/-- What a successful load leaves behind. -/
theorem loadResources_ok (h : loadResources cluster l (fun _ => none) = .ok table) :
    Tabulates table (selected cluster l) := by
  cases loadResources_spec cluster l .empty with
  | inl hok =>
    obtain ⟨table', hrun, htab, -⟩ := hok
    rw [h, Except.ok.injEq] at hrun
    rw [hrun]
    exact htab
  | inr herr =>
    rw [h] at herr
    exact absurd herr.1 (by simp)

/-- Every resource that was loaded passed the checks. -/
theorem loadResources_valid (h : loadResources cluster l (fun _ => none) = .ok table) :
    ∀ r ∈ selected cluster l, validResource r = true := by
  cases loadResources_spec cluster l .empty with
  | inl hok =>
    obtain ⟨table', -, -, hvalid⟩ := hok
    exact hvalid
  | inr herr =>
    rw [h] at herr
    exact absurd herr.1 (by simp)

theorem clusterID_of_mem_selected (h : r ∈ selected cluster l) : r.clusterID = cluster := by
  obtain ⟨r', hr', rfl⟩ := List.mem_map.mp h
  rw [sanitizeResource_clusterID]
  exact of_decide_eq_true (List.mem_filter.mp hr').2

/-! ### The scan of the edges -/

/-- The edge types that `AnalyzeImpact` walks. -/
def modeledTypes : List EdgeType :=
  [.owns, .usesConfigMap, .usesSecret, .mountsVolume, .selects, .routesTo, .attachedTo,
    .usesServiceAccount]

theorem impactExcludedType_eq_none_iff (type : EdgeType) :
    impactExcludedType type = none ↔ type ∈ modeledTypes := by
  unfold impactExcludedType modeledTypes
  split
  · rename_i h
    simpa [or_assoc] using h
  · rename_i h
    have hne : (if type = EdgeType.bindsRole || type = EdgeType.bindsSubject then
        some ImpactNoticeReason.authorizationSeparate
      else if type = EdgeType.callsAtRuntime then some .runtimeExcluded
      else some .unmodeledRelationship) ≠ none := by
      split
      · simp
      · split <;> simp
    refine ⟨fun h' => absurd h' hne, fun h' => absurd ?_ h⟩
    simpa [or_assoc] using h'

/-- The edge is of a modeled type, its far end is loaded, and it is
no `OWNS` edge whose owner is known to be another instance. -/
structure Walkable (resources : ResourceTable) (opts : ImpactOptions) (edge : EdgeKey) :
    Prop where
  modeled : edge.type ∈ modeledTypes
  present : (resources (traversalEnds opts.relation edge).2).isSome
  owner : edge.type = .owns →
    impactOwnerUIDStatus (resources.get edge.fromID) (resources.get edge.toID) ≠ .mismatch

/-- The step along an edge. -/
def stepAlong (resources : ResourceTable) (opts : ImpactOptions) (edge : EdgeKey) :
    ImpactStep :=
  { fromID := edge.fromID, toID := edge.toID, type := edge.type
    traversalFrom := (traversalEnds opts.relation edge).1
    traversalTo := (traversalEnds opts.relation edge).2
    ownerUIDStatus := if edge.type = .owns then
      some (impactOwnerUIDStatus (resources.get edge.fromID) (resources.get edge.toID))
      else none }

variable {step : ImpactStep} {resources : ResourceTable} {opts : ImpactOptions}

/-- An edge adds an arc exactly when it is walkable, and that arc is
the step along it. -/
theorem mem_edgeEntries_arc {edge : EdgeKey} :
    .arc step ∈ edgeEntries resources opts edge ↔
      Walkable resources opts edge ∧ step = stepAlong resources opts edge := by
  unfold edgeEntries stepAlong
  cases htype : impactExcludedType edge.type with
  | some reason =>
    have hun : edge.type ∉ modeledTypes := by
      rw [← impactExcludedType_eq_none_iff, htype]
      simp
    simpa using fun hw : Walkable resources opts edge => absurd hw.modeled hun
  | none =>
    have hmod := (impactExcludedType_eq_none_iff _).mp htype
    by_cases hto : (resources (traversalEnds opts.relation edge).2).isSome
    · have hsome : (resources (traversalEnds opts.relation edge).2).isNone = false := by
        rw [Option.isNone_eq_false_iff]
        exact hto
      by_cases howns : edge.type = .owns
      · cases hst : impactOwnerUIDStatus (resources.get edge.fromID)
            (resources.get edge.toID) with
        | mismatch =>
          simpa [hsome, howns, hst] using
            fun hw : Walkable resources opts edge => absurd hst (hw.owner howns)
        | unknown =>
          have hw : Walkable resources opts edge :=
            ⟨hmod, hto, fun _ => by rw [hst]; decide⟩
          simp [hsome, howns, hw]
        | matched =>
          have hw : Walkable resources opts edge :=
            ⟨hmod, hto, fun _ => by rw [hst]; decide⟩
          simp [hsome, howns, hw]
      · have hw : Walkable resources opts edge := ⟨hmod, hto, fun h => absurd h howns⟩
        simp [hsome, howns, hw]
    · have hnone : (resources (traversalEnds opts.relation edge).2).isNone = true := by
        simpa using hto
      have hw : ¬ Walkable resources opts edge := fun hw => hto hw.present
      by_cases hid : impactIDCluster (traversalEnds opts.relation edge).2 = opts.clusterID
      · simp [hnone, hid, hw]
      · simp [hnone, hid, hw]

/-- The entries of a list of edges, each at its start. -/
def entriesOf (resources : ResourceTable) (opts : ImpactOptions) (keys : List EdgeKey) :
    List (String × IndexEntry) :=
  keys.flatMap fun edge =>
    (edgeEntries resources opts edge).map fun entry =>
      ((traversalEnds opts.relation edge).1, entry)

/-- What the scan has kept of the edges so far. -/
structure Scanned (resources : ResourceTable) (opts : ImpactOptions) (edges : List Edge)
    (scan : EdgeScan) : Prop where
  nodup : scan.seenEdges.Nodup
  mem_seen : ∀ edge, edge ∈ scan.seenEdges ↔ edge ∈ edges.map Edge.key ∧
    (resources (traversalEnds opts.relation edge).1).isSome
  holds : scan.index.Holds (entriesOf resources opts scan.seenEdges)

/-- The scan keeps every distinct edge with a loaded start once. -/
theorem scanEdges_spec (resources : ResourceTable) (opts : ImpactOptions)
    (edges : List Edge) : Scanned resources opts edges (scanEdges resources opts edges) := by
  induction edges using List.reverseRecOn with
  | nil => exact ⟨List.nodup_nil, by simp [scanEdges], .empty⟩
  | append_singleton edges e ih =>
    have hstep : scanEdges resources opts (edges ++ [e])
        = scanEdge resources opts (scanEdges resources opts edges) e := by
      simp [scanEdges]
    rw [hstep]
    unfold scanEdge
    by_cases hstart : (resources (traversalEnds opts.relation e.key).1).isSome
    · have hnone : (resources (traversalEnds opts.relation e.key).1).isNone = false := by
        rw [Option.isNone_eq_false_iff]
        exact hstart
      by_cases hseen : e.key ∈ (scanEdges resources opts edges).seenEdges
      · -- A repeated edge.
        simp only [hnone, hseen, Bool.false_eq_true, if_false, if_true]
        refine ⟨ih.nodup, fun k => ?_, ih.holds⟩
        rw [ih.mem_seen, List.map_append, List.mem_append, List.map_singleton,
          List.mem_singleton]
        refine ⟨fun h => ⟨Or.inl h.1, h.2⟩, fun h => ⟨?_, h.2⟩⟩
        cases h.1 with
        | inl hk => exact hk
        | inr hk => exact hk ▸ ((ih.mem_seen _).mp hseen).1
      · simp only [hnone, hseen, Bool.false_eq_true, if_false]
        rw [List.insert_of_not_mem hseen]
        refine ⟨List.nodup_cons.mpr ⟨hseen, ih.nodup⟩, fun k => ?_, ih.holds.addAll _ _⟩
        rw [List.mem_cons, ih.mem_seen, List.map_append, List.mem_append,
          List.map_singleton, List.mem_singleton]
        refine ⟨fun h => ?_, fun h => ?_⟩
        · cases h with
          | inl hk => exact ⟨Or.inr hk, hk ▸ hstart⟩
          | inr hk => exact ⟨Or.inl hk.1, hk.2⟩
        · cases h.1 with
          | inl hk => exact Or.inr ⟨hk, h.2⟩
          | inr hk => exact Or.inl hk
    · -- An edge that starts outside the loaded resources.
      have hnone : (resources (traversalEnds opts.relation e.key).1).isNone = true := by
        simpa using hstart
      simp only [hnone, if_true]
      refine ⟨ih.nodup, fun k => ?_, ih.holds⟩
      rw [ih.mem_seen, List.map_append, List.mem_append, List.map_singleton,
        List.mem_singleton]
      refine ⟨fun h => ⟨Or.inl h.1, h.2⟩, fun h => ⟨?_, h.2⟩⟩
      cases h.1 with
      | inl hk => exact hk
      | inr hk => exact absurd (hk ▸ h.2) hstart

/-- The arcs of the index: the steps along the walkable edges that
start there. -/
theorem mem_scanEdges_arcs {edges : List Edge} {v : String} :
    step ∈ (scanEdges resources opts edges).index.arcs v ↔
      ∃ edge ∈ edges.map Edge.key, (traversalEnds opts.relation edge).1 = v ∧
        (resources v).isSome ∧ Walkable resources opts edge ∧
        step = stepAlong resources opts edge := by
  have hscan := scanEdges_spec resources opts edges
  rw [hscan.holds.mem_arcs]
  unfold entriesOf
  simp only [List.mem_flatMap, List.mem_map, Prod.mk.injEq]
  constructor
  · rintro ⟨edge, hedge, entry, hentry, hv, rfl⟩
    obtain ⟨hmem, hsome⟩ := (hscan.mem_seen edge).mp hedge
    obtain ⟨hw, hs⟩ := mem_edgeEntries_arc.mp hentry
    exact ⟨edge, List.mem_map.mp hmem, hv, hv ▸ hsome, hw, hs⟩
  · rintro ⟨edge, hmem, hv, hsome, hw, hs⟩
    refine ⟨edge, (hscan.mem_seen edge).mpr ⟨List.mem_map.mpr hmem, hv ▸ hsome⟩, _,
      mem_edgeEntries_arc.mpr ⟨hw, hs⟩, hv, rfl⟩

end KubeAtlas.Proofs.Impact
