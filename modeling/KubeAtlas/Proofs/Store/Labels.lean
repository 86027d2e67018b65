import KubeAtlas.Extractor.Registry
import KubeAtlas.Proofs.Store.Counts
import KubeAtlas.Store.Postgres

/-!
# `KubeAtlas.Proofs.Store.Labels`: what a label filter selects

A Go map reads the empty text at a missing key, so the loops that
compare `have[k]` with the wanted value take a missing label for an
empty one. `labelExact_iff`: the queries of the in-memory store
consider exactly the resources that carry the wanted labels, as SQL
does, unless a resource lacks a label that is wanted with the empty
value.
-/

set_option autoImplicit false

namespace KubeAtlas.Proofs.Store

open KubeAtlas.Extractor (podLikeMatches)
open KubeAtlas.Graph Lib Lib.Tally KubeAtlas.Store

/-- The resource has every wanted key with the wanted value. -/
def carries (want : StringMap) (r : Resource) : Bool := containsLabels r.labels want

/-- What the label filter of each query means: of what the query
considers without labels, the resources that carry the wanted ones.
The selector of a network policy and the condition in SQL select the
same. -/
structure LabelExact (range : MapOrder) (s : MemoryStore) (want : StringMap) : Prop where
  listResources : ∀ filter : Filter, filter.labels = want → s.listResources range filter
    = (s.listResources range { filter with labels := [] }).filter (carries want)
  listResourcesInCluster : ∀ clusterID, ∀ filter : Filter, filter.labels = want →
    s.listResourcesInCluster range clusterID filter
      = (s.listResourcesInCluster range clusterID { filter with labels := [] }).filter
          (carries want)
  countKindsByNamespace : ∀ ns kind, ((s.countKindsByNamespace range want).get? ns kind).getD 0
    = (GoMap.values range s.resources).countP fun r => kindKey (carries want) r = some (ns, kind)
  countCrossNamespaceEdges : ∀ pair, ((s.countCrossNamespaceEdges range want).lookup pair).getD 0
    = (s.outgoing.values range).countP fun e =>
        pairKey s (carries want) e.fromID e.toID = some pair
  subgraphResources : ∀ ns, (s.getNamespaceSubgraph range ns want).resources
    = (GoMap.values range s.resources).filter fun r => r.ns = ns && carries want r
  subgraphEdges : ∀ ns e, e ∈ (s.getNamespaceSubgraph range ns want).edges ↔
    e ∈ s.outgoing.values range ∧ ∀ id ∈ [e.fromID, e.toID],
      id ∈ ((GoMap.values range s.resources).filter fun r => r.ns = ns && carries want r).map
        Resource.ID
  sql : ∀ filter : Filter, filter.labels = want → ∀ r ∈ GoMap.values range s.resources,
    (filter.sqlSelects r = true ↔ r ∈ s.listResources range filter)
  selector : ∀ r ∈ GoMap.values range s.resources, r.kind = "Pod" →
    podLikeMatches r want = carries want r

/-- A label that is wanted with the empty value is on every resource
that would match. -/
def EmptyValuesPresent (range : MapOrder) (s : MemoryStore) (want : StringMap) : Prop :=
  ∀ r ∈ GoMap.values range s.resources, labelsMatch r.labels want = true →
    ∀ k, (k, "") ∈ want → (r.labels.lookup k).isSome

theorem labelsMatch_of_contains {have' want : StringMap} (h : containsLabels have' want = true) :
    labelsMatch have' want = true := by
  refine List.all_eq_true.mpr fun label hlabel => ?_
  have hvalue := of_decide_eq_true (List.all_eq_true.mp h label hlabel)
  simp [labelValue, hvalue]

theorem contains_of_labelsMatch {have' want : StringMap} (h : labelsMatch have' want = true)
    (hpresent : ∀ k, (k, "") ∈ want → (have'.lookup k).isSome) :
    containsLabels have' want = true := by
  refine List.all_eq_true.mpr fun label hlabel => decide_eq_true ?_
  have hvalue : labelValue have' label.1 = label.2 :=
    of_decide_eq_true (List.all_eq_true.mp h label hlabel)
  unfold labelValue at hvalue
  cases hlookup : have'.lookup label.1 with
  | none =>
    -- then the empty value is wanted, and the key is there after all
    rw [hlookup, Option.getD_none] at hvalue
    have hkey := hpresent label.1 (by rw [hvalue]; exact hlabel)
    rw [hlookup] at hkey
    cases hkey
  | some value => rw [hlookup, Option.getD_some] at hvalue; rw [hvalue]

/-- Nothing is wanted without labels. -/
theorem accepts_iff (filter : Filter) (r : Resource) :
    filter.accepts r = (Filter.accepts { filter with labels := [] } r &&
      labelsMatch r.labels filter.labels) := by
  simp [Filter.accepts, labelsMatch]

/-- The condition in SQL is that of the in-memory store with
containment for matching. -/
theorem sqlSelects_eq (filter : Filter) (r : Resource) :
    filter.sqlSelects r = ((filter.clusterID = "" || r.clusterID = filter.clusterID) &&
      Filter.accepts { filter with labels := [] } r && carries filter.labels r) := by
  have hlabels : (filter.labels.isEmpty ||
      (if r.labels.isEmpty then none else some r.labels).any
        fun labels => containsLabels labels filter.labels) = carries filter.labels r := by
    unfold carries
    cases hwant : filter.labels with
    | nil => rfl
    | cons label want =>
      cases hhave : r.labels with
      | nil => simp [containsLabels]
      | cons label' have' => simp
  unfold Filter.sqlSelects
  dsimp only
  rw [hlabels]
  simp only [Filter.accepts, labelsMatch, List.all_nil, Bool.and_true]
  cases carries filter.labels r <;> simp [Bool.and_comm]

section Exact

variable {range : MapOrder} {s : MemoryStore} {want : StringMap}

/-- Where the two conditions agree on every stored resource, all
queries are exact. -/
theorem labelExact_of_agree (hkeyed : Keyed s)
    (hagree : ∀ r ∈ GoMap.values range s.resources, labelsMatch r.labels want = carries want r) :
    LabelExact range s want := by
  have hlookup : ∀ id, ((s.resources.lookup id).filter fun r => labelsMatch r.labels want)
      = (s.resources.lookup id).filter (carries want) := by
    intro id
    cases hid : s.resources.lookup id with
    | none => rfl
    | some r =>
      have hr := hagree r ((GoMap.mem_values range _).mpr ⟨id, hid⟩)
      rw [Option.filter_some, Option.filter_some, hr]
  have hresources : ∀ ns, (s.getNamespaceSubgraph range ns want).resources
      = (GoMap.values range s.resources).filter fun r => r.ns = ns && carries want r :=
    fun ns => List.filter_congr fun r hr => by rw [hagree r hr]
  have hlisted : ∀ (p : Resource → Bool) (filter : Filter), filter.labels = want →
      ((GoMap.values range s.resources).filter fun r => p r && filter.accepts r)
        = ((GoMap.values range s.resources).filter fun r =>
            p r && Filter.accepts { filter with labels := [] } r).filter (carries want) := by
    rintro p filter rfl
    rw [List.filter_filter]
    refine List.filter_congr fun r hr => ?_
    rw [accepts_iff, hagree r hr, Bool.and_comm (carries filter.labels r), Bool.and_assoc]
  refine { listResources := fun filter => hlisted _ filter
           listResourcesInCluster := fun clusterID filter => hlisted _ filter
           countKindsByNamespace := fun ns kind => ?_
           countCrossNamespaceEdges := fun pair => ?_
           subgraphResources := hresources
           subgraphEdges := fun ns e => ?_
           sql := fun filter hwant r hr => ?_
           selector := fun r hr hpod => ?_ }
  · rw [get?_countKindsByNamespace, raised_none_getD]
    refine List.countP_congr fun r hr => ?_
    rw [kindKey, kindKey, hagree r hr]
  · rw [lookup_countCrossNamespaceEdges range s want hkeyed, raised_none_getD]
    unfold pairKey
    simp_rw [hlookup]
  · rw [mem_getNamespaceSubgraph_edges range s want hkeyed, hresources]
    simp
  · rw [sqlSelects_eq, hwant, ← hagree r hr, ← hwant, Bool.and_assoc, ← accepts_iff]
    exact ⟨fun h => List.mem_filter.mpr ⟨hr, h⟩, fun h => (List.mem_filter.mp h).2⟩
  · rw [← hagree r hr]
    unfold podLikeMatches
    rw [if_pos hpod]
    cases want with
    | nil | cons => rfl

end Exact

/-- The label filters mean what they say if and only if no matching
resource lacks a label that is wanted with the empty value. A Go map
returns the empty text for a label that is not there. -/
theorem labelExact_iff (range : MapOrder) (ops : List MemoryStore.Op) (want : StringMap) :
    LabelExact range (MemoryStore.run range ops) want ↔
      EmptyValuesPresent range (MemoryStore.run range ops) want := by
  constructor
  · intro h r hr hmatch k hk
    have hmem : r ∈ (MemoryStore.run range ops).listResources range { labels := want } :=
      List.mem_filter.mpr ⟨hr, by simp [Filter.accepts, hmatch]⟩
    rw [h.listResources { labels := want } rfl] at hmem
    have hvalue := List.all_eq_true.mp (List.mem_filter.mp hmem).2 (k, "") hk
    rw [of_decide_eq_true hvalue]
    rfl
  · intro h
    refine labelExact_of_agree (keyed_run range ops) fun r hr => ?_
    rw [Bool.eq_iff_iff]
    exact ⟨fun hmatch => contains_of_labelsMatch hmatch (h r hr hmatch), labelsMatch_of_contains⟩

/-- A Pod without labels is listed for `env=` in memory and not in
SQL. -/
theorem empty_value_matches_missing_label :
    let pod : Resource := { kind := "Pod", name := "p", ns := "d" }
    let want : Filter := { labels := [("env", "")] }
    ((MemoryStore.run RangeOrder.inserted [.upsertResource pod]).listResources
        RangeOrder.inserted want).length = 1 ∧
      want.sqlSelects pod = false := by
  decide +kernel

end KubeAtlas.Proofs.Store
