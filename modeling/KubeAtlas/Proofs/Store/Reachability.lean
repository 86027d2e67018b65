import KubeAtlas.Proofs.Store.Contents
import KubeAtlas.Store.Postgres

/-!
# `KubeAtlas.Proofs.Store.Reachability`: two traversals of one graph

`ListReachable` exists twice: hop by hop over the indexes of the
memory store, and as a recursive query over the tables of Postgres.
Both are measured against `Hop`, the allowed edges of the graph read
in the direction of the traversal.

* `memory_listReachable`: the memory store returns the resources
  within the depth, the start excepted. This is the documented
  meaning.
* `traverseSQL_eq`: the query ends, and returns the resources at
  the end of a walk of one arc or more. `postgres_listReachable`: it
  is only run when every type of the list is in `knownEdgeLabels`.

The two differ in exactly two ways. `allEdgeTypes` has six types
that the list of known labels lacks, although it is meant to mirror
it; and a walk that returns to the start makes Postgres list the
start. `listReachable_agree_iff` says that there is no third.
-/

set_option autoImplicit false

namespace KubeAtlas.Proofs.Store

open KubeAtlas.Graph Lib KubeAtlas.Store KubeAtlas.Store.MemoryStore

/-! ### The graph a traversal walks -/

/-- The two directions a traversal accepts. -/
inductive Way where
  | incoming
  | outgoing
  deriving DecidableEq, Repr

namespace Way

def direction : Way → Direction
  | .incoming => .incoming
  | .outgoing => .outgoing

/-- The end of an edge at which a hop starts. -/
def near : Way → EdgeKey → String
  | .incoming => EdgeKey.toID
  | .outgoing => EdgeKey.fromID

/-- The end of an edge to which a hop leads. -/
def far : Way → EdgeKey → String
  | .incoming => EdgeKey.fromID
  | .outgoing => EdgeKey.toID

end Way

/-- One hop along an edge of an allowed type. -/
def Hop (a : GraphState) (way : Way) (types : List EdgeType) (u v : String) : Prop :=
  ∃ k, (a.edges k).isSome ∧ way.near k = u ∧ way.far k = v ∧ edgeTypeAllowed types k.type = true

/-- The resources a traversal is meant to return: the stored ones at
a distance between one and the depth. Identifiers without a resource
may be walked through. -/
def Within (a : GraphState) (way : Way) (types : List EdgeType) (depth : Nat) (startID : String)
    (r : Resource) : Prop :=
  ∃ id, a.resources id = some r ∧ id ≠ startID ∧
    ∃ n, 1 ≤ n ∧ n ≤ depth ∧ IsDistance (Hop a way types) startID id n

/-- Excluding the start, a walk within the depth is as good as a
shortest one. -/
theorem within_iff_walk {a : GraphState} {way : Way} {types : List EdgeType} {depth : Nat}
    {startID : String} {r : Resource} :
    Within a way types depth startID r ↔ ∃ id, a.resources id = some r ∧ id ≠ startID ∧
      ∃ n ≤ depth, Walk (Hop a way types) startID n id := by
  constructor
  · rintro ⟨id, hget, hne, n, -, hn, hdist⟩
    exact ⟨id, hget, hne, n, hn, hdist.1⟩
  · rintro ⟨id, hget, hne, n, hn, hwalk⟩
    obtain ⟨m, hm, hdist⟩ := hwalk.exists_isDistance
    have hpos : m ≠ 0 := by
      rintro rfl
      exact hne (Walk.zero_iff.mp hdist.1).symm
    exact ⟨id, hget, hne, m, by omega, by omega, hdist⟩

theorem traverseDepth_pos (maxDepth : Int) : 1 ≤ traverseDepth maxDepth := by
  unfold traverseDepth
  simp only
  split_ifs <;> omega

/-! ### The memory store -/

section Memory

variable {s : MemoryStore} {a : GraphState} (hs : Represents s a) (range : MapOrder)
include hs

/-- The index that a traversal reads. -/
def wayIndex (s : MemoryStore) : Way → Adjacency
  | .incoming => s.incoming
  | .outgoing => s.outgoing

omit hs in
theorem listReachable_eq (way : Way) (startID : String) (maxDepth : Int)
    (types : List EdgeType) :
    s.listReachable range startID ⟨way.direction, maxDepth, types⟩ =
      .ok ((Layers.explore (hops range (wayIndex s way) types) (traverseDepth maxDepth)
        startID).filterMap fun id => s.resources.lookup id) := by
  cases way <;> rfl

theorem get?_wayIndex (way : Way) (u : String) (p : PeerKey) :
    ∃ k, (wayIndex s way).get? u p = a.edges k ∧ way.near k = u ∧ way.far k = p.other ∧
      k.type = p.typ := by
  cases way with
  | incoming => exact ⟨⟨p.other, u, p.typ⟩, hs.incoming ⟨p.other, u, p.typ⟩, rfl, rfl, rfl⟩
  | outgoing => exact ⟨⟨u, p.other, p.typ⟩, hs.outgoing ⟨u, p.other, p.typ⟩, rfl, rfl, rfl⟩

theorem isSome_get?_wayIndex (way : Way) (k : EdgeKey) :
    (wayIndex s way).get? (way.near k) ⟨way.far k, k.type⟩ = a.edges k := by
  cases way with
  | incoming => exact hs.incoming k
  | outgoing => exact hs.outgoing k

/-- The identifiers the loop over the peers meets are one hop away. -/
theorem arc_hops_iff (way : Way) (types : List EdgeType) (u v : String) :
    Layers.Arc (hops range (wayIndex s way) types) u v ↔ Hop a way types u v := by
  unfold Layers.Arc hops Hop
  rw [List.mem_map]
  constructor
  · rintro ⟨p, hp, rfl⟩
    obtain ⟨hkey, hallowed⟩ := List.mem_filter.mp hp
    obtain ⟨e, he⟩ := (GoMap.mem_keys range _).mp hkey
    obtain ⟨k, hget, hnear, hfar, htype⟩ := get?_wayIndex hs way u p
    have hedge : a.edges k = some e := hget.symm.trans he
    exact ⟨k, by rw [hedge]; rfl, hnear, hfar, by rw [htype]; exact hallowed⟩
  · rintro ⟨k, hsome, rfl, rfl, hallowed⟩
    obtain ⟨e, he⟩ := Option.isSome_iff_exists.mp hsome
    refine ⟨⟨way.far k, k.type⟩, List.mem_filter.mpr ⟨?_, hallowed⟩, rfl⟩
    exact (GoMap.mem_keys range _).mpr ⟨e, (isSome_get?_wayIndex hs way k).trans he⟩

/-- The memory store returns what a traversal is meant to return,
each resource once. -/
theorem memory_listReachable (hw : a.WellFiled) (way : Way) (startID : String)
    (maxDepth : Int) (types : List EdgeType) :
    ∃ rs, s.listReachable range startID ⟨way.direction, maxDepth, types⟩ = .ok rs ∧
      (rs.map Resource.ID).Nodup ∧
      ∀ r, r ∈ rs ↔ Within a way types (traverseDepth maxDepth) startID r := by
  refine ⟨_, listReachable_eq range way startID maxDepth types, ?_, ?_⟩
  · -- the resources come under distinct identifiers, each its own
    have hids : ∀ ids : List String,
        (ids.filterMap fun id => s.resources.lookup id).map Resource.ID
          = ids.filter fun id => (s.resources.lookup id).isSome := by
      intro ids
      induction ids with
      | nil => rfl
      | cons id ids ih =>
        cases hget : s.resources.lookup id with
        | none =>
          rw [List.filterMap_cons_none (f := fun id => s.resources.lookup id) hget,
             List.filter_cons_of_neg (by simp [hget]), ih]
        | some r =>
          have hid : r.ID = id := hw.filed id r ((hs.resources id).symm.trans hget)
          rw [List.filterMap_cons_some (f := fun id => s.resources.lookup id) hget, List.map_cons,
            List.filter_cons_of_pos (by simp [hget]), ih, hid]
    rw [hids]
    exact (Layers.explore_nodup _ _ _).filter _
  · intro r
    have hwalk : ∀ n v, Walk (Layers.Arc (hops range (wayIndex s way) types)) startID n v
        ↔ Walk (Hop a way types) startID n v := by
      intro n v
      exact ⟨Walk.mono fun u w => (arc_hops_iff hs range way types u w).mp,
        Walk.mono fun u w => (arc_hops_iff hs range way types u w).mpr⟩
    rw [within_iff_walk, List.mem_filterMap]
    simp only [Layers.mem_explore, hwalk, hs.resources]
    exact exists_congr fun id => by tauto

end Memory

/-! ### Postgres -/

/-- The tables hold the graph `a`. -/
structure TablesHold (p : PostgresStore) (a : GraphState) : Prop where
  resources : ∀ id r, ⟨id, r⟩ ∈ p.resources ↔ a.resources id = some r
  edges : ∀ k, k ∈ p.edges ↔ (a.edges k).isSome

section Postgres

variable {p : PostgresStore} {a : GraphState} (hp : TablesHold p a)
include hp

/-- The recursive term extends a row by one hop, below the depth. -/
def Extends (a : GraphState) (way : Way) (types : List EdgeType) (depth : Nat)
    (w w' : WalkRow) : Prop :=
  Hop a way types w.nodeID w'.nodeID ∧ w'.depth = w.depth + 1 ∧ w.depth < depth

theorem mem_traverseStep (way : Way) (types : List EdgeType) (depth : Nat)
    (rows : List WalkRow) (w' : WalkRow) :
    w' ∈ p.traverseStep way.near way.far types depth rows
      ↔ ∃ w ∈ rows, Extends a way types depth w w' := by
  simp only [PostgresStore.traverseStep, List.mem_flatMap, List.mem_map, List.mem_filter,
    Bool.and_eq_true, decide_eq_true_eq, Extends, Hop, hp.edges]
  constructor
  · rintro ⟨k, hk, w, ⟨hw, ⟨hnear, hlt⟩, hallowed⟩, rfl⟩
    exact ⟨w, hw, ⟨k, hk, hnear, rfl, hallowed⟩, rfl, hlt⟩
  · rintro ⟨w, hw, ⟨k, hk, hnear, hfar, hallowed⟩, hdepth, hlt⟩
    exact ⟨k, hk, w, ⟨hw, ⟨hnear, hlt⟩, hallowed⟩, by rw [hfar, ← hdepth]⟩

theorem mem_traverseBase (way : Way) (types : List EdgeType) (startID : String)
    (w : WalkRow) :
    w ∈ p.traverseBase way.near way.far types startID
      ↔ Hop a way types startID w.nodeID ∧ w.depth = 1 := by
  simp only [PostgresStore.traverseBase, List.mem_map, List.mem_filter, Bool.and_eq_true,
    decide_eq_true_eq, Hop, hp.edges]
  constructor
  · rintro ⟨k, ⟨hk, hnear, hallowed⟩, rfl⟩
    exact ⟨⟨k, hk, hnear, rfl, hallowed⟩, rfl⟩
  · rintro ⟨⟨k, hk, hnear, hfar, hallowed⟩, hdepth⟩
    exact ⟨k, ⟨hk, hnear, hallowed⟩, by rw [hfar, ← hdepth]⟩

/-- A row is derivable exactly if its depth is the length of a walk
from the start. -/
theorem derivable_iff {way : Way} {types : List EdgeType} {depth : Nat} {startID : String}
    (hdepth : 1 ≤ depth) (w : WalkRow) :
    (∃ b ∈ p.traverseBase way.near way.far types startID,
        Relation.ReflTransGen (Extends a way types depth) b w)
      ↔ 1 ≤ w.depth ∧ w.depth ≤ depth ∧ Walk (Hop a way types) startID w.depth w.nodeID := by
  constructor
  · rintro ⟨b, hb, hpath⟩
    obtain ⟨hhop, hone⟩ := (mem_traverseBase hp way types startID b).mp hb
    induction hpath with
    | refl =>
      rw [hone]
      exact ⟨Nat.le_refl 1, hdepth, .snoc .refl hhop⟩
    | tail _ hstep ih =>
      obtain ⟨hnext, hsucc, hlt⟩ := hstep
      rw [hsucc]
      exact ⟨by omega, by omega, .snoc ih.2.2 hnext⟩
  · -- by induction on the depth: a walk of one arc is a base row
    obtain ⟨v, n⟩ := w
    rintro ⟨hpos, hle, hwalk⟩
    simp only at hpos hle hwalk
    induction n generalizing v with
    | zero => omega
    | succ n ih =>
      obtain ⟨u, hu, hhop⟩ := Walk.succ_iff.mp hwalk
      by_cases hn : n = 0
      · subst hn
        obtain rfl := Walk.zero_iff.mp hu
        exact ⟨⟨v, 1⟩, (mem_traverseBase hp way types startID _).mpr ⟨hhop, rfl⟩, .refl⟩
      · obtain ⟨b, hb, hpath⟩ := ih u (by omega) (by omega) hu
        exact ⟨b, hb, hpath.tail ⟨hhop, rfl, by show n < depth; omega⟩⟩

/-- The query ends, and returns the resources at the end of a walk
of one arc or more. -/
theorem traverseSQL_eq (way : Way) (types : List EdgeType) (startID : String) {depth : Nat}
    (hdepth : 1 ≤ depth) :
    ∃ rs, p.traverseSQL way.near way.far types startID depth = some rs ∧
      ∀ r, r ∈ rs ↔ ∃ id, a.resources id = some r ∧
        ∃ n, 1 ≤ n ∧ n ≤ depth ∧ Walk (Hop a way types) startID n id := by
  have hrank : ∀ w w', Extends a way types depth w w' → w.depth < w'.depth ∧ w'.depth ≤ depth := by
    rintro w w' ⟨-, hsucc, hlt⟩
    omega
  have hrounds : ∀ b ∈ p.traverseBase way.near way.far types startID,
      b.depth ≤ depth ∧ depth < b.depth + depth := by
    intro b hb
    have hone := ((mem_traverseBase hp way types startID b).mp hb).2
    omega
  obtain ⟨walk, hwalk, hmem⟩ := RecursiveQuery.evaluate_eq
    WalkRow.depth (p.traverseBase way.near way.far types startID) depth
    (mem_traverseStep hp way types depth)
    hrank hrounds
  unfold PostgresStore.traverseSQL
  rw [hwalk]
  refine ⟨_, rfl, fun r => ?_⟩
  simp only [List.mem_map, List.mem_filter, List.any_eq_true, decide_eq_true_eq]
  constructor
  · rintro ⟨⟨id, _⟩, ⟨hrow, w, hw, hid⟩, rfl⟩
    obtain ⟨hpos, hle, hpath⟩ := (derivable_iff hp hdepth w).mp ((hmem w).mp hw)
    have hnode : w.nodeID = id := hid.symm
    rw [hnode] at hpath
    exact ⟨id, (hp.resources id _).mp hrow, w.depth, hpos, hle, hpath⟩
  · rintro ⟨id, hget, n, hpos, hle, hpath⟩
    have hw : (⟨id, n⟩ : WalkRow) ∈ walk :=
      (hmem _).mpr ((derivable_iff hp hdepth ⟨id, n⟩).mpr ⟨hpos, hle, hpath⟩)
    exact ⟨⟨id, r⟩, ⟨(hp.resources id r).mpr hget, ⟨id, n⟩, hw, rfl⟩, rfl⟩

end Postgres

/-! ### Agreement -/

/-- The depth of a traversal: 5 if none is given, and at most 10. -/
def depthBound (maxDepth : Int) : Nat :=
  if maxDepth ≤ 0 then 5 else if 10 < maxDepth then 10 else maxDepth.toNat

theorem traverseDepth_eq (maxDepth : Int) : traverseDepth maxDepth = depthBound maxDepth := by
  unfold traverseDepth depthBound
  simp only
  split_ifs <;> omega

/-- Both backends succeed and return what a traversal is meant to
return. -/
def Agree (range : MapOrder) (s : MemoryStore) (p : PostgresStore) (a : GraphState) (way : Way)
    (startID : String) (maxDepth : Int) (types : List EdgeType) : Prop :=
  ∃ ms ps, s.listReachable range startID ⟨way.direction, maxDepth, types⟩ = .ok ms ∧
    p.listReachable startID ⟨way.direction, maxDepth, types⟩ = some (.ok ps) ∧
    (∀ r, r ∈ ps ↔ r ∈ ms) ∧
    ∀ r, r ∈ ms ↔ Within a way types (depthBound maxDepth) startID r

/-- The start is stored, and a walk within the depth returns to it. -/
def Returns (a : GraphState) (way : Way) (types : List EdgeType) (depth : Nat)
    (startID : String) : Prop :=
  (a.resources startID).isSome ∧
    ∃ n, 1 ≤ n ∧ n ≤ depth ∧ Walk (Hop a way types) startID n startID

/-- Every known label is an identifier, so the test of the
expression adds nothing. -/
theorem edgeLabelKnown_iff (t : EdgeType) :
    PostgresStore.edgeLabelKnown t = true ↔ t ∈ PostgresStore.knownEdgeLabels := by
  have hsafe : ∀ t ∈ PostgresStore.knownEdgeLabels, PostgresStore.safeIdent t = true := by
    decide +kernel
  unfold PostgresStore.edgeLabelKnown
  rw [Bool.and_eq_true, List.contains_iff_mem]
  exact ⟨fun h => h.2, fun h => ⟨hsafe t h, h⟩⟩

/-- `ListReachable` of Postgres refuses the first unknown type, or
runs the query. -/
theorem postgres_listReachable (p : PostgresStore) (way : Way) (startID : String)
    (maxDepth : Int) (types : List EdgeType) :
    ((∀ t ∈ types, t ∈ PostgresStore.knownEdgeLabels) →
        p.listReachable startID ⟨way.direction, maxDepth, types⟩ =
          (p.traverseSQL way.near way.far types startID (traverseDepth maxDepth)).map .ok) ∧
      ((¬ ∀ t ∈ types, t ∈ PostgresStore.knownEdgeLabels) →
        ∃ t, p.listReachable startID ⟨way.direction, maxDepth, types⟩
          = some (.error (.unknownEdgeType t))) := by
  unfold PostgresStore.listReachable
  cases hfind : types.find? fun t => !PostgresStore.edgeLabelKnown t with
  | none =>
    have hknown : ∀ t ∈ types, t ∈ PostgresStore.knownEdgeLabels := by
      intro t ht
      rw [← edgeLabelKnown_iff]
      simpa using List.find?_eq_none.mp hfind t ht
    refine ⟨fun _ => ?_, fun hnot => absurd hknown hnot⟩
    cases way <;> rfl
  | some t =>
    have hunknown : t ∉ PostgresStore.knownEdgeLabels := by
      rw [← edgeLabelKnown_iff]
      simpa using List.find?_some hfind
    refine ⟨fun hknown => absurd (hknown t (List.mem_of_find?_eq_some hfind)) hunknown,
      fun _ => ⟨t, ?_⟩⟩
    cases way <;> rfl

/-- **Agreement.** The two backends agree exactly when Postgres
knows every type of the list and no walk within the depth returns to
a stored start. The query lists what is at the end of a walk, and so
a start that it comes back to. -/
theorem listReachable_agree_iff (range : MapOrder) (ops : List Op) (p : PostgresStore)
    (hp : TablesHold p (GraphState.run ops)) (way : Way) (startID : String) (maxDepth : Int)
    (types : List EdgeType) :
    Agree range (run range ops) p (GraphState.run ops) way startID maxDepth types ↔
      (∀ t ∈ types, t ∈ PostgresStore.knownEdgeLabels) ∧
        ¬ Returns (GraphState.run ops) way types (depthBound maxDepth) startID := by
  obtain ⟨ms, hms, -, hmem⟩ := memory_listReachable (run_represents range ops) range
    (GraphState.run_wellFiled ops) way startID maxDepth types
  obtain ⟨qs, hqs, hqmem⟩ := traverseSQL_eq hp way types startID (traverseDepth_pos maxDepth)
  obtain ⟨hquery, hrefuse⟩ := postgres_listReachable p way startID maxDepth types
  rw [traverseDepth_eq] at hmem hqmem
  by_cases hknown : ∀ t ∈ types, t ∈ PostgresStore.knownEdgeLabels
  · have hps : p.listReachable startID ⟨way.direction, maxDepth, types⟩ = some (.ok qs) := by
      rw [hquery hknown, hqs]
      rfl
    constructor
    · rintro ⟨ms', ps, hms', hps', hsame, hwithin⟩
      rw [hps] at hps'
      cases hps'
      refine ⟨hknown, ?_⟩
      rintro ⟨hstored, n, hpos, hle, hwalk⟩
      -- the query lists the start, and no traversal is meant to
      obtain ⟨r, hr⟩ := Option.isSome_iff_exists.mp hstored
      have hlisted := (hqmem r).mpr ⟨startID, hr, n, hpos, hle, hwalk⟩
      obtain ⟨id, hid, hne, -⟩ := (hwithin r).mp ((hsame r).mp hlisted)
      have hfiled := (GraphState.run_wellFiled ops).filed
      exact hne ((hfiled id r hid).symm.trans (hfiled startID r hr))
    · rintro ⟨-, hreturns⟩
      refine ⟨ms, qs, hms, hps, fun r => ?_, hmem⟩
      rw [hqmem, hmem, within_iff_walk]
      constructor
      · rintro ⟨id, hid, n, hpos, hle, hwalk⟩
        refine ⟨id, hid, ?_, n, hle, hwalk⟩
        rintro rfl
        exact hreturns ⟨by rw [hid]; rfl, n, hpos, hle, hwalk⟩
      · rintro ⟨id, hid, hne, n, hle, hwalk⟩
        have hpos : n ≠ 0 := by
          rintro rfl
          exact hne (Walk.zero_iff.mp hwalk).symm
        exact ⟨id, hid, n, by omega, hle, hwalk⟩
  · constructor
    · rintro ⟨ms', ps, -, hps', -⟩
      obtain ⟨t, ht⟩ := hrefuse hknown
      rw [ht] at hps'
      cases hps'
    · rintro ⟨hall, -⟩
      exact absurd hall hknown

/-- Tables with the rows of a memory store. -/
def mirrorTables (range : MapOrder) (s : MemoryStore) : PostgresStore where
  resources := s.resources.entries.map fun entry => ⟨entry.1, entry.2⟩
  edges := (s.outgoing.values range).map Edge.key

theorem mirrorTables_hold {s : MemoryStore} {a : GraphState} (hs : Represents s a)
    (hw : a.WellFiled) (range : MapOrder) : TablesHold (mirrorTables range s) a where
  resources id r := by
    rw [← hs.resources]
    show _ ∈ s.resources.entries.map _ ↔ _
    rw [List.mem_map]
    constructor
    · rintro ⟨entry, hentry, heq⟩
      cases heq
      exact AList.mem_lookup_iff.mpr hentry
    · intro hget
      exact ⟨⟨id, r⟩, AList.mem_lookup_iff.mp hget, rfl⟩
  edges k := by
    obtain ⟨-, hmem⟩ := hs.edges_values hw range
    show k ∈ (s.outgoing.values range).map Edge.key ↔ _
    simp only [List.mem_map, hmem, Option.isSome_iff_exists]
    constructor
    · rintro ⟨e, he, rfl⟩
      exact ⟨e, he⟩
    · rintro ⟨e, he⟩
      have hkey := hw.keyed k e he
      exact ⟨e, by rw [hkey]; exact he, hkey⟩

/-- A resource of namespace `d`. -/
def inD (kind name : String) : Resource := { kind := kind, name := name, ns := "d" }

/-- A workload that uses a ConfigMap. -/
def configUse : List Op :=
  [.upsertResource (inD "Deployment" "w"), .upsertResource (inD "ConfigMap" "c"),
    .upsertEdge ⟨"d/Deployment/w", "d/ConfigMap/c", .usesConfigMap, []⟩]

/-- An autoscaler that scales a workload. -/
def scaleTarget : List Op :=
  [.upsertResource (inD "Deployment" "w"),
    .upsertEdge ⟨"d/HorizontalPodAutoscaler/h", "d/Deployment/w", .scales, []⟩]

/-- A workload with an edge to itself. -/
def selfOwner : List Op :=
  [.upsertResource (inD "Deployment" "w"),
    .upsertEdge ⟨"d/Deployment/w", "d/Deployment/w", .owns, []⟩]

/-- The two backends agree on what a workload uses. -/
theorem listReachable_agree_configUse :
    Agree RangeOrder.inserted (run RangeOrder.inserted configUse)
      (mirrorTables RangeOrder.inserted (run RangeOrder.inserted configUse))
      (GraphState.run configUse) .outgoing "d/Deployment/w" 3 [.usesConfigMap] := by
  have hhold := mirrorTables_hold (run_represents RangeOrder.inserted configUse)
    (GraphState.run_wellFiled configUse) RangeOrder.inserted
  apply (listReachable_agree_iff RangeOrder.inserted configUse _ hhold _ _ _ _).mpr
  refine ⟨by decide, ?_⟩
  rintro ⟨-, n, hpos, -, hwalk⟩
  -- the last hop of a closed walk would end at the workload
  obtain ⟨m, rfl⟩ : ∃ m, n = m + 1 := ⟨n - 1, by omega⟩
  obtain ⟨u, -, k, hsome, -, hfar, -⟩ := Walk.succ_iff.mp hwalk
  have hmem : k ∈ (mirrorTables RangeOrder.inserted
      (run RangeOrder.inserted configUse)).edges := (hhold.edges k).mpr hsome
  have hnone : ∀ k ∈ (mirrorTables RangeOrder.inserted
      (run RangeOrder.inserted configUse)).edges, k.toID ≠ "d/Deployment/w" := by
    decide +kernel
  exact hnone k hmem hfar

/-- The two ways to differ. Postgres refuses the type of an edge
that the memory store walks; and it lists a workload among the
resources reachable from itself. -/
theorem listReachable_differs :
    (((run RangeOrder.inserted scaleTarget).listReachable RangeOrder.inserted
        "d/HorizontalPodAutoscaler/h" ⟨.outgoing, 3, [.scales]⟩).toOption.map List.length
        = some 1 ∧
      ((mirrorTables RangeOrder.inserted (run RangeOrder.inserted scaleTarget)).listReachable
        "d/HorizontalPodAutoscaler/h" ⟨.outgoing, 3, [.scales]⟩).map
          (fun result => result.toOption.map List.length) = some none) ∧
    (((run RangeOrder.inserted selfOwner).listReachable RangeOrder.inserted
        "d/Deployment/w" ⟨.outgoing, 3, []⟩).toOption.map List.length = some 0 ∧
      ((mirrorTables RangeOrder.inserted (run RangeOrder.inserted selfOwner)).listReachable
        "d/Deployment/w" ⟨.outgoing, 3, []⟩).map
          (fun result => result.toOption.map List.length) = some (some 1)) := by
  decide +kernel

end KubeAtlas.Proofs.Store
