import KubeAtlas.Graph.Projection
import KubeAtlas.Graph.Store
import KubeAtlas.Lib.Layers
import KubeAtlas.Lib.NestedMap

/-!
# `KubeAtlas.Store.Memory`: the in-memory graph store

`pkg/store/memory/store.go` and `pkg/store/memory/impact.go`.
Resources are filed under their identifiers. Every edge is filed
twice, under its source and under its target, so that both
directions can be read without a scan. The order in which Go ranges
over a map is the parameter `range`; the locks are left out, since
each operation holds the one mutex from start to end.
-/

set_option autoImplicit false

namespace KubeAtlas.Store

open KubeAtlas.Graph Lib

/-- `edgeKey`: the other end of an edge and its type. -/
structure PeerKey where
  other : String
  typ : EdgeType
  deriving DecidableEq, Repr

/-- `map[string]map[edgeKey]graph.Edge`. -/
abbrev Adjacency := NestedMap String PeerKey Edge

/-- `Store`, without the ring buffers of the snapshot history. -/
structure MemoryStore where
  resources : GoMap String Resource
  outgoing : Adjacency
  incoming : Adjacency

namespace MemoryStore

/-- `New`. -/
def new : MemoryStore := ⟨∅, ∅, ∅⟩

/-! ### Writes -/

/-- `UpsertResource`. -/
def upsertResource (s : MemoryStore) (r : Resource) : MemoryStore :=
  let r := sanitizeResource r
  { s with resources := s.resources.insert r.ID r }

/-- A loop of `DeleteResource`: for each key of `peers`, forget `id`
in the row of the other end. -/
def detach (range : MapOrder) (id : String) (index : Adjacency)
    (peers : GoMap PeerKey Edge) : Adjacency :=
  (GoMap.keys range peers).foldl (fun index k => index.remove k.other ⟨id, k.typ⟩) index

/-- `DeleteResource`. The second loop ranges over what the first one
left of the incoming row: a self-loop is gone from it by then. -/
def deleteResource (range : MapOrder) (s : MemoryStore) (id : String) : MemoryStore :=
  let resources := s.resources.erase id
  let incoming := detach range id s.incoming (s.outgoing.row id)
  let outgoing := s.outgoing.erase id
  let outgoing := detach range id outgoing (incoming.row id)
  let incoming := incoming.erase id
  ⟨resources, outgoing, incoming⟩

/-- `UpsertEdge`. An edge to a Secret also writes the reference node
of that Secret. -/
def upsertEdge (s : MemoryStore) (e : Edge) : MemoryStore :=
  let resources :=
    match secretReferenceFromEdge e with
    | some ref => s.resources.insert ref.ID ref
    | none => s.resources
  ⟨resources, s.outgoing.put e.fromID ⟨e.toID, e.type⟩ e,
    s.incoming.put e.toID ⟨e.fromID, e.type⟩ e⟩

/-- `DeleteEdge`. -/
def deleteEdge (s : MemoryStore) (fromID toID : String) (t : EdgeType) : MemoryStore :=
  { s with
    outgoing := s.outgoing.remove fromID ⟨toID, t⟩
    incoming := s.incoming.remove toID ⟨fromID, t⟩ }

/-! ### Queries -/

/-- `GetResource`. -/
def getResource (s : MemoryStore) (id : String) : Except StoreError Resource :=
  match s.resources.lookup id with
  | none => .error (.notFound id)
  | some r => .ok r

/-- `ListEdges`. -/
def listEdges (range : MapOrder) (s : MemoryStore) (id : String) (dir : Direction) :
    Except StoreError (List Edge) :=
  match dir with
  | .incoming => .ok (GoMap.values range (s.incoming.row id))
  | .outgoing => .ok (GoMap.values range (s.outgoing.row id))
  | .other text => .error (.invalidDirection "ListEdges" (.other text))

/-- `snapshot`. -/
def snapshot (range : MapOrder) (s : MemoryStore) (includeRaw : Bool) : Graph where
  resources := (GoMap.values range s.resources).map fun r =>
    if includeRaw then r else { r with raw := none }
  edges := s.outgoing.values range

/-- `SnapshotImpact`. -/
def snapshotImpact (range : MapOrder) (s : MemoryStore) (opts : ImpactSnapshotOptions) :
    Except SnapshotError Graph := do
  let builder ← newImpactProjectionBuilder opts
  let builder ← (GoMap.values range s.resources).foldlM
    ImpactProjectionBuilder.addResource builder
  let builder ← (s.outgoing.values range).foldlM ImpactProjectionBuilder.addEdge builder
  return builder.graph

/-! ### Traversal -/

/-- The identifiers one hop away from `cur`, in the order the loop
over its peers meets them. -/
def hops (range : MapOrder) (index : Adjacency) (types : List EdgeType) (cur : String) :
    List String :=
  ((GoMap.keys range (index.row cur)).filter fun k => edgeTypeAllowed types k.typ).map
    PeerKey.other

/-- `ListReachable`. Identifiers are collected hop by hop; the
resource of each is looked up when it is first met, and an
identifier without one is walked through. -/
def listReachable (range : MapOrder) (s : MemoryStore) (startID : String)
    (opts : TraverseOptions) : Except StoreError (List Resource) :=
  let depth := traverseDepth opts.maxDepth
  let walk (index : Adjacency) :=
    (Layers.explore (hops range index opts.edgeTypes) depth startID).filterMap fun id =>
      s.resources.lookup id
  match opts.direction with
  | .incoming => .ok (walk s.incoming)
  | .outgoing => .ok (walk s.outgoing)
  | .other text => .error (.invalidDirection "ListReachable" (.other text))

/-! ### Histories -/

/-- The writes of the store. -/
inductive Op where
  | upsertResource (r : Resource)
  | deleteResource (id : String)
  | upsertEdge (e : Edge)
  | deleteEdge (fromID toID : String) (t : EdgeType)

/-- One write. None of them fails. -/
def step (range : MapOrder) (s : MemoryStore) : Op → MemoryStore
  | .upsertResource r => s.upsertResource r
  | .deleteResource id => s.deleteResource range id
  | .upsertEdge e => s.upsertEdge e
  | .deleteEdge fromID toID t => s.deleteEdge fromID toID t

/-- A history, from the empty store. -/
def run (range : MapOrder) (ops : List Op) : MemoryStore := ops.foldl (step range) new

end MemoryStore

end KubeAtlas.Store
