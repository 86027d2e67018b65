import KubeAtlas.Operations.Evidence
import KubeAtlas.Store.Queries

/-!
# `KubeAtlas.Store.History`: the event history of the in-memory store

The ring buffers of `pkg/store/memory/store.go`, the bounded reads
of `history_events.go` and `history_bounds.go`, and the types of
`pkg/graph/snapshot.go`. An event says that an object was added,
updated or deleted. Its payload is dropped before it is stored, for
objects of every kind.

`LoggedStore` is the whole `Store`: the graph with its history. A
clock reading is an argument of the operation that takes it.
Cancellation and the read lock are left out.
-/

set_option autoImplicit false

namespace KubeAtlas.Store

open KubeAtlas.Graph Lib
open Operations (Time)

/-! ### Events -/

/-- `EventType`, a defined string type. -/
inductive EventType where
  | add
  | update
  | delete
  | other (text : String)
  deriving DecidableEq, Repr

def EventType.text : EventType → String
  | .add => "add"
  | .update => "update"
  | .delete => "delete"
  | .other text => text

/-- `ResourceEvent`. -/
structure ResourceEvent where
  id : Int64 := 0
  timestamp : Time := 0
  clusterID : String := ""
  ns : String
  kind : String
  uid : String := ""
  name : String
  eventType : EventType
  resourceVersion : String := ""
  data : Option Object := none

/-- `MetadataOnlyEvent`. -/
def metadataOnlyEvent (e : ResourceEvent) : ResourceEvent := { e with data := none }

/-- `SnapshotMeta`. The trigger is a text that nothing here looks
at. -/
structure SnapshotMeta where
  id : Int64 := 0
  timestamp : Time := 0
  clusterID : String := ""
  resourceCount : Int64
  edgeCount : Int64
  durationMS : Int64
  trigger : String
  deriving DecidableEq, Repr

/-- `maxMemoryEvents`. -/
def maxMemoryEvents : Nat := 1000

/-- `Store`: the graph and the ring buffers of its history. -/
structure LoggedStore extends MemoryStore where
  events : List ResourceEvent := []
  snapshotMeta : List SnapshotMeta := []
  eventSeq : Int64 := 0

/-- The last entries of a buffer that has just grown. -/
def retained {α : Type} (buffer : List α) : List α :=
  buffer.drop (buffer.length - maxMemoryEvents)

theorem mem_of_mem_retained {α : Type} {buffer : List α} {a : α} (h : a ∈ retained buffer) :
    a ∈ buffer := by
  unfold retained at h
  exact List.mem_of_mem_drop h

/-! ### Bounded reads -/

def defaultHistoryEvents : Int := 200
def maxHistoryEvents : Int := 1000
def defaultHistoryBytes : Int := 2 ^ 20
def maxHistoryBytes : Int := 2 * 2 ^ 20

/-- The errors of the bounded reads. -/
inductive HistoryError where
  | query
  | limit
  | scope
  deriving DecidableEq, Repr

def HistoryError.message : HistoryError → String
  | .query => "history events: invalid query"
  | .limit => "history events: metadata budget exceeded"
  | .scope => "history events: invalid projected scope"

/-- `HistoryEventQuery`. -/
structure HistoryEventQuery where
  clusterID : String := ""
  ns : String := ""
  fromTime : Time
  toTime : Time
  limit : Int := 0
  maxBytes : Int := 0

/-- `HistoryEventQuery.Normalize`. -/
def HistoryEventQuery.normalize (q : HistoryEventQuery) : Except HistoryError HistoryEventQuery :=
  let q := if q.limit = 0 then { q with limit := defaultHistoryEvents } else q
  let q := if q.maxBytes = 0 then { q with maxBytes := defaultHistoryBytes } else q
  if Strings.len q.clusterID > 253 || Strings.containsAny q.clusterID ['/', ':', '\x00'] ||
      Strings.len q.ns > 253 || Strings.containsAny q.ns ['\x00'] ||
      q.fromTime.IsZero || q.toTime.IsZero || !decide (q.fromTime < q.toTime) ||
      q.limit < 1 || q.limit > maxHistoryEvents || q.maxBytes < 1 ||
      q.maxBytes > maxHistoryBytes then .error .query
  else .ok q

/-- `HistoryEvent`: an event without its payload. -/
structure HistoryEvent where
  id : Int64
  timestamp : Time
  clusterID : String
  ns : String
  kind : String
  uid : String
  name : String
  eventType : EventType
  resourceVersion : String
  deriving DecidableEq, Repr

/-- `ProjectHistoryEvent`. -/
def projectHistoryEvent (e : ResourceEvent) : HistoryEvent :=
  ⟨e.id, e.timestamp, e.clusterID, e.ns, e.kind, e.uid, e.name, e.eventType, e.resourceVersion⟩

/-- `HistoryEventPage`. -/
structure HistoryEventPage where
  events : List HistoryEvent := []
  truncated : Bool := false
  deriving DecidableEq, Repr

/-- `HistoryEventPageBuilder`. -/
structure HistoryEventPageBuilder where
  page : HistoryEventPage := {}
  query : HistoryEventQuery
  remaining : Int

/-- The texts whose lengths are charged. -/
def HistoryEvent.texts (e : HistoryEvent) : List String :=
  [e.clusterID, e.ns, e.kind, e.uid, e.name, e.eventType.text, e.resourceVersion]

/-- The charge for one text: six bytes for each of its own, if they
are left. -/
def chargeText (remaining : Int) (value : String) : Except HistoryError Int :=
  if (Strings.len value : Int) > remaining / 6 then .error .limit
  else .ok (remaining - 6 * Strings.len value)

/-- The conditions under which an event is in the window of a query. -/
def HistoryEventQuery.selects (q : HistoryEventQuery) (clusterID ns kind : String)
    (timestamp : Time) : Bool :=
  clusterID = q.clusterID && (q.ns = "" || ns = q.ns) && q.fromTime ≤ timestamp &&
    timestamp ≤ q.toTime && kind ≠ "Secret"

/-- `HistoryEventPageBuilder.Add`. -/
def HistoryEventPageBuilder.add (b : HistoryEventPageBuilder) (e : HistoryEvent) :
    Except HistoryError HistoryEventPageBuilder :=
  if !b.query.selects e.clusterID e.ns e.kind e.timestamp then .error .scope
  else if (b.page.events.length : Int) = b.query.limit then
    .ok { b with page := { b.page with truncated := true } }
  else if b.remaining < 512 then .error .limit
  else do
    let remaining ← e.texts.foldlM chargeText (b.remaining - 512)
    .ok { b with page := { b.page with events := b.page.events ++ [e] }, remaining := remaining }

/-- The loop over the selected events, which stops at the first one
that does not fit. -/
def HistoryEventPageBuilder.addAll (b : HistoryEventPageBuilder) :
    List HistoryEvent → Except HistoryError HistoryEventPageBuilder
  | [] => .ok b
  | e :: es =>
    match b.add e with
    | .error err => .error err
    | .ok b => if b.page.truncated then .ok b else b.addAll es

/-- `HistoryBounds`. -/
structure HistoryBounds where
  clusterID : String
  fromTime : Time
  toTime : Time
  firstEventAt : Time := 0
  lastEventAt : Time := 0
  latestMarkerAt : Time := 0
  deriving DecidableEq, Repr

/-- The oldest event first, and of two at one time the one appended
first. -/
def eventBefore (a b : ResourceEvent) : Prop :=
  a.timestamp < b.timestamp ∨ (a.timestamp = b.timestamp ∧ a.id ≤ b.id)

instance : DecidableRel eventBefore := fun a b => by
  unfold eventBefore
  infer_instance

/-- The newest marker first. -/
def markerBefore (a b : SnapshotMeta) : Prop :=
  b.timestamp < a.timestamp ∨ (a.timestamp = b.timestamp ∧ b.id ≤ a.id)

instance : DecidableRel markerBefore := fun a b => by
  unfold markerBefore
  infer_instance

namespace LoggedStore

/-- `New`. -/
def new : LoggedStore := { MemoryStore.new with }

variable (s : LoggedStore)

/-! ### Writes -/

/-- `AppendEvent`, at the time `now`. -/
def appendEvent (e : ResourceEvent) (now : Time) : LoggedStore :=
  let e := metadataOnlyEvent e
  let e := { e with id := s.eventSeq + 1
                    timestamp := if e.timestamp.IsZero then now else e.timestamp }
  { s with eventSeq := s.eventSeq + 1, events := retained (s.events ++ [e]) }

/-- `AppendSnapshotMeta`, at the time `now`. -/
def appendSnapshotMeta (m : SnapshotMeta) (now : Time) : LoggedStore :=
  let m := { m with id := s.eventSeq + 1
                    timestamp := if m.timestamp.IsZero then now else m.timestamp }
  { s with eventSeq := s.eventSeq + 1, snapshotMeta := retained (s.snapshotMeta ++ [m]) }

/-- `DeleteEventsBefore`, with the number of events it returns. -/
def deleteEventsBefore (cutoff : Time) : LoggedStore × Nat :=
  let kept := s.events.filter fun e => cutoff ≤ e.timestamp
  ({ s with events := kept }, s.events.length - kept.length)

/-! ### Reads -/

/-- `ListEvents`. -/
def listEvents (ns : String) (fromTime toTime : Time) : List ResourceEvent :=
  (s.events.filter fun e =>
    (ns = "" || e.ns = ns) && fromTime ≤ e.timestamp && e.timestamp ≤ toTime).insertionSort
      eventBefore

/-- `ListSnapshotMeta`. -/
def listSnapshotMeta : List SnapshotMeta := s.snapshotMeta.insertionSort markerBefore

/-- `ReadHistoryEvents`. -/
def readHistoryEvents (query : HistoryEventQuery) : Except HistoryError HistoryEventPage := do
  let q ← query.normalize
  let selected := ((s.events.filter fun e =>
    q.selects e.clusterID e.ns e.kind e.timestamp).insertionSort eventBefore).map
      projectHistoryEvent
  let b ← HistoryEventPageBuilder.addAll { query := q, remaining := q.maxBytes } selected
  return b.page

/-- `ReadHistoryBounds`. -/
def readHistoryBounds (clusterID : String) (fromTime toTime : Time) :
    Except HistoryError HistoryBounds := do
  let _ ← HistoryEventQuery.normalize { clusterID := clusterID, fromTime := fromTime
                                        toTime := toTime }
  let out : HistoryBounds := { clusterID := clusterID, fromTime := fromTime, toTime := toTime }
  let out := s.events.foldl
    (fun (out : HistoryBounds) e =>
      if e.clusterID ≠ clusterID || e.kind = "Secret" || e.timestamp < fromTime ||
          toTime < e.timestamp then out
      else
        { out with
          firstEventAt := if out.firstEventAt.IsZero || e.timestamp < out.firstEventAt then
            e.timestamp else out.firstEventAt
          lastEventAt := if out.lastEventAt < e.timestamp then e.timestamp
            else out.lastEventAt }) out
  return s.snapshotMeta.foldl
    (fun (out : HistoryBounds) m =>
      if m.clusterID = clusterID && fromTime ≤ m.timestamp && m.timestamp ≤ toTime &&
          out.latestMarkerAt < m.timestamp then { out with latestMarkerAt := m.timestamp }
      else out) out

/-! ### Histories -/

/-- The writes of the whole store. -/
inductive Op where
  | graph (op : MemoryStore.Op)
  | appendEvent (e : ResourceEvent) (now : Time)
  | appendSnapshotMeta (m : SnapshotMeta) (now : Time)
  | deleteEventsBefore (cutoff : Time)

/-- One write. -/
def step (range : MapOrder) (s : LoggedStore) : Op → LoggedStore
  | .graph op => { s with toMemoryStore := s.toMemoryStore.step range op }
  | .appendEvent e now => s.appendEvent e now
  | .appendSnapshotMeta m now => s.appendSnapshotMeta m now
  | .deleteEventsBefore cutoff => (s.deleteEventsBefore cutoff).1

/-- A history, from the empty store. -/
def run (range : MapOrder) (ops : List Op) : LoggedStore := ops.foldl (step range) new

section Step

variable (range : MapOrder) (s : LoggedStore)

theorem toMemoryStore_appendEvent (e : ResourceEvent) (now : Time) :
    (s.appendEvent e now).toMemoryStore = s.toMemoryStore := by
  unfold appendEvent
  rfl

theorem events_appendEvent (e : ResourceEvent) (now : Time) :
    (s.appendEvent e now).events = retained (s.events ++
      [{ metadataOnlyEvent e with
          id := s.eventSeq + 1
          timestamp := if e.timestamp.IsZero then now else e.timestamp }]) := by
  unfold appendEvent
  dsimp only [metadataOnlyEvent]

theorem toMemoryStore_appendSnapshotMeta (m : SnapshotMeta) (now : Time) :
    (s.appendSnapshotMeta m now).toMemoryStore = s.toMemoryStore := by
  unfold appendSnapshotMeta
  rfl

theorem events_appendSnapshotMeta (m : SnapshotMeta) (now : Time) :
    (s.appendSnapshotMeta m now).events = s.events := by
  unfold appendSnapshotMeta
  rfl

/-- The history is kept apart from the graph. -/
theorem toMemoryStore_step (op : Op) :
    (s.step range op).toMemoryStore
      = match op with
        | .graph op => s.toMemoryStore.step range op
        | _ => s.toMemoryStore := by
  cases op with
  | graph op => rfl
  | appendEvent e now => exact s.toMemoryStore_appendEvent e now
  | appendSnapshotMeta m now => exact s.toMemoryStore_appendSnapshotMeta m now
  | deleteEventsBefore cutoff => rfl

end Step

/-- The reads of the whole store. -/
inductive Read where
  | getResource (id : String)
  | listResources (filter : Filter)
  | listResourcesInCluster (clusterID : String) (filter : Filter)
  | listEdges (id : String) (dir : Direction)
  | listEdgesAcrossClusters (clusterIDs : List String)
  | snapshot (includeRaw : Bool)
  | snapshotImpact (opts : ImpactSnapshotOptions)
  | listReachable (startID : String) (opts : TraverseOptions)
  | countKindsByNamespace (labels : StringMap)
  | countCrossNamespaceEdges (labels : StringMap)
  | getNamespaceSubgraph (ns : String) (labels : StringMap)
  | listLabelStats
  | search (q : SearchQuery)
  | listEvents (ns : String) (fromTime toTime : Time)
  | listSnapshotMeta
  | readHistoryEvents (query : HistoryEventQuery)
  | readHistoryBounds (clusterID : String) (fromTime toTime : Time)

/-- What a read returns. -/
abbrev Read.Result : Read → Type
  | .getResource _ => Except StoreError Resource
  | .listResources _ | .listResourcesInCluster _ _ => List Resource
  | .listEdges _ _ => Except StoreError (List Edge)
  | .listEdgesAcrossClusters _ => List Edge
  | .snapshot _ | .getNamespaceSubgraph _ _ => Graph
  | .snapshotImpact _ => Except SnapshotError Graph
  | .listReachable _ _ => Except StoreError (List Resource)
  | .countKindsByNamespace _ => NestedMap String String Nat
  | .countCrossNamespaceEdges _ => GoMap NamespacePair Nat
  | .listLabelStats => List LabelStat
  | .search _ => SearchResult
  | .listEvents _ _ _ => List ResourceEvent
  | .listSnapshotMeta => List SnapshotMeta
  | .readHistoryEvents _ => Except HistoryError HistoryEventPage
  | .readHistoryBounds _ _ _ => Except HistoryError HistoryBounds

/-- The answer to a read. -/
def answer (range : MapOrder) (fold : Folding) (s : LoggedStore) : (read : Read) → read.Result
  | .getResource id => s.getResource id
  | .listResources filter => s.listResources range filter
  | .listResourcesInCluster clusterID filter => s.listResourcesInCluster range clusterID filter
  | .listEdges id dir => MemoryStore.listEdges range s.toMemoryStore id dir
  | .listEdgesAcrossClusters clusterIDs => s.listEdgesAcrossClusters range clusterIDs
  | .snapshot includeRaw => MemoryStore.snapshot range s.toMemoryStore includeRaw
  | .snapshotImpact opts => MemoryStore.snapshotImpact range s.toMemoryStore opts
  | .listReachable startID opts => MemoryStore.listReachable range s.toMemoryStore startID opts
  | .countKindsByNamespace labels => s.countKindsByNamespace range labels
  | .countCrossNamespaceEdges labels => s.countCrossNamespaceEdges range labels
  | .getNamespaceSubgraph ns labels => s.getNamespaceSubgraph range ns labels
  | .listLabelStats => s.listLabelStats range
  | .search q => s.search range fold q
  | .listEvents ns fromTime toTime => s.listEvents ns fromTime toTime
  | .listSnapshotMeta => s.listSnapshotMeta
  | .readHistoryEvents query => s.readHistoryEvents query
  | .readHistoryBounds clusterID fromTime toTime => s.readHistoryBounds clusterID fromTime toTime

end LoggedStore

end KubeAtlas.Store
