import KubeAtlas.Store.History

/-!
# `KubeAtlas.Analysis.SnapshotDiff`: changes in a window of the history

`pkg/graph/analysis/snapshot_diff.go`. The events of the window are
grouped by resource, in the order in which the store lists them. The
last event of a group decides whether the resource still exists, and
the first one whether it existed before.

The order of entries with the same namespace, kind and name is
left open by the source; it is the order of the groups here.
-/

set_option autoImplicit false

namespace KubeAtlas.Analysis

open Operations (Time)
open Store

/-- `DiffEntry`. -/
structure DiffEntry where
  ns : String
  kind : String
  name : String
  uid : String
  eventType : EventType
  timestamp : Time
  deriving DecidableEq, Repr

/-- `DiffResult`. -/
structure DiffResult where
  fromTime : Time
  toTime : Time
  added : List DiffEntry := []
  removed : List DiffEntry := []
  modified : List DiffEntry := []

/-- The events of one resource, which are never none. -/
structure DiffGroup where
  key : String
  first : ResourceEvent
  later : List ResourceEvent := []

/-- The latest event of a group. -/
def DiffGroup.last (g : DiffGroup) : ResourceEvent := g.later.getLast?.getD g.first

/-- What identifies the resource of an event. -/
def diffKey (e : ResourceEvent) : String :=
  if e.uid = "" then e.ns ++ "/" ++ e.kind ++ "/" ++ e.name else e.uid

/-- The loop that groups the events. -/
def addToGroup : List DiffGroup → ResourceEvent → List DiffGroup
  | [], e => [{ key := diffKey e, first := e }]
  | g :: groups, e =>
    if g.key = diffKey e then { g with later := g.later ++ [e] } :: groups
    else g :: addToGroup groups e

/-- The groups, in the order of their first events. -/
def diffGroups (events : List ResourceEvent) : List DiffGroup := events.foldl addToGroup []

/-- `diffEntryOf`. -/
def diffEntryOf (e : ResourceEvent) : DiffEntry :=
  { ns := e.ns, kind := e.kind, name := e.name, uid := e.uid, eventType := e.eventType
    timestamp := e.timestamp }

/-- One round of the loop that classifies the resources. -/
def classify (res : DiffResult) (g : DiffGroup) : DiffResult :=
  let entry := diffEntryOf g.last
  if g.last.eventType = .delete then { res with removed := res.removed ++ [entry] }
  else if g.first.eventType = .add then { res with added := res.added ++ [entry] }
  else { res with modified := res.modified ++ [entry] }

/-- The order of `sortDiffEntries`. -/
def entryBefore (a b : DiffEntry) : Prop :=
  a.ns < b.ns ∨ (a.ns = b.ns ∧ (a.kind < b.kind ∨ (a.kind = b.kind ∧ a.name ≤ b.name)))

instance : DecidableRel entryBefore := fun a b => by
  unfold entryBefore
  infer_instance

/-- `sortDiffEntries`. -/
def sortDiffEntries (es : List DiffEntry) : List DiffEntry := es.insertionSort entryBefore

/-- `DiffWindow`. -/
def diffWindow (store : LoggedStore) (fromTime toTime : Time) (ns : String) : DiffResult :=
  let events := store.listEvents ns fromTime toTime
  let res := (diffGroups events).foldl classify { fromTime := fromTime, toTime := toTime }
  { res with
    added := sortDiffEntries res.added
    removed := sortDiffEntries res.removed
    modified := sortDiffEntries res.modified }

end KubeAtlas.Analysis
