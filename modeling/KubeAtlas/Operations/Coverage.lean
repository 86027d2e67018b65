import KubeAtlas.Lib.Objects
import KubeAtlas.Operations.Evidence

/-!
# `KubeAtlas.Operations.Coverage`: the coverage tracker

`pkg/operations/observation_coverage.go`, `coverage_sources.go`,
`source_discovery.go` and `api_inventory.go`. Collectors register
the types they watch and report what happens to their lists and
watches; the tracker keeps one row for each type and turns the rows
into snapshots.

Sessions and rows are shared by pointer. The token of a type holds
the row that its source session holds, until the type is registered
again and the session points at a new row. So sessions, rows and
inventories are objects in lists, and a pointer is a position. A
position with no object stands for a nil pointer.

Each operation runs under the tracker's mutex from start to end,
which is why a run is a list of operations. Cancellation and the
wait for the lock are left out.
-/

set_option autoImplicit false

namespace KubeAtlas.Operations

open Lib

/-- `ErrCoverageScope`, the tracker's only error. -/
inductive CoverageError where
  | scope
  deriving DecidableEq, Repr

def CoverageError.message : CoverageError → String
  | .scope => "coverage: invalid or excessive observation scope"

def maxCoverageClusters : Nat := 128
def maxCoverageTypes : Nat := 256

/-- `DefaultStaleAfter`, two minutes. -/
def defaultStaleAfter : Duration := 120 * 10 ^ 9

/-! ### Rows -/

/-- `coverageResource`. -/
structure CoverageResource extends ResourceCoverage where
  listReason : CoverageReason := .unset
  watchReason : CoverageReason := .unset
  watchEpoch : UInt64 := 0
  stopped : Bool := false
  deriving DecidableEq, Repr

namespace CoverageResource

/-- The row of a new registration. Data gaps survive from the row it
replaces. -/
def fresh (gvr : GroupVersionResource) (now : Time) (revision : UInt64)
    (old : Option CoverageResource) : CoverageResource where
  continuityRevision := revision
  group := gvr.group
  version := gvr.version
  resource := gvr.resource
  since := now
  watchReason := .watchPending
  processingGapSince := (old.map fun r => r.processingGapSince).getD 0
  extractionGapSince := (old.map fun r => r.extractionGapSince).getD 0
  persistenceGapSince := (old.map fun r => r.persistenceGapSince).getD 0

/-- `if at.IsZero() { at = now }`. -/
def setOnce (stamp now : Time) : Time := if stamp.IsZero then now else stamp

/-- What `begin` keeps of a row that is not registered again. -/
def carry (now : Time) (r : CoverageResource) : CoverageResource :=
  { r with stopped := true, watchEstablished := false
           watchGapSince := setOnce r.watchGapSince now }

/-- The closure of `InitialDeliveryComplete`. -/
def deliver (r : CoverageResource) : CoverageResource :=
  if r.initialDeliveryDone then r
  else { r with continuityRevision := r.continuityRevision + 1, initialDeliveryDone := true }

/-- The closure of `ListResult`. -/
def listed (success denied : Bool) (now : Time) (r : CoverageResource) : CoverageResource :=
  let r := { r with continuityRevision := r.continuityRevision + 1 }
  if success then { r with lastListSuccess := now, listReason := .unset }
  else if denied then { r with listReason := .listDenied }
  else { r with listReason := .listFailed }

/-- The closure of `WatchStarted`. -/
def watching (r : CoverageResource) : CoverageResource :=
  { r with continuityRevision := r.continuityRevision + 1
           watchEpoch := r.watchEpoch + 1
           watchEstablished := true, watchReason := .unset, watchGapSince := 0 }

/-- The reason that `WatchEnded` works with. -/
def endReason (reason : CoverageReason) : CoverageReason :=
  if reason ≠ .watchClosed && reason ≠ .watchDenied && reason ≠ .watchFailed then .watchFailed
  else reason

/-- The closure of `WatchEnded`. A stream only ends the watch it
belongs to; epoch zero ends any. A final close does not hide the
error before it. -/
def watchOver (epoch : UInt64) (reason : CoverageReason) (now : Time) (r : CoverageResource) :
    CoverageResource :=
  if epoch ≠ 0 && r.watchEpoch ≠ epoch then r
  else
    { r with
      continuityRevision := r.continuityRevision + 1
      watchEstablished := false
      watchGapSince := setOnce r.watchGapSince now
      watchReason :=
        if reason ≠ .watchClosed || r.watchReason = .unset || r.watchReason = .watchPending then
          reason
        else r.watchReason }

/-- The closure of `RecordGap`. Only the first gap of its kind is
recorded. -/
def gapped (reason : CoverageReason) (now : Time) (r : CoverageResource) : CoverageResource :=
  match reason with
  | .extractionFailed =>
    if r.extractionGapSince.IsZero then
      { r with continuityRevision := r.continuityRevision + 1, extractionGapSince := now }
    else r
  | .persistenceFailed =>
    if r.persistenceGapSince.IsZero then
      { r with continuityRevision := r.continuityRevision + 1, persistenceGapSince := now }
    else r
  | _ =>
    if r.processingGapSince.IsZero then
      { r with continuityRevision := r.continuityRevision + 1, processingGapSince := now }
    else r

/-- The body of the loop in `Stop`. -/
def halted (now : Time) (r : CoverageResource) : CoverageResource :=
  { r with continuityRevision := r.continuityRevision + 1
           stopped := true, watchEstablished := false
           watchGapSince := setOnce r.watchGapSince now }

/-- The reasons of a snapshot, in the order they are appended. -/
def snapshotReasons (r : CoverageResource) : List CoverageReason :=
  (if r.initialDeliveryDone then [] else [.initialPending]) ++
  (if r.listReason ≠ .unset then [r.listReason] else []) ++
  (if r.stopped then [.collectorStopped]
    else if r.watchEstablished then [] else [r.watchReason]) ++
  (if r.processingGapSince.IsZero then [] else [.processingFailed]) ++
  (if r.extractionGapSince.IsZero then [] else [.extractionFailed]) ++
  (if r.persistenceGapSince.IsZero then [] else [.persistenceFailed])

/-- The state before data gaps and staleness are looked at. -/
def watchState (r : CoverageResource) : CoverageState :=
  let state : CoverageState := if r.initialDeliveryDone then .observed else .initializing
  let state := if r.listReason ≠ .unset then .partially else state
  if r.stopped then .partially
  else if r.watchEstablished then state
  else
    let state := if r.watchReason ≠ .watchPending then .partially else state
    if state = .observed then .initializing else state

/-- The state of a snapshot. -/
def snapshotState (r : CoverageResource) (now : Time) (staleAfter : Duration) : CoverageState :=
  let state :=
    if r.processingGapSince.IsZero && r.extractionGapSince.IsZero &&
        r.persistenceGapSince.IsZero then r.watchState
    else .partially
  if !decide r.watchGapSince.IsZero && staleAfter ≤ now.sub r.watchGapSince then .stale
  else state

/-- `coverageResource.snapshot`. -/
def snapshot (r : CoverageResource) (now : Time) (staleAfter : Duration) : ResourceCoverage :=
  { r.toResourceCoverage with state := r.snapshotState now staleAfter
                              reasons := r.snapshotReasons }

end CoverageResource

/-! ### Sessions and the tracker -/

/-- A pointer to a session, a row or an inventory session. -/
abbrev SessionRef := Nat
abbrev RowRef := Nat
abbrev InventoryRef := Nat

/-- `CoverageSession`. A session with a parent is the token of one
type. -/
structure CoverageSession where
  generation : UInt64 := 0
  cluster : String
  resources : GoMap GroupVersionResource RowRef
  source : CoverageSource
  parent : Option SessionRef := none
  stopped : Bool := false
  limited : Bool := false
  discovery : Option SourceDiscoveryEvidence := none

/-- `CoverageTracker`, with the objects it points at. -/
structure CoverageTracker where
  staleAfter : Duration
  sessions : List CoverageSession := []
  rows : List CoverageResource := []
  inventorySessions : List APIInventoryEvidence := []
  clusters : GoMap String SessionRef := ∅
  sources : NestedMap String CoverageSource SessionRef := ∅
  inventories : GoMap String InventoryRef := ∅
  nextGeneration : UInt64 := 0

/-- `validCoverageScope`. -/
def validCoverageScope (cluster : String) (gvrs : List GroupVersionResource) : Bool :=
  Strings.len cluster ≤ 253 && !Strings.containsAny cluster ['/', ':'] &&
    gvrs.length ≤ maxCoverageTypes &&
    gvrs.all fun g =>
      g.version ≠ "" && g.resource ≠ "" &&
        Strings.len g.group + Strings.len g.version + Strings.len g.resource ≤ 768 &&
        !Strings.containsAny (g.group ++ g.version ++ g.resource) ['/', ':', '\x00']

namespace CoverageTracker

/-- `NewCoverageTracker`. -/
def new (staleAfter : Duration) : CoverageTracker :=
  { staleAfter := if staleAfter ≤ 0 then defaultStaleAfter else staleAfter }

variable (t : CoverageTracker)

/-- `sessionLocked`. -/
def sessionLocked (cluster : String) (source : CoverageSource) : Option SessionRef :=
  if source = .core then t.clusters.lookup cluster else t.sources.get? cluster source

/-- `hasClusterLocked`. -/
def hasClusterLocked (cluster : String) : Bool :=
  (t.clusters.lookup cluster).isSome || (AList.lookup cluster t.sources).isSome ||
    (t.inventories.lookup cluster).isSome

/-- `clusterCountLocked`. -/
def clusterCountLocked : Nat :=
  (AList.keys t.clusters).length +
    ((AList.keys t.sources).filter fun c => (t.clusters.lookup c).isNone).length +
    ((AList.keys t.inventories).filter fun c =>
      (t.clusters.lookup c).isNone && (AList.lookup c t.sources).isNone).length

/-- There is no room for one more cluster. -/
def full (cluster : String) : Bool :=
  !t.hasClusterLocked cluster && maxCoverageClusters ≤ t.clusterCountLocked

/-- `activeLocked`, for the session `s` at `ref`. -/
def activeLocked (ref : SessionRef) (s : CoverageSession) : Bool :=
  let owner := s.parent.getD ref
  !s.stopped && !t.sessions[owner]?.any (fun o => o.stopped) &&
    t.sessionLocked s.cluster s.source = some owner

/-- `ownsTypeLocked`. -/
def ownsTypeLocked (s : CoverageSession) (gvr : GroupVersionResource) (row : RowRef) : Bool :=
  match s.parent with
  | none => true
  | some parent => t.sessions[parent]?.any fun p => p.resources.lookup gvr = some row

/-! ### Registering -/

/-- `begin`. Nothing is kept when it fails. -/
def begin (cluster : String) (source : CoverageSource) (gvrs : List GroupVersionResource)
    (now : Time) : CoverageTracker × Except CoverageError SessionRef :=
  if !validCoverageScope cluster gvrs || now.IsZero then (t, .error .scope)
  else if t.full cluster then (t, .error .scope)
  else
    let previous := (t.sessionLocked cluster source).bind fun ref => t.sessions[ref]?
    let old := (previous.map fun s => s.resources.deref t.rows).getD ∅
    let rows := gvrs.foldl
      (fun acc gvr => acc.insert gvr (.fresh gvr now 0 (old.lookup gvr)))
      (old.mapValues (CoverageResource.carry now))
    if rows.size > maxCoverageTypes then (t, .error .scope)
    else
      let rows := rows.mapValues fun r => { r with continuityRevision := 1 }
      let session : CoverageSession :=
        { generation := t.nextGeneration + 1, cluster := cluster, source := source
          resources := rows.addresses t.rows.length
          limited := previous.any fun s => s.limited }
      let ref := t.sessions.length
      ({ t with
        nextGeneration := t.nextGeneration + 1
        rows := t.rows ++ rows.stored
        sessions := t.sessions ++ [session]
        clusters := if source = .core then t.clusters.insert cluster ref else t.clusters
        sources := if source = .core then t.sources else t.sources.put cluster source ref },
      .ok ref)

/-- `Begin`. -/
def beginCore (cluster : String) (gvrs : List GroupVersionResource) (now : Time) :
    CoverageTracker × Except CoverageError SessionRef :=
  t.begin cluster .core gvrs now

/-- `BeginSource`. -/
def beginSource (cluster : String) (source : CoverageSource) (now : Time) :
    CoverageTracker × Except CoverageError SessionRef :=
  if source ≠ .crd && source ≠ .gatekeeper then (t, .error .scope)
  else t.begin cluster source [] now

/-- `BeginType`. Running out of room is remembered in the session. -/
def beginType (ref : SessionRef) (gvr : GroupVersionResource) (now : Time) :
    CoverageTracker × Except CoverageError SessionRef :=
  match t.sessions[ref]? with
  | none => (t, .error .scope)
  | some s =>
    if s.source = .core || s.parent.isSome || !validCoverageScope s.cluster [gvr] ||
        now.IsZero || (gvr.group = "" && gvr.resource = "secrets") then (t, .error .scope)
    else if !t.activeLocked ref s then (t, .error .scope)
    else
      let old := (s.resources.lookup gvr).bind fun row => t.rows[row]?
      if old.any fun r => !r.stopped then (t, .error .scope)
      else if old.isNone && maxCoverageTypes ≤ s.resources.size then
        ({ t with sessions := t.sessions.modify ref fun s => { s with limited := true } },
          .error .scope)
      else
        let revision := (old.map fun r => r.continuityRevision).getD 0 + 1
        let row := t.rows.length
        let token : CoverageSession :=
          { cluster := s.cluster, source := s.source, parent := some ref
            resources := AList.singleton gvr row }
        ({ t with
          rows := t.rows ++ [.fresh gvr now revision old]
          sessions := (t.sessions.modify ref fun s =>
            { s with resources := s.resources.insert gvr row }) ++ [token] },
          .ok t.sessions.length)

/-! ### Callbacks -/

/-- The row that a callback of the session `ref` may change: the
guards of `update`. -/
def target (ref : SessionRef) (gvr : GroupVersionResource) : Option RowRef :=
  match t.sessions[ref]? with
  | none => none
  | some s =>
    if t.activeLocked ref s then
      match s.resources.lookup gvr with
      | none => none
      | some row =>
        if t.rows[row]?.any (fun r => !r.stopped) && t.ownsTypeLocked s gvr row then some row
        else none
    else none

/-- `update`. -/
def update (ref : SessionRef) (gvr : GroupVersionResource)
    (apply : CoverageResource → CoverageResource) : CoverageTracker :=
  match t.target ref gvr with
  | none => t
  | some row => { t with rows := t.rows.modify row apply }

/-- `InitialDeliveryComplete`. -/
def initialDeliveryComplete (ref : SessionRef) (gvr : GroupVersionResource) : CoverageTracker :=
  t.update ref gvr .deliver

/-- `ListResult`. -/
def listResult (ref : SessionRef) (gvr : GroupVersionResource) (success denied : Bool)
    (now : Time) : CoverageTracker :=
  t.update ref gvr (.listed success denied now)

/-- `WatchStarted`, with the epoch it returns: zero if no row was
changed. -/
def watchStarted (ref : SessionRef) (gvr : GroupVersionResource) : CoverageTracker × UInt64 :=
  (t.update ref gvr .watching,
    (((t.target ref gvr).bind fun row => t.rows[row]?).map fun r => r.watchEpoch + 1).getD 0)

/-- `WatchEnded`. -/
def watchEnded (ref : SessionRef) (gvr : GroupVersionResource) (epoch : UInt64)
    (reason : CoverageReason) (now : Time) : CoverageTracker :=
  t.update ref gvr (.watchOver epoch (CoverageResource.endReason reason) now)

/-- `RecordGap`. -/
def recordGap (ref : SessionRef) (gvr : GroupVersionResource) (reason : CoverageReason)
    (now : Time) : CoverageTracker :=
  t.update ref gvr (.gapped reason now)

/-- `Stop`. A row that has stopped before is left alone. -/
def stop (ref : SessionRef) (now : Time) : CoverageTracker :=
  match t.sessions[ref]? with
  | none => t
  | some s =>
    if !t.activeLocked ref s then t
    else
      { t with
        rows := s.resources.entries.foldl
          (fun rows e =>
            if t.ownsTypeLocked s e.1 e.2 then
              rows.modify e.2 fun r => if r.stopped then r else r.halted now
            else rows) t.rows
        sessions := t.sessions.modify ref fun s => { s with stopped := true } }

/-- `RecordDiscovery`. -/
def recordDiscovery (ref : SessionRef) (state : SourceDiscoveryState) (checked : Time) :
    CoverageTracker × Except CoverageError Unit :=
  match t.sessions[ref]? with
  | none => (t, .ok ())
  | some s =>
    if s.parent.isSome || s.source ≠ .gatekeeper || !validSourceDiscoveryState state ||
        (state = .unknown) ≠ checked.IsZero then (t, .error .scope)
    else if !t.activeLocked ref s then (t, .ok ())
    else
      let revision := (s.discovery.map fun d => d.revision).getD 0 + 1
      ({ t with sessions := t.sessions.modify ref fun s =>
          { s with discovery := some ⟨state, checked, revision, false⟩ } }, .ok ())

/-! ### The API inventory -/

/-- `BeginAPIInventory`. -/
def beginAPIInventory (cluster : String) : CoverageTracker × Except CoverageError InventoryRef :=
  if !validCoverageScope cluster [] then (t, .error .scope)
  else if t.full cluster then (t, .error .scope)
  else
    let ref := t.inventorySessions.length
    ({ t with
      nextGeneration := t.nextGeneration + 1
      inventorySessions := t.inventorySessions ++
        [{ clusterID := cluster, generation := t.nextGeneration + 1 }]
      inventories := t.inventories.insert cluster ref }, .ok ref)

/-- The arguments that `Record` accepts, and the list it keeps. -/
def recordable (ext : Externals) (state : APIInventoryState)
    (resources : List APIResourceDescriptor) (limited : Bool) (checked : Time) :
    Option (List APIResourceDescriptor) :=
  if !validAPIInventoryState state || checked.IsZero || state = .unknown ||
      resources.length > maxInventoryResources || (state = .complete && limited) ||
      ((state = .denied || state = .failed) && !resources.isEmpty) then none
  else
    let owned := sortDescriptors ext resources
    -- the loop looks at each descriptor and at the one before it
    if owned.all (validAPIResourceDescriptor ext) &&
        decide (owned.IsChain fun a b => a.gvr ≠ b.gvr) &&
        (owned.map APIResourceDescriptor.groupVersion).dedup.length ≤ maxInventoryGroupVersions then
      some owned
    else none

/-- `Record`. -/
def recordInventory (ext : Externals) (ref : InventoryRef) (state : APIInventoryState)
    (resources : List APIResourceDescriptor) (limited : Bool) (checked : Time) :
    CoverageTracker × Except CoverageError Unit :=
  match t.inventorySessions[ref]? with
  | none => (t, .ok ())
  | some e =>
    match recordable ext state resources limited checked with
    | none => (t, .error .scope)
    | some owned =>
      if e.stopped || t.inventories.lookup e.clusterID ≠ some ref then (t, .ok ())
      else
        ({ t with inventorySessions := t.inventorySessions.modify ref fun e =>
            { e with state := state, checkedAt := checked, limited := limited
                     resources := owned, revision := e.revision + 1 } }, .ok ())

/-- `Stop` of an inventory session. -/
def stopInventory (ref : InventoryRef) : CoverageTracker :=
  match t.inventorySessions[ref]? with
  | none => t
  | some e =>
    if t.inventories.lookup e.clusterID = some ref then
      { t with inventorySessions := t.inventorySessions.modify ref fun e =>
          { e with stopped := true } }
    else t

/-! ### Snapshots -/

/-- `snapshotSourceLocked`. -/
def snapshotSource (range : MapOrder) (s : CoverageSession) (now : Time) :
    CoverageSourceSnapshot :=
  let rows := (GoMap.values range (s.resources.deref t.rows)).map fun r =>
    r.snapshot now t.staleAfter
  let state := if rows.isEmpty then .unknown else worstState rows
  let state :=
    if (s.limited || s.stopped) && coverageRank state < coverageRank .partially then .partially
    else state
  let discovery := s.discovery.map fun d =>
    { d with stale := checkStale d.checkedAt now sourceDiscoveryMaxAge }
  let state :=
    if (discovery.any fun d => d.state ≠ .advertised || d.stale) &&
        coverageRank state < coverageRank .partially then .partially
    else state
  { clusterID := s.cluster, source := s.source, generation := s.generation, state := state
    inventoryLimited := s.limited, resources := sortRows rows, discovery := discovery }

/-- The row of a required type: the tracked one, or an unknown one. -/
def requiredRow (session : Option CoverageSession) (now : Time) (gvr : GroupVersionResource) :
    ResourceCoverage :=
  match session.bind fun s => (s.resources.lookup gvr).bind fun row => t.rows[row]? with
  | some r => r.snapshot now t.staleAfter
  | none =>
    { group := gvr.group, version := gvr.version, resource := gvr.resource
      state := .unknown, reasons := [.notWatched] }

/-- The overall state of the required rows. -/
def overallState (rows : List ResourceCoverage) : CoverageState :=
  if rows.isEmpty then .unknown
  else
    let state := worstState rows
    if state = .unknown && (rows.filter fun r => r.state = .unknown).length < rows.length then
      .partially
    else state

/-- `snapshot`, at the time `now` that the clock shows under the
lock. -/
def snapshot (range : MapOrder) (cluster : String) (required : List GroupVersionResource)
    (now : Time) : Except CoverageError CoverageSnapshot :=
  if !validCoverageScope cluster required then .error .scope
  else if now.IsZero then .error .scope
  else
    let session := (t.clusters.lookup cluster).bind fun ref => t.sessions[ref]?
    let inventory := ((t.inventories.lookup cluster).bind fun ref =>
      t.inventorySessions[ref]?).map fun e =>
        { e with stale := checkStale e.checkedAt now apiInventoryMaxAge }
    let sources := [CoverageSource.crd, CoverageSource.gatekeeper].filterMap fun source =>
      ((t.sessionLocked cluster source).bind fun ref => t.sessions[ref]?).map fun s =>
        t.snapshotSource range s now
    -- a type that is required twice has one row, and sorting forgets the order
    let rows := sortRows (required.dedup.map (t.requiredRow session now))
    .ok { generation := (session.map fun s => s.generation).getD 0
          clusterID := cluster, capturedAt := now, state := overallState rows
          resources := rows, sources := sources, apiInventory := inventory }

/-! ### Runs -/

/-- The public operations that change a tracker. -/
inductive Op where
  | begin (cluster : String) (gvrs : List GroupVersionResource) (now : Time)
  | beginSource (cluster : String) (source : CoverageSource) (now : Time)
  | beginType (ref : SessionRef) (gvr : GroupVersionResource) (now : Time)
  | initialDeliveryComplete (ref : SessionRef) (gvr : GroupVersionResource)
  | listResult (ref : SessionRef) (gvr : GroupVersionResource) (success denied : Bool)
      (now : Time)
  | watchStarted (ref : SessionRef) (gvr : GroupVersionResource)
  | watchEnded (ref : SessionRef) (gvr : GroupVersionResource) (epoch : UInt64)
      (reason : CoverageReason) (now : Time)
  | recordGap (ref : SessionRef) (gvr : GroupVersionResource) (reason : CoverageReason)
      (now : Time)
  | stop (ref : SessionRef) (now : Time)
  | recordDiscovery (ref : SessionRef) (state : SourceDiscoveryState) (checked : Time)
  | beginAPIInventory (cluster : String)
  | recordInventory (ref : InventoryRef) (state : APIInventoryState)
      (resources : List APIResourceDescriptor) (limited : Bool) (checked : Time)
  | stopInventory (ref : InventoryRef)

/-- One operation. Its answer goes to the caller, who may use it in
later ones. -/
def step (ext : Externals) : Op → CoverageTracker
  | .begin cluster gvrs now => (t.beginCore cluster gvrs now).1
  | .beginSource cluster source now => (t.beginSource cluster source now).1
  | .beginType ref gvr now => (t.beginType ref gvr now).1
  | .initialDeliveryComplete ref gvr => t.initialDeliveryComplete ref gvr
  | .listResult ref gvr success denied now => t.listResult ref gvr success denied now
  | .watchStarted ref gvr => (t.watchStarted ref gvr).1
  | .watchEnded ref gvr epoch reason now => t.watchEnded ref gvr epoch reason now
  | .recordGap ref gvr reason now => t.recordGap ref gvr reason now
  | .stop ref now => t.stop ref now
  | .recordDiscovery ref state checked => (t.recordDiscovery ref state checked).1
  | .beginAPIInventory cluster => (t.beginAPIInventory cluster).1
  | .recordInventory ref state resources limited checked =>
    (t.recordInventory ext ref state resources limited checked).1
  | .stopInventory ref => t.stopInventory ref

/-- A run from a new tracker. -/
def run (ext : Externals) (staleAfter : Duration) (ops : List Op) : CoverageTracker :=
  ops.foldl (fun t op => t.step ext op) (new staleAfter)

end CoverageTracker

end KubeAtlas.Operations
