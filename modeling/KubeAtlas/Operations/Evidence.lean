import KubeAtlas.Lib.Strings
import Mathlib.Algebra.Group.Int.Defs
import Mathlib.Data.List.Sort

/-!
# `KubeAtlas.Operations.Evidence`: coverage evidence

The records of `pkg/operations` that describe what a collector has
observed. They are produced by the coverage tracker and validated by
the impact analysis.

A time is a number of nanoseconds since Go's zero time, so that
`IsZero` is equality with `0`. `Time.sub` saturates like
`time.Time.Sub`.
-/

set_option autoImplicit false

namespace KubeAtlas.Operations

open Lib

/-- `time.Time`. -/
abbrev Time := Int

/-- `time.Duration`, in nanoseconds. -/
abbrev Duration := Int

/-- `t.IsZero()`. -/
abbrev Time.IsZero (t : Time) : Prop := t = 0

/-- `t.Sub(u)`: the difference, clamped to what fits into 64 bits. -/
def Time.sub (t u : Time) : Duration :=
  max (-2 ^ 63) (min (2 ^ 63 - 1) (t - u))

/-- `schema.GroupVersionResource`. -/
structure GroupVersionResource where
  group : String := ""
  version : String
  resource : String
  deriving DecidableEq, Repr

/-- `CoverageState`. The source keeps a text, and a provider can
send any text. -/
inductive CoverageState where
  | unknown
  | initializing
  | observed
  | partially
  | stale
  | other (text : String)
  deriving DecidableEq, Repr

/-- `CoverageReason`. The source keeps a text, and a caller can pass
any text. -/
inductive CoverageReason where
  | notWatched
  | initialPending
  | listFailed
  | listDenied
  | watchPending
  | watchClosed
  | watchFailed
  | watchDenied
  | collectorStopped
  | processingFailed
  | extractionFailed
  | persistenceFailed
  | other (text : String)
  deriving DecidableEq, Repr

/-- The empty reason text. -/
def CoverageReason.unset : CoverageReason := .other ""

/-- `ResourceCoverage`: one row of a snapshot, and the public part
of a tracked row. -/
structure ResourceCoverage where
  continuityRevision : UInt64 := 0
  group : String
  version : String
  resource : String
  state : CoverageState := .other ""
  reasons : List CoverageReason := []
  since : Time := 0
  initialDeliveryDone : Bool := false
  watchEstablished : Bool := false
  lastListSuccess : Time := 0
  watchGapSince : Time := 0
  processingGapSince : Time := 0
  extractionGapSince : Time := 0
  persistenceGapSince : Time := 0
  deriving DecidableEq, Repr

/-- The type a row is about. -/
def ResourceCoverage.gvr (r : ResourceCoverage) : GroupVersionResource :=
  ⟨r.group, r.version, r.resource⟩

/-- The text by which rows are sorted. -/
def ResourceCoverage.sortKey (r : ResourceCoverage) : String :=
  r.group ++ "/" ++ r.version ++ "/" ++ r.resource

/-- `slices.SortFunc` on rows. -/
def sortRows (rows : List ResourceCoverage) : List ResourceCoverage :=
  rows.insertionSort fun a b => a.sortKey ≤ b.sortKey

/-- `coverageRank`. -/
def coverageRank : CoverageState → Nat
  | .stale => 4
  | .partially => 3
  | .initializing => 2
  | .unknown => 1
  | _ => 0

/-- The loop that keeps the state of the highest rank. -/
def worstState (rows : List ResourceCoverage) : CoverageState :=
  rows.foldl (fun state row =>
    if coverageRank row.state > coverageRank state then row.state else state) .observed

/-! ### Sources -/

/-- `CoverageSource`. The core collector has the empty source. -/
inductive CoverageSource where
  | core
  | crd
  | gatekeeper
  | other (text : String)
  deriving DecidableEq, Repr

def CoverageSource.text : CoverageSource → String
  | .core => ""
  | .crd => "crd"
  | .gatekeeper => "gatekeeper"
  | .other text => text

/-- `SourceDiscoveryState`. -/
inductive SourceDiscoveryState where
  | unknown
  | advertised
  | notAdvertised
  | denied
  | failed
  | other (text : String)
  deriving DecidableEq, Repr

def SourceDiscoveryState.text : SourceDiscoveryState → String
  | .unknown => "unknown"
  | .advertised => "advertised"
  | .notAdvertised => "not_advertised"
  | .denied => "permission_denied"
  | .failed => "failed"
  | .other text => text

/-- `ValidSourceDiscoveryState`. -/
def validSourceDiscoveryState : SourceDiscoveryState → Bool
  | .other _ => false
  | _ => true

/-- `SourceDiscoveryMaxAge`, ten minutes. -/
def sourceDiscoveryMaxAge : Duration := 600 * 10 ^ 9

/-- `SourceDiscoveryEvidence`. -/
structure SourceDiscoveryEvidence where
  state : SourceDiscoveryState
  checkedAt : Time
  revision : UInt64
  stale : Bool := false
  deriving DecidableEq, Repr

/-- A check that is too old to count. -/
def checkStale (checkedAt now : Time) (maxAge : Duration) : Bool :=
  !decide checkedAt.IsZero && decide (maxAge ≤ now.sub checkedAt)

/-- `CoverageSourceSnapshot`. -/
structure CoverageSourceSnapshot where
  clusterID : String
  source : CoverageSource
  generation : UInt64
  state : CoverageState
  inventoryLimited : Bool
  resources : List ResourceCoverage
  discovery : Option SourceDiscoveryEvidence := none
  deriving DecidableEq, Repr

/-! ### The API inventory -/

/-- `APIInventoryState`. -/
inductive APIInventoryState where
  | unknown
  | complete
  | partially
  | denied
  | failed
  | other (text : String)
  deriving DecidableEq, Repr

/-- `ValidAPIInventoryState`. -/
def validAPIInventoryState : APIInventoryState → Bool
  | .other _ => false
  | _ => true

/-- `APIResourceDescriptor`. -/
structure APIResourceDescriptor where
  group : String
  version : String
  resource : String
  kind : String
  namespaced : Bool
  list : Bool
  watch : Bool
  deriving DecidableEq, Repr

def APIResourceDescriptor.gvr (r : APIResourceDescriptor) : GroupVersionResource :=
  ⟨r.group, r.version, r.resource⟩

/-- `GVR().GroupVersion()`. -/
def APIResourceDescriptor.groupVersion (r : APIResourceDescriptor) : String × String :=
  (r.group, r.version)

def maxInventoryGroupVersions : Nat := 64
def maxInventoryResources : Nat := 256

/-- `APIInventoryMaxAge`, ten minutes. -/
def apiInventoryMaxAge : Duration := 600 * 10 ^ 9

/-- The functions of other modules that descriptors go through:
`IsDNS1123Subdomain` and `IsDNS1035Label` of apimachinery find no
complaint, `unicode.IsSpace` or `unicode.IsControl` holds, and
`GroupVersionResource.String`. -/
structure Externals where
  isDNS1123Subdomain : String → Bool
  isDNS1035Label : String → Bool
  isSpaceOrControl : Char → Bool
  gvrString : GroupVersionResource → String

/-- `ValidAPIResourceDescriptor`. -/
def validAPIResourceDescriptor (ext : Externals) (r : APIResourceDescriptor) : Bool :=
  (r.group = "" || ext.isDNS1123Subdomain r.group) &&
    ext.isDNS1035Label r.version && ext.isDNS1035Label r.resource &&
    r.kind ≠ "" && Strings.len r.kind ≤ 253 && !Strings.containsAny r.kind ['/', ':', '\\'] &&
    !r.kind.toList.any ext.isSpaceOrControl

/-- `slices.SortFunc` on descriptors. -/
def sortDescriptors (ext : Externals) (rs : List APIResourceDescriptor) :
    List APIResourceDescriptor :=
  rs.insertionSort fun a b => ext.gvrString a.gvr ≤ ext.gvrString b.gvr

/-- `APIInventoryEvidence`. -/
structure APIInventoryEvidence where
  clusterID : String
  generation : UInt64
  revision : UInt64 := 0
  state : APIInventoryState := .unknown
  checkedAt : Time := 0
  stale : Bool := false
  stopped : Bool := false
  limited : Bool := false
  resources : List APIResourceDescriptor := []
  deriving DecidableEq, Repr

/-! ### Snapshots -/

/-- `CoverageSnapshot`. -/
structure CoverageSnapshot where
  generation : UInt64 := 0
  clusterID : String
  capturedAt : Time
  state : CoverageState
  resources : List ResourceCoverage := []
  sources : List CoverageSourceSnapshot := []
  apiInventory : Option APIInventoryEvidence := none
  deriving DecidableEq, Repr

end KubeAtlas.Operations
