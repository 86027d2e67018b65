import KubeAtlas.Operations.Coverage

/-!
# `KubeAtlas.Operations.Availability`: evidence about the history

The part of `pkg/operations/analysis_availability.go` in which the
history writer reports what it has recorded. The evidence about the
storage and about the retained events, which the impact analysis
gets together with it, is left out.
-/

set_option autoImplicit false

namespace KubeAtlas.Operations

/-- `HistoryAvailabilityState`, a defined string type. -/
inductive HistoryAvailabilityState where
  | unknown
  | disabled
  | unsupported
  | initializing
  | recording
  | degraded
  | stopped
  | other (text : String)
  deriving DecidableEq, Repr

/-- `HistoryAvailabilityReason`, a defined string type. -/
inductive HistoryAvailabilityReason where
  | notConfigured
  | requiresTier2
  | scopeUnknown
  | writerMissing
  | startPending
  | writerStopped
  | queueGap
  | writeGap
  | deliveryPending
  | storageUnknown
  | storageStale
  | storageFailed
  | other (text : String)
  deriving DecidableEq, Repr

/-- `HistoryAvailability`. -/
structure HistoryAvailability where
  state : HistoryAvailabilityState
  reasons : List HistoryAvailabilityReason := []
  observationStartedAt : Time := 0
  retention : Duration := 0
  coverage : CoverageState
  content : String
  retainedData : String
  deriving DecidableEq, Repr

end KubeAtlas.Operations
