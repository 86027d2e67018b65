import KubeAtlas.Operations.Availability
import KubeAtlas.Snapshot.Writer

/-!
# `KubeAtlas.Snapshot.Availability`: what is known about the recorded history

The part of `pkg/snapshot/analysis_availability.go` that reports on
the history writer. The writer goes on while it is read:
`WriterReads` are the values that `historyAvailability` gets, one
after the other.
-/

set_option autoImplicit false

namespace KubeAtlas.Snapshot

open Operations

/-- What `historyAvailability` reads of a writer. `observation` is
when it was started, and `cancelled` whether the context of `Start`
is done. -/
structure WriterReads where
  observation : Option Time
  metrics : Metrics
  queueDepth : Nat
  inFlight : Int
  closed : Bool
  cancelled : Bool

/-- The reads, if nothing happens in between. -/
def Shared.reads {P : Type} (w : Shared P) : WriterReads where
  observation := w.observation
  metrics := w.metrics
  queueDepth := w.queue.buffer.length
  inFlight := w.inFlight
  closed := w.closed
  cancelled := w.cancelled

/-- `append(reasons, reason)`, under a condition. -/
def reasonIf (condition : Bool) (reason : HistoryAvailabilityReason) :
    List HistoryAvailabilityReason :=
  if condition then [reason] else []

/-- `historyAvailability`. -/
def historyAvailability (w : WriterReads) (retention : Duration) : HistoryAvailability :=
  let queueGap := decide (w.metrics.queueDropped > 0)
  let writeGap := decide (w.metrics.writeFailed > 0)
  let stopped := w.closed || (w.observation.isSome && w.cancelled)
  let state : HistoryAvailabilityState :=
    if stopped then .stopped
    else if queueGap || writeGap then .degraded
    else if w.observation.isSome then .recording
    else .initializing
  { state := state
    reasons :=
      reasonIf w.observation.isNone .startPending ++ reasonIf queueGap .queueGap ++
        reasonIf writeGap .writeGap ++
        reasonIf (w.queueDepth > 0 || w.inFlight > 0) .deliveryPending ++
        reasonIf stopped .writerStopped
    observationStartedAt := w.observation.getD 0
    retention := retention
    coverage := if queueGap || writeGap then .partially else .unknown
    content := "metadata_only"
    retainedData := "not_queried" }

end KubeAtlas.Snapshot
