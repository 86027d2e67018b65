import KubeAtlas.Lib.Channel
import KubeAtlas.Lib.Transition

/-!
# `KubeAtlas.Otel.Receiver`: the queue of the span receiver

`Export`, `worker` and `writeBatch` of `pkg/otel/receiver.go`, with
the counters of `pkg/otel/metrics.go`, which wrap around. The
`Export` calls `P` and the workers are threads, and a step of a
thread is one operation on the queue or on a counter, or the return
of `WriteSpans`. What `translate` makes of the request of a call is
given. The queue is closed only after the last call has returned,
which is left out.
-/

set_option autoImplicit false

namespace KubeAtlas.Otel

open Lib

/-- Where an `Export` call is: before `addReceived`, before the
send, before `addDropped`. -/
inductive ExportPc where
  | idle
  | send
  | drop
  | done
  deriving DecidableEq

/-- What `WriteSpans` does. -/
inductive WriteResult where
  | ok
  | error
  | panic
  deriving DecidableEq

/-- Where a worker is: at the `range`, in `WriteSpans`, before
`addWritten`. -/
inductive WorkerPc (Span : Type) where
  | range
  | write (batch : List Span)
  | count (batch : List Span)
  deriving DecidableEq

/-- What the threads share. -/
structure Shared (Span : Type) where
  queue : Channel (List Span)
  received : UInt64 := 0
  dropped : UInt64 := 0
  written : UInt64 := 0

section Steps

variable {Span : Type} (w : Shared Span)

/-- `Export`, of a request with the given spans. -/
def exportStep (spans : List Span) : ExportPc → Option (Shared Span × ExportPc)
  | .idle =>
    if spans.length = 0 then some (w, .done)
    else some ({ w with received := w.received + .ofNat spans.length }, .send)
  | .send =>
    match w.queue.send spans with
    | .sent queue => some ({ w with queue := queue }, .done)
    | .full => some (w, .drop)
    | .panics => none
  | .drop => some ({ w with dropped := w.dropped + .ofNat spans.length }, .done)
  | .done => none

/-- `worker`, with `writeBatch`. What `WriteSpans` does is read only
while the worker is in it. -/
def workerStep (result : WriteResult) : WorkerPc Span → Option (Shared Span × WorkerPc Span)
  | .range =>
    match w.queue.receive with
    | .received batch queue => some ({ w with queue := queue }, .write batch)
    | .zero | .empty => none
  | .write batch => some (w, if result = .ok then .count batch else .range)
  | .count batch => some ({ w with written := w.written + .ofNat batch.length }, .range)

end Steps

/-- `Receiver`, with its calls and workers. -/
structure Receiver (P Span : Type) (n : Nat) where
  shared : Shared Span
  exports : P → ExportPc := fun _ => .idle
  workers : Fin n → WorkerPc Span := fun _ => .range

inductive Thread (P : Type) (n : Nat) where
  | call (p : P)
  | worker (i : Fin n) (result : WriteResult)

namespace Receiver

variable {P Span : Type} {n : Nat} [DecidableEq P]

/-- `NewReceiver`. -/
def new (bufferSize : Int) : Receiver P Span n where
  shared := { queue := { capacity := (if bufferSize ≤ 0 then 4096 else bufferSize).toNat } }

/-- The step of a thread, if it can make one. -/
def next (spans : P → List Span) (s : Receiver P Span n) : Thread P n → Option (Receiver P Span n)
  | .call p => (exportStep s.shared (spans p) (s.exports p)).map fun r =>
      { s with shared := r.1, exports := Function.update s.exports p r.2 }
  | .worker i result => (workerStep s.shared result (s.workers i)).map fun r =>
      { s with shared := r.1, workers := Function.update s.workers i r.2 }

/-- A history of the receiver. -/
def History (spans : P → List Span) (bufferSize : Int) :
    List (Receiver P Span n × Thread P n) → Receiver P Span n → Prop :=
  Transition.Run (fun s t s' => next spans s t = some s') (new bufferSize)

end Receiver

end KubeAtlas.Otel
