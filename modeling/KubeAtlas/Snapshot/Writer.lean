import KubeAtlas.Lib.Channel
import KubeAtlas.Lib.Transition
import KubeAtlas.Store.History

/-!
# `KubeAtlas.Snapshot.Writer`: the history writer

`pkg/snapshot/writer.go` and `pkg/snapshot/metrics.go`. Any number
of `Enqueue` calls put events into a bounded queue, and a pool of
workers takes them out and appends them to the store. `Stop` closes
the queue and waits for the workers.

The calls are threads. Each has a program counter, and a step of a
thread is one operation on what they share: the `closed` flag, the
queue, the wait group, a counter, or the sink. A thread waits where
its step function gives nothing. What the sink answers is an
argument of the worker's step, and a failed append has stored
nothing. Waking up from a backoff is a step that may come at any
time, so the delays and the context are not part of it.

`P` are the `Enqueue` calls and `Q` the `Stop` calls that are made;
each is made once. The queue holds the events by the calls that
handed them over: for a call `p` it has `MetadataOnlyEvent` of the
event of `p`. The counters have 64 bits and wrap around.
-/

set_option autoImplicit false

namespace KubeAtlas.Snapshot

open Lib
open Operations (Time)
open Store

def defaultQueueSize : Int := 10000
def defaultWorkers : Int := 4
def maxRetries : Nat := 5

/-- `Config`. -/
structure Config where
  queueSize : Int := 0
  workers : Int := 0

/-- `withDefaults`. -/
def Config.withDefaults (c : Config) : Config where
  queueSize := if c.queueSize ≤ 0 then defaultQueueSize else c.queueSize
  workers := if c.workers ≤ 0 then defaultWorkers else c.workers

/-- The number of workers that `Start` spawns. -/
def Config.workerCount (c : Config) : Nat := c.withDefaults.workers.toNat

/-- The length of the queue that `New` makes. -/
def Config.capacity (c : Config) : Nat := c.withDefaults.queueSize.toNat

/-- `Metrics`, whose fields are of the type `atomic.Uint64`. -/
structure Metrics where
  eventsProcessed : UInt64 := 0
  writeFailed : UInt64 := 0
  queueDropped : UInt64 := 0

/-- What the threads share. `panicked` is set by a send on the
closed queue, and `sink` has the events that were appended to the
store, in order. -/
structure Shared (P : Type) where
  queue : Channel P
  closed : Bool := false
  metrics : Metrics := {}
  inFlight : Int := 0
  wg : Nat := 0
  observation : Option Time := none
  cancelled : Bool := false
  sink : List P := []
  panicked : Bool := false

namespace Shared

variable {P : Type} (w : Shared P)

/-- `incProcessed`. -/
def incProcessed : Shared P :=
  { w with metrics := { w.metrics with eventsProcessed := w.metrics.eventsProcessed + 1 } }

/-- `incWriteFailed`. -/
def incWriteFailed : Shared P :=
  { w with metrics := { w.metrics with writeFailed := w.metrics.writeFailed + 1 } }

/-- `incQueueDropped`. -/
def incQueueDropped : Shared P :=
  { w with metrics := { w.metrics with queueDropped := w.metrics.queueDropped + 1 } }

end Shared

/-! ### `Enqueue` -/

/-- Where an `Enqueue` call is. `count` has the event that was
evicted, or nothing if the receive got the zero value of a closed
queue. -/
inductive EnqueuePc (P : Type) where
  | idle
  | load
  | send
  | evict
  | count (evicted : Option P)
  | resend
  | drop
  | done
  deriving DecidableEq

/-- `Enqueue`, by the call `p`. -/
def enqueueStep {P : Type} (p : P) (w : Shared P) :
    EnqueuePc P → Option (Shared P × EnqueuePc P)
  | .idle => some (w, .load)
  | .load => some (w, if w.closed then .drop else .send)
  | .send =>
    match w.queue.send p with
    | .sent queue => some ({ w with queue := queue }, .done)
    | .full => some (w, .evict)
    | .panics => some ({ w with panicked := true }, .send)
  -- the queue is full: drop the oldest event to make room
  | .evict =>
    match w.queue.receive with
    | .received oldest queue => some ({ w with queue := queue }, .count (some oldest))
    | .zero => some (w, .count none)
    | .empty => some (w, .resend)
  | .count _ => some (w.incQueueDropped, .resend)
  | .resend =>
    match w.queue.send p with
    | .sent queue => some ({ w with queue := queue }, .done)
    | .full => some (w, .drop)
    | .panics => some ({ w with panicked := true }, .resend)
  | .drop => some (w.incQueueDropped, .done)
  | .done => none

/-! ### `Stop` -/

/-- Where a `Stop` call is. -/
inductive StopPc where
  | idle
  | swap
  | close
  | wait
  | done
  deriving DecidableEq

/-- `Stop`. -/
def stopStep {P : Type} (w : Shared P) : StopPc → Option (Shared P × StopPc)
  | .idle => some (w, .swap)
  | .swap =>
    if w.closed then some (w, .done) else some ({ w with closed := true }, .close)
  | .close => some ({ w with queue := w.queue.close }, .wait)
  | .wait => if w.wg = 0 then some (w, .done) else none
  | .done => none

/-! ### Workers -/

/-- Where a worker is. An attempt comes with the number of attempts
that may follow it. -/
inductive WorkerPc (P : Type) where
  | unborn
  | range
  | take (p : P)
  | attempt (p : P) (left : Nat)
  | sleep (p : P) (left : Nat)
  | processed (p : P)
  | failed (p : P)
  | finish
  | exit
  | gone
  deriving DecidableEq

/-- `worker` with `writeWithRetry`. `ok` is the answer to
`AppendEvent`. -/
def workerStep {P : Type} (ok : Bool) (w : Shared P) :
    WorkerPc P → Option (Shared P × WorkerPc P)
  | .unborn => none
  | .range =>
    match w.queue.receive with
    | .received p queue => some ({ w with queue := queue }, .take p)
    | .zero => some (w, .exit)
    | .empty => none
  | .take p => some ({ w with inFlight := w.inFlight + 1 }, .attempt p (maxRetries - 1))
  | .attempt p left =>
    if ok then some ({ w with sink := w.sink ++ [p] }, .processed p)
    else
      match left with
      | 0 => some (w, .failed p)
      | left + 1 => some (w, .sleep p left)
  | .sleep p left => some (w, .attempt p left)
  | .processed _ => some (w.incProcessed, .finish)
  | .failed _ => some (w.incWriteFailed, .finish)
  | .finish => some ({ w with inFlight := w.inFlight - 1 }, .range)
  | .exit => some ({ w with wg := w.wg - 1 }, .gone)
  | .gone => none

/-! ### The writer -/

/-- Where `Start` is: at first, or before the spawn of the given
worker. -/
inductive StartPc where
  | idle
  | spawn (i : Nat)
  deriving DecidableEq

/-- `Writer`, with the threads that use it. -/
structure Writer (P Q : Type) (n : Nat) where
  shared : Shared P
  starting : StartPc
  producers : P → EnqueuePc P
  stoppers : Q → StopPc
  workers : Fin n → WorkerPc P

/-- The threads. A step of `Start` comes with the time, and a step
of a worker with the answer of the sink. `context` ends the context
of `Start`. -/
inductive Thread (P Q : Type) (n : Nat) where
  | context
  | start (now : Time)
  | enqueue (p : P)
  | stop (q : Q)
  | worker (i : Fin n) (ok : Bool)
  deriving DecidableEq

namespace Writer

variable {P Q : Type} {n : Nat}

/-- `New`. -/
def new (capacity : Nat) : Writer P Q n where
  shared := { queue := { capacity := capacity } }
  starting := .idle
  producers _ := .idle
  stoppers _ := .idle
  workers _ := .unborn

/-- `Start` has returned. -/
def Started (s : Writer P Q n) : Prop := s.starting = .spawn n

/-- `Start` stores when it ran, the first time that it does. -/
def observe (s : Writer P Q n) (now : Time) : Writer P Q n :=
  { s with shared := { s.shared with observation := s.shared.observation.or (some now) }
           starting := .spawn 0 }

/-- One round of the loop of `Start`. -/
def spawn (s : Writer P Q n) (i : Fin n) : Writer P Q n :=
  { s with shared := { s.shared with wg := s.shared.wg + 1 }
           starting := .spawn (i + 1)
           workers := Function.update s.workers i .range }

/-- `ctx` is cancelled. -/
def cancel (s : Writer P Q n) : Writer P Q n :=
  { s with shared := { s.shared with cancelled := true } }

/-- The writer after a step of an `Enqueue` call. -/
def withEnqueue [DecidableEq P] (s : Writer P Q n) (p : P) (w : Shared P) (pc : EnqueuePc P) :
    Writer P Q n :=
  { s with shared := w, producers := Function.update s.producers p pc }

/-- The writer after a step of a `Stop` call. -/
def withStop [DecidableEq Q] (s : Writer P Q n) (q : Q) (w : Shared P) (pc : StopPc) :
    Writer P Q n :=
  { s with shared := w, stoppers := Function.update s.stoppers q pc }

/-- The writer after a step of a worker. -/
def withWorker (s : Writer P Q n) (i : Fin n) (w : Shared P) (pc : WorkerPc P) : Writer P Q n :=
  { s with shared := w, workers := Function.update s.workers i pc }

variable [DecidableEq P] [DecidableEq Q]

/-- A step of one thread. After a panic there is none. `Stop` is
called when `Start` has returned. -/
inductive Step : Writer P Q n → Thread P Q n → Writer P Q n → Prop
  | context {s : Writer P Q n} (alive : s.shared.panicked = false)
      (running : s.shared.cancelled = false) : Step s .context s.cancel
  | observe {s : Writer P Q n} (now : Time) (alive : s.shared.panicked = false)
      (idle : s.starting = .idle) : Step s (.start now) (s.observe now)
  | spawn {s : Writer P Q n} (now : Time) (i : Fin n) (alive : s.shared.panicked = false)
      (next : s.starting = .spawn i) : Step s (.start now) (s.spawn i)
  | enqueue {s : Writer P Q n} {p : P} {w : Shared P} {pc : EnqueuePc P}
      (alive : s.shared.panicked = false)
      (moves : enqueueStep p s.shared (s.producers p) = some (w, pc)) :
      Step s (.enqueue p) (s.withEnqueue p w pc)
  | stop {s : Writer P Q n} {q : Q} {w : Shared P} {pc : StopPc}
      (alive : s.shared.panicked = false) (started : s.Started)
      (moves : stopStep s.shared (s.stoppers q) = some (w, pc)) :
      Step s (.stop q) (s.withStop q w pc)
  | worker {s : Writer P Q n} {i : Fin n} {ok : Bool} {w : Shared P} {pc : WorkerPc P}
      (alive : s.shared.panicked = false)
      (moves : workerStep ok s.shared (s.workers i) = some (w, pc)) :
      Step s (.worker i ok) (s.withWorker i w pc)

/-- The step of a thread, if it can make one. -/
def next (s : Writer P Q n) (t : Thread P Q n) : Option (Writer P Q n) :=
  if s.shared.panicked then none
  else
    match t with
    | .context => if s.shared.cancelled then none else some s.cancel
    | .start now =>
      match s.starting with
      | .idle => some (s.observe now)
      | .spawn i => if h : i < n then some (s.spawn ⟨i, h⟩) else none
    | .enqueue p =>
      match enqueueStep p s.shared (s.producers p) with
      | some (w, pc) => some (s.withEnqueue p w pc)
      | none => none
    | .stop q =>
      if s.starting ≠ .spawn n then none
      else
        match stopStep s.shared (s.stoppers q) with
        | some (w, pc) => some (s.withStop q w pc)
        | none => none
    | .worker i ok =>
      match workerStep ok s.shared (s.workers i) with
      | some (w, pc) => some (s.withWorker i w pc)
      | none => none

/-- A history of the writer that `New` made. -/
abbrev History (capacity : Nat) (trace : List (Writer P Q n × Thread P Q n))
    (s : Writer P Q n) : Prop :=
  Transition.Run Step (new capacity) trace s

end Writer

end KubeAtlas.Snapshot
