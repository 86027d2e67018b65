import KubeAtlas.Lib.EvictingCache
import KubeAtlas.Lib.Transition

/-!
# `KubeAtlas.Rego.Cache`: the evaluation cache

`pkg/extractor/rego/cache.go`. `GetOrEvaluate` is run by many
callers at once. A step is what one caller does between two points
at which another can interfere: a lookup in the LRU cache, an
operation of the mutex or of a wait group, an access to the map, or
the evaluation.

The LRU cache is a library of another repository. It is a parameter
here, by its operations and without a word about what they do.

A mutex of Go has no owner: `Unlock` frees it whoever calls, and is
a fatal error if it is free. `mu` remembers who locked it last,
which no step looks at. A caller makes at most one wait group, so a
wait group is named by the caller that made it.
-/

set_option autoImplicit false

namespace KubeAtlas.Rego

open Lib

/-- `CacheKey`. -/
structure CacheKey where
  uid : String
  resourceVersion : String
  ruleHash : String
  deriving DecidableEq, Repr

/-- `defaultCacheSize`. -/
def defaultCacheSize : Int := 10000

/-- The capacity that `NewCache` gives to the LRU cache. It is never
zero, the one value that the library refuses. -/
def cacheCapacity (size : Int) : Nat := (if size ≤ 0 then defaultCacheSize else size).toNat

/-- The part of `Metrics` that the cache writes: 64-bit counters,
which wrap around. -/
structure CacheMetrics where
  cacheHits : UInt64 := 0
  cacheMisses : UInt64 := 0
  deriving DecidableEq, Repr

variable {S T K V E : Type}

/-! ### A call that runs alone -/

/-- `Cache`, between calls. -/
structure Cache (S : Type) where
  lru : S
  metrics : CacheMetrics := {}

/-- `GetOrEvaluate`, if no other call is made before it returns. -/
def Cache.getOrEvaluate (ops : CacheOps S K V) (c : Cache S) (key : K)
    (evaluateFn : Except E V) : Except E V × Cache S :=
  match ops.get c.lru key with
  | (some v, lru) =>
    (.ok v, { lru := lru, metrics := { c.metrics with cacheHits := c.metrics.cacheHits + 1 } })
  | (none, lru) =>
    let metrics := { c.metrics with cacheMisses := c.metrics.cacheMisses + 1 }
    match evaluateFn with
    | .error err => (.error err, { lru := lru, metrics := metrics })
    | .ok v => (.ok v, { lru := ops.add lru key v, metrics := metrics })

section Alone

variable {ops : CacheOps S K V} {c : Cache S} {key : K}

/-- A hit returns what was found, and the lookup is all that happens
to the LRU cache. -/
theorem Cache.getOrEvaluate_hit {v : V} (h : (ops.get c.lru key).1 = some v)
    (evaluateFn : Except E V) :
    (c.getOrEvaluate ops key evaluateFn).1 = .ok v ∧
      (c.getOrEvaluate ops key evaluateFn).2.lru = (ops.get c.lru key).2 := by
  have hget : ops.get c.lru key = (some v, (ops.get c.lru key).2) := Prod.ext h rfl
  unfold getOrEvaluate
  rw [hget]
  exact ⟨rfl, rfl⟩

/-- A miss returns what the evaluation does. Only a result that is
no error is stored. -/
theorem Cache.getOrEvaluate_miss (h : (ops.get c.lru key).1 = none)
    (evaluateFn : Except E V) :
    (c.getOrEvaluate ops key evaluateFn).1 = evaluateFn ∧
      (c.getOrEvaluate ops key evaluateFn).2.lru =
        match evaluateFn with
        | .error _ => (ops.get c.lru key).2
        | .ok v => ops.add (ops.get c.lru key).2 key v := by
  have hget : ops.get c.lru key = (none, (ops.get c.lru key).2) := Prod.ext h rfl
  unfold getOrEvaluate
  rw [hget]
  cases evaluateFn <;> exact ⟨rfl, rfl⟩

end Alone

/-! ### Concurrent calls -/

/-- `Cache`, with the counters of the wait groups. `fatal` is set by
`Unlock` of a mutex that is not locked. -/
structure Shared (S T K : Type) where
  lru : S
  metrics : CacheMetrics := {}
  mu : Option T := none
  inflight : K → Option T := fun _ => none
  counter : T → Nat := fun _ => 0
  fatal : Bool := false

/-- Where a call of `GetOrEvaluate` is: at the operation that comes
next. -/
inductive Pc (T V E : Type) where
  | get
  | hit (v : V)
  | lock
  | lookup
  | release (wg : T)
  | wait (wg : T)
  | recheck
  | enter
  | unlock
  | miss
  | evaluate
  | add (v : V)
  | deferLock (r : Except E V)
  | deferDelete (r : Except E V)
  | deferUnlock (r : Except E V)
  | deferDone (r : Except E V)
  | returned (r : Except E V)
  deriving DecidableEq

/-- `c.mu.Lock()` by a caller. -/
def Shared.lock (c : Shared S T K) (t : T) : Option (Shared S T K) :=
  match c.mu with
  | none => some { c with mu := some t }
  | some _ => none

/-- `c.mu.Unlock()`. -/
def Shared.unlock (c : Shared S T K) : Shared S T K :=
  match c.mu with
  | none => { c with fatal := true }
  | some _ => { c with mu := none }

/-- `c.metrics.IncCacheHit()`. -/
def Shared.incCacheHit (c : Shared S T K) : Shared S T K :=
  { c with metrics := { c.metrics with cacheHits := c.metrics.cacheHits + 1 } }

/-- `c.metrics.IncCacheMiss()`. -/
def Shared.incCacheMiss (c : Shared S T K) : Shared S T K :=
  { c with metrics := { c.metrics with cacheMisses := c.metrics.cacheMisses + 1 } }

variable [DecidableEq T] [DecidableEq K]

/-- A step of `GetOrEvaluate(key, evaluateFn)`, called by `t`.
`answer` is what `evaluateFn` returns. -/
def callStep (ops : CacheOps S K V) (t : T) (key : K) (answer : Except E V) (c : Shared S T K) :
    Pc T V E → Option (Shared S T K × Pc T V E)
  | .get =>
    let (found, lru) := ops.get c.lru key
    match found with
    | some v => some ({ c with lru := lru }, .hit v)
    | none => some ({ c with lru := lru }, .lock)
  | .hit v => some (c.incCacheHit, .returned (.ok v))
  | .lock => (c.lock t).map fun c => (c, .lookup)
  | .lookup =>
    match c.inflight key with
    | some wg => some (c, .release wg)
    | none => some (c, .enter)
  | .release wg => some (c.unlock, .wait wg)
  | .wait wg => if c.counter wg = 0 then some (c, .recheck) else none
  -- the leader has failed if this finds nothing; the call goes on without the mutex
  | .recheck =>
    let (found, lru) := ops.get c.lru key
    match found with
    | some v => some ({ c with lru := lru }, .hit v)
    | none => some ({ c with lru := lru }, .enter)
  | .enter =>
    some ({ c with inflight := Function.update c.inflight key (some t)
                   counter := Function.update c.counter t 1 }, .unlock)
  | .unlock => some (c.unlock, .miss)
  | .miss => some (c.incCacheMiss, .evaluate)
  | .evaluate =>
    match answer with
    | .ok v => some (c, .add v)
    | .error err => some (c, .deferLock (.error err))
  | .add v => some ({ c with lru := ops.add c.lru key v }, .deferLock (.ok v))
  | .deferLock r => (c.lock t).map fun c => (c, .deferDelete r)
  | .deferDelete r =>
    some ({ c with inflight := Function.update c.inflight key none }, .deferUnlock r)
  | .deferUnlock r => some (c.unlock, .deferDone r)
  | .deferDone r => some ({ c with counter := Function.update c.counter t 0 }, .returned r)
  | .returned _ => none

/-- The cache, with the calls that use it. -/
structure Calls (S T K V E : Type) where
  shared : Shared S T K
  pc : T → Pc T V E

namespace Calls

variable (ops : CacheOps S K V)

/-- The cache that `NewCache` made, and no call has done anything
yet. -/
def new (capacity : Nat) : Calls S T K V E where
  shared := { lru := ops.new capacity }
  pc _ := .get

/-- The calls after a step of one of them. -/
def after (s : Calls S T K V E) (t : T) (c : Shared S T K) (pc : Pc T V E) : Calls S T K V E :=
  { shared := c, pc := Function.update s.pc t pc }

/-- A step of one call, with what an evaluation returns. After a
fatal error there is none. -/
inductive Step (key : T → K) : Calls S T K V E → T × Except E V → Calls S T K V E → Prop
  | call {s : Calls S T K V E} {t : T} {answer : Except E V} {c : Shared S T K} {pc : Pc T V E}
      (alive : s.shared.fatal = false)
      (moves : callStep ops t (key t) answer s.shared (s.pc t) = some (c, pc)) :
      Step key s (t, answer) (s.after t c pc)

/-- The step of a call, if it can make one. -/
def next (key : T → K) (s : Calls S T K V E) (l : T × Except E V) : Option (Calls S T K V E) :=
  if s.shared.fatal then none
  else
    match callStep ops l.1 (key l.1) l.2 s.shared (s.pc l.1) with
    | some (c, pc) => some (s.after l.1 c pc)
    | none => none

/-- A history of the cache. -/
abbrev History (key : T → K) (capacity : Nat)
    (trace : List (Calls S T K V E × (T × Except E V))) (s : Calls S T K V E) : Prop :=
  Transition.Run (Step ops key) (new ops capacity) trace s

end Calls

end KubeAtlas.Rego
