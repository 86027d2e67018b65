import KubeAtlas.Proofs.History.WriterSteps
import KubeAtlas.Snapshot.Availability
import Mathlib.Algebra.Order.BigOperators.Group.Finset

/-!
# `KubeAtlas.Proofs.History.Accounting`: every event is accounted for

An event that was handed to `Enqueue` is persisted, given up,
dropped, in the queue, or in the hand of a worker or of an `Enqueue`
call. Making room in a full queue takes three operations that race
with other calls and with the workers, so an event can be in a hand
and not be counted yet.

`losses_accounted` has two parts. The counters add up to the number
of calls, in every reachable state. And when no event is in a hand,
the availability evidence has a gap if and only if an event is lost.
The counters alone do not say which events they counted; the second
part also needs that no event is in two places (`places_le`).

The counters have 64 bits, so all of this is about writers with
fewer than `2 ^ 64` calls. `losses_wrap`: after `2 ^ 64` drops the
counter is back at zero, and the evidence has no gap.

`Enqueue` and `Stop` do not overlap here. If they do, a call can
receive from the closed queue, and then it counts a drop that nobody
handed over.
-/

set_option autoImplicit false

namespace KubeAtlas.Proofs.History

open Lib
open Operations (Duration)
open Snapshot

variable {P Q : Type} {n capacity : Nat}

/-! ### Who holds an event -/

/-- The events in the hand of an `Enqueue` call: its own, and one
that it has evicted and not counted. -/
def enqueueHand : EnqueuePc P → Nat
  | .idle | .done => 0
  | .count (some _) => 2
  | .load | .send | .evict | .count none | .resend | .drop => 1

/-- The events in the hand of a worker. -/
def workerHand : WorkerPc P → Nat
  | .take _ | .attempt _ _ | .sleep _ _ | .processed _ | .failed _ => 1
  | .unborn | .range | .finish | .exit | .gone => 0

/-- Calls that have begun. -/
def begun : EnqueuePc P → Nat
  | .idle => 0
  | _ => 1

/-- A call begins once. -/
theorem begun_le_one (pc : EnqueuePc P) : begun pc ≤ 1 := by
  cases pc <;> simp [begun]

/-- The events that are counted or in the queue. -/
def settled (w : Shared P) : Nat :=
  w.metrics.eventsProcessed.toNat + w.metrics.writeFailed.toNat +
    w.metrics.queueDropped.toNat + w.queue.buffer.length

/-- A call that is under way. -/
def inProgress (pc : EnqueuePc P) : Prop := pc ≠ .idle ∧ pc ≠ .done

/-- A `Stop` that is under way. -/
def stopping (pc : StopPc) : Prop := pc ≠ .idle ∧ pc ≠ .done

/-- No `Enqueue` overlaps a `Stop`. -/
def NoOverlap (trace : List (Writer P Q n × Thread P Q n)) : Prop :=
  ∀ e ∈ trace, ∀ p q, ¬ (inProgress (e.1.producers p) ∧ stopping (e.1.stoppers q))

/-- No event is in a hand. -/
structure Settled (s : Writer P Q n) : Prop where
  calls : ∀ p, enqueueHand (s.producers p) = 0
  workers : ∀ i, workerHand (s.workers i) = 0

theorem NoOverlap.closesClear {trace : List (Writer P Q n × Thread P Q n)}
    (h : NoOverlap trace) : ClosesClear trace := by
  intro e he q _ hclose p
  cases hpc : e.1.producers p with
  | idle | load | drop | done => rfl
  | send | evict | count | resend =>
      refine absurd ⟨?_, ?_⟩ (h e he p q)
      · rw [hpc]
        simp [inProgress]
      · rw [hclose]
        simp [stopping]

/-! ### The counters -/

/-- A counter that does not wrap around. -/
theorem toNat_inc (c : UInt64) (h : c.toNat + 1 < 2 ^ 64) : (c + 1).toNat = c.toNat + 1 := by
  exact Nat.mod_eq_of_lt h

section Moves

variable {p : P} {w w' : Shared P}

section

variable {pc pc' : EnqueuePc P} (h : EnqueueMove p w pc w' pc')
  (hopen : sending pc = true → w.queue.closed = false)
include h hopen

/-- An `Enqueue` call moves events between its hand, the queue and
the counters. -/
theorem EnqueueMove.settled (hnone : pc ≠ .count none)
    (hroom : settled w + enqueueHand pc < 2 ^ 64) :
    settled w' + enqueueHand pc' + begun pc = settled w + enqueueHand pc + begun pc' := by
  have hinc (hhand : 1 ≤ enqueueHand pc) :
      (w.metrics.queueDropped + 1).toNat = w.metrics.queueDropped.toNat + 1 := by
    unfold History.settled at hroom
    exact toNat_inc _ (by omega)
  cases h with
  | panics hclosed | evictsNothing hclosed | panicsLate hclosed =>
      rw [hopen rfl] at hclosed
      cases hclosed
  | evicts oldest rest hbuffer =>
    simp only [History.settled, enqueueHand, begun, withBuffer, hbuffer, List.length_cons]
    omega
  | counts evicted =>
    cases evicted with
    | none => exact absurd rfl hnone
    | some x =>
      simp only [History.settled, enqueueHand, begun, Shared.incQueueDropped, hinc one_le_two]
      omega
  | sends hclosed | resends hclosed =>
      simp only [History.settled, enqueueHand, begun, withBuffer, List.length_append,
        List.length_singleton]
      omega
  | drops =>
    simp only [History.settled, enqueueHand, begun, Shared.incQueueDropped, hinc le_rfl]
    omega
  | begins | passes | refused | full | findsRoom | fullAgain =>
      simp [enqueueHand, begun]

/-- Only a receive from the closed queue leaves a call with nothing
to count. -/
theorem EnqueueMove.count_none : pc' ≠ .count none := by
  cases h with
  | evictsNothing hclosed =>
    rw [hopen rfl] at hclosed
    cases hclosed
  | panics | panicsLate => simp
  | _ => simp

end

/-- A worker moves events between its hand, the queue and the
counters. -/
theorem WorkerMove.settled {pc pc' : WorkerPc P} (h : WorkerMove w pc w' pc')
    (hroom : settled w + workerHand pc < 2 ^ 64) :
    settled w' + workerHand pc' = settled w + workerHand pc := by
  have hinc (counter : UInt64) (hhand : 1 ≤ workerHand pc)
      (hle : counter.toNat ≤ History.settled w) :
      (counter + 1).toNat = counter.toNat + 1 := toNat_inc _ (by omega)
  cases h with
  | takes p rest hbuffer =>
    simp only [History.settled, workerHand, withBuffer, hbuffer, List.length_cons]
    omega
  | countsProcessed =>
    have hinc := hinc w.metrics.eventsProcessed le_rfl (by unfold History.settled; omega)
    simp only [History.settled, workerHand, Shared.incProcessed, hinc]
    omega
  | countsFailed =>
    have hinc := hinc w.metrics.writeFailed le_rfl (by unfold History.settled; omega)
    simp only [History.settled, workerHand, Shared.incWriteFailed, hinc]
    omega
  | _ => simp [History.settled, workerHand]

end Moves

variable [Fintype P] [DecidableEq P] [DecidableEq Q]
  {trace : List (Writer P Q n × Thread P Q n)} {s : Writer P Q n}

/-- The weight of what is accounted for. -/
def accounted : Weights P where
  shared := settled
  producer _ := enqueueHand
  worker := workerHand

/-- The weight that counts calls. -/
def calls : Weights P where
  producer _ := begun

omit [Fintype P] in
/-- No call has received from the closed queue. -/
theorem ne_count_none (h : Writer.History capacity trace s) (hclear : ClosesClear trace) (p : P) :
    s.producers p ≠ .count none := by
  induction h generalizing p with
  | nil => simp [Writer.new]
  | @snoc trace s s' t before hstep ih =>
    have hbefore : ClosesClear trace := fun e he => hclear e (List.mem_append_left _ he)
    cases hstep with
    | context | observe | spawn | worker | stop => exact ih hbefore p
    | @enqueue p' w pc alive moves =>
      refine (Function.forall_update_iff s.producers fun _ pc => pc ≠ .count none).mpr ⟨?_, ?_⟩ p
      · exact (enqueueMove_of_step moves).count_none (open_of_sending before hbefore p')
      · exact fun p _ => ih hbefore p

omit [DecidableEq P] [DecidableEq Q] in
/-- There are no more calls that have begun than calls. -/
theorem calls_le (s : Writer P Q n) : calls.total s ≤ Fintype.card P := by
  have hsum : ∑ p, begun (s.producers p) ≤ ∑ _p : P, 1 :=
    Finset.sum_le_sum fun p _ => begun_le_one (s.producers p)
  simpa [Weights.total, calls] using hsum

section

variable (hcard : Fintype.card P < 2 ^ 64)
include hcard

omit [DecidableEq P] [DecidableEq Q] in
/-- Where the calls are accounted for, a thread with an event in its
hand finds room in the counters. -/
theorem room (htotal : accounted.total s = calls.total s) :
    (∀ p, settled s.shared + enqueueHand (s.producers p) < 2 ^ 64) ∧
      ∀ i, settled s.shared + workerHand (s.workers i) < 2 ^ 64 := by
  have hle := calls_le s
  rw [← htotal] at hle
  unfold Weights.total accounted at hle
  refine ⟨fun p => ?_, fun i => ?_⟩
  · have hone := Finset.single_le_sum (f := fun p => enqueueHand (s.producers p))
      (fun _ _ => Nat.zero_le _) (Finset.mem_univ p)
    dsimp only at hle hone
    omega
  · have hone := Finset.single_le_sum (f := fun i => workerHand (s.workers i))
      (fun _ _ => Nat.zero_le _) (Finset.mem_univ i)
    dsimp only at hle hone
    omega

/-- The calls that have begun are accounted for. -/
theorem total_accounted (h : Writer.History capacity trace s) (hclear : ClosesClear trace) :
    accounted.total s = calls.total s := by
  refine Weights.total_rel (R := Eq) (by omega) h ?_ ?_ ?_ ?_ ?_
  · simp [Weights.total, accounted, calls, Writer.new, settled, enqueueHand, workerHand, begun]
  · intro w w' hmetrics hbuffer _ _
    simp [accounted, calls, settled, hmetrics, hbuffer]
  · exact fun w => rfl
  · intro before s p w pc hs hsub htotal hmove
    have hbefore : ClosesClear before := fun e he => hclear e (hsub he)
    have hsettled := hmove.settled (open_of_sending hs hbefore p) (ne_count_none hs hbefore p)
      ((room hcard htotal).1 p)
    simp only [accounted, calls]
    omega
  · intro before s i w pc _ _ htotal hmove
    have hsettled := hmove.settled ((room hcard htotal).2 i)
    simp only [accounted, calls]
    omega

end

/-! ### Places -/

/-- How often an `Enqueue` call `p` has the event of `x` in its
hand. -/
def enqueueCarries (x p : P) : EnqueuePc P → Nat
  | .idle | .done => 0
  | .count (some evicted) => (if p = x then 1 else 0) + if evicted = x then 1 else 0
  | .load | .send | .evict | .count none | .resend | .drop => if p = x then 1 else 0

/-- How often a worker has the event of `x` in its hand. An event
that it has appended is in the sink. -/
def workerCarries (x : P) : WorkerPc P → Nat
  | .take p | .attempt p _ | .sleep p _ | .failed p => if p = x then 1 else 0
  | .processed _ | .unborn | .range | .finish | .exit | .gone => 0

/-- The weight that counts the places where the event of `x` is. -/
def places (x : P) : Weights P where
  shared w := w.sink.count x + w.queue.buffer.count x
  producer := enqueueCarries x
  worker := workerCarries x

/-- The weight that counts the events that were appended. -/
def appended : Weights P where
  shared w := w.metrics.eventsProcessed.toNat
  worker
    | .processed _ => 1
    | _ => 0

section Moves

variable {p x : P} {w w' : Shared P} {pc pc' : EnqueuePc P}

omit [Fintype P] in
/-- No event is copied: a call has its own event from the beginning
on, and after that only passes events on. -/
theorem EnqueueMove.places (h : EnqueueMove p w pc w' pc') :
    (places x).shared w' + enqueueCarries x p pc' + (if p = x then begun pc else 0) ≤
      (places x).shared w + enqueueCarries x p pc + if p = x then begun pc' else 0 := by
  cases h with
  | begins => simp [enqueueCarries, begun]
  | passes | refused | full | panics | findsRoom | fullAgain | panicsLate | evictsNothing =>
      exact le_rfl
  | sends | resends =>
      simp only [History.places, withBuffer, enqueueCarries, begun, List.count_append,
        List.count_singleton, beq_iff_eq]
      omega
  | evicts oldest rest hbuffer =>
    simp only [History.places, withBuffer, enqueueCarries, begun, hbuffer, List.count_cons,
      beq_iff_eq]
    omega
  | counts evicted =>
    cases evicted with
    | none => exact le_rfl
    | some y =>
      simp only [History.places, Shared.incQueueDropped, enqueueCarries, begun]
      omega
  | drops =>
    simp only [History.places, Shared.incQueueDropped, enqueueCarries, begun]
    omega

omit [Fintype P] in
/-- Nor does a worker copy one. -/
theorem WorkerMove.places {pc pc' : WorkerPc P} (h : WorkerMove w pc w' pc') :
    (places x).shared w' + workerCarries x pc' ≤ (places x).shared w + workerCarries x pc := by
  cases h with
  | takes p rest hbuffer =>
    simp only [History.places, withBuffer, workerCarries, hbuffer, List.count_cons, beq_iff_eq]
    omega
  | appends p left =>
    simp only [History.places, workerCarries, List.count_append, List.count_singleton, beq_iff_eq]
    omega
  | countsFailed p =>
    simp only [History.places, Shared.incWriteFailed, workerCarries]
    omega
  | _ => simp [History.places, workerCarries, Shared.incProcessed]

omit [Fintype P] [DecidableEq P] in
/-- An `Enqueue` call appends nothing. -/
theorem EnqueueMove.appended (h : EnqueueMove p w pc w' pc') :
    w'.metrics.eventsProcessed = w.metrics.eventsProcessed ∧ w'.sink = w.sink := by
  cases h <;> exact ⟨rfl, rfl⟩

omit [Fintype P] [DecidableEq P] in
/-- A worker counts what it has appended. -/
theorem WorkerMove.appended {pc pc' : WorkerPc P} (h : WorkerMove w pc w' pc')
    (hroom : History.settled w + workerHand pc < 2 ^ 64) :
    appended.shared w' + appended.worker pc' + w.sink.length
      = appended.shared w + appended.worker pc + w'.sink.length := by
  cases h with
  | appends p left =>
    simp only [History.appended, List.length_append, List.length_singleton]
    omega
  | countsProcessed p =>
    simp only [History.settled, workerHand] at hroom
    simp only [History.appended, Shared.incProcessed]
    rw [toNat_inc _ (by omega)]
  | _ => simp [History.appended, withBuffer, Shared.incWriteFailed]

end Moves

/-- An event is in one place at most, and in none before it is
handed over. -/
theorem places_le (h : Writer.History capacity trace s) (x : P) :
    (places x).total s ≤ begun (s.producers x) := by
  have hcall : begun (s.producers x)
      = Weights.total { producer := fun p pc => if p = x then begun pc else 0 } s := by
    simp [Weights.total]
  rw [hcall]
  refine Weights.total_rel (R := LE.le) (by omega) h ?_ ?_ ?_ ?_ ?_
  · simp [Weights.total, places, Writer.new, enqueueCarries, workerCarries]
  · intro w w' _ hbuffer hsink _
    simp [places, hbuffer, hsink]
  · exact fun w => le_rfl
  · intro before s p w pc _ _ _ hmove
    have hplaces := hmove.places (x := x)
    simp only [places] at hplaces ⊢
    omega
  · intro before s i w pc _ _ _ hmove
    have hplaces := hmove.places (x := x)
    simp only [places] at hplaces ⊢
    omega

/-- Nor is it in the sink and the queue more often. -/
theorem stored_le (h : Writer.History capacity trace s) (p : P) :
    (places p).shared s.shared ≤ begun (s.producers p) :=
  (Nat.le_add_right ..).trans ((Nat.le_add_right ..).trans (places_le h p))

/-- No event is in the sink or the queue twice. -/
theorem nodup_stored (h : Writer.History capacity trace s) :
    (s.shared.sink ++ s.shared.queue.buffer).Nodup := by
  rw [List.nodup_iff_count_le_one]
  intro p
  rw [List.count_append]
  exact (stored_le h p).trans (begun_le_one _)

/-- The events that were appended are counted or about to be
counted. -/
theorem total_appended (hcard : Fintype.card P < 2 ^ 64)
    (h : Writer.History capacity trace s) (hclear : ClosesClear trace) :
    appended.total s = s.shared.sink.length := by
  have hsink : s.shared.sink.length = Weights.total { shared := fun w => w.sink.length } s := by
    simp [Weights.total]
  rw [hsink]
  refine Weights.total_rel (R := Eq) (by omega) h ?_ ?_ ?_ ?_ ?_
  · simp [Weights.total, appended, Writer.new]
  · intro w w' hmetrics _ hsink _
    simp [appended, hmetrics, hsink]
  · exact fun w => rfl
  · intro before s p w pc _ _ _ hmove
    obtain ⟨hprocessed, hsink⟩ := hmove.appended
    simp [appended, hprocessed, hsink]
  · intro before s i w pc hs hsub _ hmove
    have htotal := total_accounted hcard hs fun e he => hclear e (hsub he)
    exact hmove.appended ((room hcard htotal).2 i)

/-! ### Gaps -/

omit [DecidableEq Q] in
/-- The number of calls that have begun, as a sum. -/
theorem card_begun (s : Writer P Q n) :
    (Finset.univ.filter fun p => s.producers p ≠ .idle).card = ∑ p, begun (s.producers p) := by
  rw [Finset.card_filter]
  refine Finset.sum_congr rfl fun p _ => ?_
  cases s.producers p <;> simp [begun]

/-- The evidence has a gap if one of the two counters of losses is
not zero. -/
theorem gap_iff (w : WriterReads) (retention : Duration) :
    (.queueGap ∈ (historyAvailability w retention).reasons ∨
      .writeGap ∈ (historyAvailability w retention).reasons)
      ↔ 0 < w.metrics.writeFailed.toNat + w.metrics.queueDropped.toNat := by
  simp only [historyAvailability, reasonIf, List.mem_append, List.mem_ite_nil_right,
    List.mem_singleton, reduceCtorEq, and_false, and_true, or_false, false_or, decide_eq_true_eq,
    gt_iff_lt, UInt64.lt_iff_toNat_lt, UInt64.toNat_zero]
  omega

omit [DecidableEq P] [DecidableEq Q] in
/-- The two totals, written out. -/
theorem sum_begun (htotal : accounted.total s = calls.total s) :
    ∑ p, begun (s.producers p) = settled s.shared + (∑ i, workerHand (s.workers i)) +
      ∑ p, enqueueHand (s.producers p) := by
  have htotal : settled s.shared + (∑ p, enqueueHand (s.producers p)) +
      (∑ i, workerHand (s.workers i)) = 0 + (∑ p, begun (s.producers p)) + ∑ _i : Fin n, 0 := htotal
  rw [Finset.sum_const_zero] at htotal
  omega

omit [DecidableEq Q] in
/-- The events that are persisted or queued, and the events that are
lost, are those that were handed over. -/
theorem sum_places (hsettled : Settled s) (htotal : accounted.total s = calls.total s)
    (happended : appended.total s = s.shared.sink.length) :
    (∑ p, (places p).shared s.shared) +
        (s.shared.metrics.writeFailed.toNat + s.shared.metrics.queueDropped.toNat)
      = ∑ p, begun (s.producers p) := by
  have hsum : ∀ xs : List P, ∑ p, xs.count p = xs.length := by
    intro xs
    have h := Multiset.sum_count_eq_card (s := Finset.univ) (m := (xs : Multiset P))
      fun a _ => Finset.mem_univ a
    simpa using h
  have hplaces : ∑ p, (places p).shared s.shared
      = s.shared.sink.length + s.shared.queue.buffer.length := by
    show ∑ p, (s.shared.sink.count p + s.shared.queue.buffer.count p) = _
    rw [Finset.sum_add_distrib, hsum, hsum]
  have hworkers : ∑ i, appended.worker (s.workers i) = 0 := by
    refine Finset.sum_eq_zero fun i _ => ?_
    have hhand := hsettled.workers i
    cases hpc : s.workers i <;> rw [hpc] at hhand <;> first | rfl | cases hhand
  have happended : s.shared.metrics.eventsProcessed.toNat + (∑ _p : P, 0) +
      (∑ i, appended.worker (s.workers i)) = s.shared.sink.length := happended
  rw [Finset.sum_const_zero] at happended
  rw [sum_begun htotal, Finset.sum_eq_zero fun p _ => hsettled.calls p,
    Finset.sum_eq_zero fun i _ => hsettled.workers i]
  unfold settled
  omega

omit [DecidableEq Q] [Fintype P] in
/-- An event is in fewer places than it was handed over if and only
if it was handed over and is in none. -/
theorem missing_iff (s : Writer P Q n) (p : P) :
    (places p).shared s.shared < begun (s.producers p) ↔
      s.producers p ≠ .idle ∧ p ∉ s.shared.sink ∧ p ∉ s.shared.queue.buffer := by
  show s.shared.sink.count p + s.shared.queue.buffer.count p < _ ↔ _
  rw [← List.count_eq_zero, ← List.count_eq_zero]
  cases s.producers p <;> simp [begun]

omit [DecidableEq Q] in
/-- If an event is in one place at most, and as many events as `lost`
are in none, then one is in none exactly if `lost` is not zero. -/
theorem lost_iff {lost : Nat} (hle : ∀ p, (places p).shared s.shared ≤ begun (s.producers p))
    (hsum : (∑ p, (places p).shared s.shared) + lost = ∑ p, begun (s.producers p)) :
    0 < lost ↔ ∃ p, s.producers p ≠ .idle ∧ p ∉ s.shared.sink ∧ p ∉ s.shared.queue.buffer := by
  constructor
  · intro hlost
    have hlt : ∑ p, (places p).shared s.shared < ∑ p, begun (s.producers p) := by omega
    obtain ⟨p, -, hp⟩ := Finset.exists_lt_of_sum_lt hlt
    exact ⟨p, (missing_iff s p).mp hp⟩
  · rintro ⟨p, hp⟩
    have hlt := Finset.sum_lt_sum (fun p _ => hle p)
      ⟨p, Finset.mem_univ p, (missing_iff s p).mpr hp⟩
    omega

/-- The number of `Enqueue` calls is the number of events that were
processed, given up, dropped, are queued, or are in a hand. When
none is in a hand, the evidence has a gap if and only if an event
that was handed over is neither persisted nor queued. Both hold in
every state of every run with fewer than `2 ^ 64` calls, in which no
`Enqueue` overlaps a `Stop`. -/
theorem losses_accounted (hcard : Fintype.card P < 2 ^ 64)
    (h : Writer.History capacity trace s) (hapart : NoOverlap trace) :
    (Finset.univ.filter fun p => s.producers p ≠ .idle).card
        = s.shared.metrics.eventsProcessed.toNat + s.shared.metrics.writeFailed.toNat +
          s.shared.metrics.queueDropped.toNat + s.shared.queue.buffer.length +
          (∑ i, workerHand (s.workers i)) + ∑ p, enqueueHand (s.producers p) ∧
      (Settled s → ∀ retention : Duration,
        (.queueGap ∈ (historyAvailability s.shared.reads retention).reasons ∨
          .writeGap ∈ (historyAvailability s.shared.reads retention).reasons) ↔
        ∃ p, s.producers p ≠ .idle ∧ p ∉ s.shared.sink ∧ p ∉ s.shared.queue.buffer) := by
  have htotal := total_accounted hcard h hapart.closesClear
  refine ⟨?_, fun hsettled retention => ?_⟩
  · rw [card_begun]
    exact sum_begun htotal
  · rw [gap_iff]
    exact lost_iff (stored_le h) (sum_places hsettled htotal
      (total_appended hcard h hapart.closesClear))

/-- Two calls on a queue of length one, with no worker started: the
second call evicts the event of the first. -/
def evicting : List (Thread Bool Empty 1) :=
  List.replicate 3 (.enqueue false) ++ List.replicate 6 (.enqueue true)

/-- The evicted event is counted, and the evidence has a gap. -/
theorem losses_accounted_evicting :
    ∃ trace s, Writer.History 1 trace (s : Writer Bool Empty 1) ∧
      (Finset.univ.filter fun p => s.producers p ≠ .idle).card
        = s.shared.metrics.eventsProcessed.toNat + s.shared.metrics.writeFailed.toNat +
          s.shared.metrics.queueDropped.toNat + s.shared.queue.buffer.length +
          (∑ i, workerHand (s.workers i)) + ∑ p, enqueueHand (s.producers p) ∧
      s.shared.metrics.queueDropped = 1 ∧
      ((.queueGap ∈ (historyAvailability s.shared.reads 1).reasons ∨
          .writeGap ∈ (historyAvailability s.shared.reads 1).reasons) ↔
        ∃ p, s.producers p ≠ .idle ∧ p ∉ s.shared.sink ∧ p ∉ s.shared.queue.buffer) := by
  obtain ⟨trace, s, hrun, htest⟩ := history_of_exec 1 evicting
    (fun _ s => decide (s.shared.metrics.queueDropped = 1 ∧
      (∀ p, enqueueHand (s.producers p) = 0) ∧ ∀ i, workerHand (s.workers i) = 0)) (by decide)
  obtain ⟨hdropped, hcalls, hworkers⟩ := of_decide_eq_true htest
  have hapart : NoOverlap trace := fun _ _ _ q => q.elim
  obtain ⟨hcount, hgap⟩ := losses_accounted (by decide) hrun hapart
  exact ⟨trace, s, hrun, hcount, hdropped, hgap ⟨hcalls, hworkers⟩ 1⟩

/-! ### Counters that wrap around -/

omit [Fintype P] in
/-- A call that finds a queue of length one full evicts the event
there. -/
theorem run_evicting {p x : P} (halive : s.shared.panicked = false)
    (hflag : s.shared.closed = false) (hqueue : s.shared.queue = { capacity := 1, buffer := [x] })
    (hidle : s.producers p = .idle) :
    ∃ trace, Transition.Run Writer.Step s trace
      { s with
        shared := ({ s.shared with queue := { capacity := 1, buffer := [p] } }).incQueueDropped
        producers := Function.update s.producers p .done } := by
  have hexec : (Transition.exec Writer.next s (List.replicate 6 (.enqueue p))).map (·.2) = some
      { s with
        shared := ({ s.shared with queue := { capacity := 1, buffer := [p] } }).incQueueDropped
        producers := Function.update s.producers p .done } := by
    simp [Transition.exec, Writer.next, enqueueStep, halive, hflag, hqueue, hidle, Channel.send,
      Channel.receive, Writer.withEnqueue, Shared.incQueueDropped]
  obtain ⟨r, hr, heq⟩ := Option.map_eq_some_iff.mp hexec
  rw [← heq]
  exact ⟨r.1, Transition.run_of_exec (fun _ _ _ => step_of_next) hr⟩

/-- The queue of length one has the event of the last call that has
returned, and every other event was dropped. -/
structure Crowded {m : Nat} (k : Fin m) (s : Writer (Fin m) Empty 1) : Prop where
  alive : s.shared.panicked = false
  flag : s.shared.closed = false
  queue : s.shared.queue = { capacity := 1, buffer := [k] }
  sink : s.shared.sink = []
  metrics : s.shared.metrics = { queueDropped := UInt64.ofNat k }
  done : ∀ p ≤ k, s.producers p = .done
  idle : ∀ p > k, s.producers p = .idle
  workers : ∀ i, s.workers i = .unborn

variable {m : Nat} {k : Fin m}

/-- The next call drops the event of the last one. -/
theorem Crowded.next {s : Writer (Fin m) Empty 1} (h : Crowded k s) (hk : k.val + 1 < m) :
    ∃ trace s', Transition.Run Writer.Step s trace s' ∧ Crowded ⟨k + 1, hk⟩ s' := by
  have hlt : k < ⟨k + 1, hk⟩ := Fin.mk_lt_mk.mpr (Nat.lt_succ_self _)
  obtain ⟨trace, hrun⟩ := run_evicting h.alive h.flag h.queue (h.idle _ hlt)
  refine ⟨trace, _, hrun, h.alive, h.flag, rfl, h.sink, ?_, fun p hp => ?_, fun p hp => ?_,
    h.workers⟩
  · simp [Shared.incQueueDropped, h.metrics, UInt64.ofNat_add]
  · rcases hp.lt_or_eq with hp | rfl
    · exact (Function.update_of_ne hp.ne _ _).trans (h.done p (Nat.lt_succ_iff.mp hp))
    · exact Function.update_self ..
  · exact (Function.update_of_ne hp.ne' _ _).trans (h.idle p (hlt.trans hp))

/-- Any number of calls, one after the other. -/
theorem exists_crowded (j : Nat) (hj : j < m) :
    ∃ trace s, Writer.History 1 trace s ∧ Crowded ⟨j, hj⟩ s := by
  induction j with
  | zero =>
    have hexec : (Transition.exec Writer.next (.new 1) (List.replicate 3 (.enqueue ⟨0, hj⟩))).map
        (·.2) = some ({ (.new 1 : Writer (Fin m) Empty 1) with
          shared := { queue := { capacity := 1, buffer := [⟨0, hj⟩] } }
          producers := Function.update (fun _ => .idle) ⟨0, hj⟩ .done }) := by
      simp [Transition.exec, Writer.next, Writer.new, enqueueStep, Channel.send,
        Writer.withEnqueue]
    obtain ⟨r, hr, heq⟩ := Option.map_eq_some_iff.mp hexec
    refine ⟨r.1, r.2, Transition.run_of_exec (fun _ _ _ => step_of_next) hr, ?_⟩
    rw [heq]
    refine ⟨rfl, rfl, rfl, rfl, rfl, fun p hp => ?_, fun p hp => ?_, fun i => rfl⟩
    · have hp : p = ⟨0, hj⟩ := Fin.ext (Nat.le_zero.mp hp)
      simp [hp]
    · simp [hp.ne']
  | succ j ih =>
    obtain ⟨trace, s, hrun, hs⟩ := ih (Nat.lt_of_succ_lt hj)
    obtain ⟨later, s', hnext, hs'⟩ := hs.next hj
    exact ⟨trace ++ later, s', hrun.append hnext, hs'⟩

/-- After `2 ^ 64` drops the counter is back at zero: the evidence
has no gap, and the event of the first call is nowhere. -/
theorem losses_wrap :
    ∃ trace s, Writer.History 1 trace (s : Writer (Fin (2 ^ 64 + 1)) Empty 1) ∧
      NoOverlap trace ∧ Settled s ∧
      (∀ retention, .queueGap ∉ (historyAvailability s.shared.reads retention).reasons ∧
        .writeGap ∉ (historyAvailability s.shared.reads retention).reasons) ∧
      s.producers 0 ≠ .idle ∧ 0 ∉ s.shared.sink ∧ 0 ∉ s.shared.queue.buffer := by
  obtain ⟨trace, s, hrun, h⟩ := exists_crowded (2 ^ 64) (Nat.lt_succ_self (2 ^ 64))
  have hlast (p : Fin (2 ^ 64 + 1)) : p ≤ Fin.last (2 ^ 64) := Fin.le_last p
  refine ⟨trace, s, hrun, fun _ _ _ q => q.elim, ⟨fun p => ?_, fun i => ?_⟩, fun retention => ?_,
    ?_, ?_, ?_⟩
  · rw [h.done p (hlast p)]
    rfl
  · rw [h.workers i]
    rfl
  · rw [← not_or, gap_iff, show s.shared.reads.metrics = _ from h.metrics]
    decide
  · rw [h.done 0 (hlast 0)]
    nofun
  · rw [h.sink]
    exact List.not_mem_nil
  · rw [h.queue]
    decide

/-! ### No event twice -/

/-- No event is stored twice: whatever fails, is retried or evicted,
and whenever the writer is stopped, the sink and the queue together
have an event at most once, and only after its call has begun.
`Enqueue` and `Stop` may overlap here. -/
theorem stored_once (h : Writer.History capacity trace s) :
    (s.shared.sink ++ s.shared.queue.buffer).Nodup ∧
      ∀ p ∈ s.shared.sink ++ s.shared.queue.buffer, s.producers p ≠ .idle := by
  refine ⟨nodup_stored h, fun p hp hidle => ?_⟩
  have hcount := List.count_pos_iff.mpr hp
  rw [List.count_append] at hcount
  have hle := stored_le h p
  rw [hidle] at hle
  exact absurd hcount (Nat.not_lt.mpr hle)

/-- The append of the first event fails and is retried; then the
second is put into the queue. -/
def retrying : List (Thread Bool Empty 1) :=
  let i : Fin 1 := ⟨0, Nat.one_pos⟩
  [.start i, .start i] ++ List.replicate 3 (.enqueue false) ++
    [.worker i true, .worker i true, .worker i false, .worker i true, .worker i true] ++
    List.replicate 3 (.enqueue true)

/-- Each of the two events is in one place, although the append of
the first was tried twice. -/
theorem stored_once_retried :
    ∃ trace s, Writer.History 1 trace (s : Writer Bool Empty 1) ∧
      (∃ e ∈ trace, ∃ left, e.1.workers 0 = .sleep false left) ∧
      s.shared.sink = [false] ∧ s.shared.queue.buffer = [true] ∧
      (s.shared.sink ++ s.shared.queue.buffer).Nodup := by
  obtain ⟨trace, s, hrun, htest⟩ := history_of_exec 1 retrying
    (fun trace s => decide ((∃ e ∈ trace, e.1.workers 0 = .sleep false 3) ∧
      s.shared.sink = [false] ∧ s.shared.queue.buffer = [true])) (by decide)
  obtain ⟨⟨e, he, hsleep⟩, hsink, hqueue⟩ := of_decide_eq_true htest
  exact ⟨trace, s, hrun, ⟨e, he, 3, hsleep⟩, hsink, hqueue, (stored_once hrun).1⟩

end KubeAtlas.Proofs.History
