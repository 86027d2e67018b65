import KubeAtlas.Otel.Receiver
import Mathlib.Algebra.GroupWithZero.Nat

/-!
# `KubeAtlas.Proofs.Otel.Receiver`: the counters of the span receiver

A span that is received is dropped, written, in the queue, or in the
hand of a call or a worker, or its batch was given up because
`WriteSpans` failed. No counter has the last case. So when nothing
is in the queue or in a hand, the spans received are those dropped
and those written if and only if no span was given up, up to the
wrapping of the counters: the equations between them are taken
modulo 2^64 on the way.
-/

set_option autoImplicit false

namespace KubeAtlas.Proofs.Otel

open scoped BigOperators
open Lib KubeAtlas.Otel

variable {P Span : Type} {n : Nat}

/-- The spans in the hand of a call. -/
def callHolds (spans : List Span) : ExportPc → Nat
  | .send | .drop => spans.length
  | .idle | .done => 0

/-- The spans in the hand of a worker. -/
def workerHolds : WorkerPc Span → Nat
  | .write batch | .count batch => batch.length
  | .range => 0

/-- The spans that are counted as dropped or written, or are in the
queue. -/
def settled (w : Shared Span) : Nat :=
  w.dropped.toNat + w.written.toNat + (w.queue.buffer.map List.length).sum

/-- The spans that a worker gives up in a step. -/
def givenUp (result : WriteResult) : WorkerPc Span → Nat
  | .write batch => if result = .ok then 0 else batch.length
  | _ => 0

/-- The spans that are given up in the step of the entry. -/
def lost (e : Receiver P Span n × Thread P n) : Nat :=
  match e.2 with
  | .call _ => 0
  | .worker i result => givenUp result (e.1.workers i)

/-- In the step of the entry, the write of some spans fails. -/
def Fails (e : Receiver P Span n × Thread P n) : Prop :=
  ∃ i batch result, e.2 = .worker i result ∧ result ≠ .ok ∧ e.1.workers i = .write batch ∧
    batch ≠ []

/-- The spans that are given up in a run. -/
def lostSpans (trace : List (Receiver P Span n × Thread P n)) : Nat := (trace.map lost).sum

/-- A step loses spans exactly when it is a failed write of some. -/
theorem lost_eq_zero_iff (e : Receiver P Span n × Thread P n) : lost e = 0 ↔ ¬Fails e := by
  obtain ⟨s, t⟩ := e
  cases t with
  | call p => simp [lost, Fails]
  | worker i result => cases hpc : s.workers i <;> simp [lost, givenUp, Fails, hpc]

/-- Spans are given up in the writes that fail, and nowhere else. -/
theorem lostSpans_eq_zero_iff (trace : List (Receiver P Span n × Thread P n)) :
    lostSpans trace = 0 ↔ ∀ e ∈ trace, ¬Fails e := by
  simp only [lostSpans, List.sum_eq_zero_iff_forall_eq_nat, List.forall_mem_map, lost_eq_zero_iff]

/-- The queue is empty, and no call or write is in progress. -/
abbrev Quiet (s : Receiver P Span n) : Prop :=
  s.shared.queue.buffer = [] ∧ (∀ p, s.exports p = .idle ∨ s.exports p = .done) ∧
    ∀ i, s.workers i = .range

section Steps

variable {w w' : Shared Span}

/-- A call moves spans between its hand, the queue and the counters. -/
theorem exportStep_settled {spans : List Span} {pc pc' : ExportPc}
    (h : exportStep w spans pc = some (w', pc')) :
    (w'.received.toNat + settled w + callHolds spans pc) % 2 ^ 64 =
      (w.received.toNat + settled w' + callHolds spans pc') % 2 ^ 64 := by
  cases pc with
  | idle =>
    by_cases hempty : spans.length = 0
    · simp only [exportStep, hempty, if_true] at h
      cases h
      rfl
    · simp only [exportStep, hempty, if_false] at h
      cases h
      simp only [settled, callHolds, UInt64.toNat_add, UInt64.toNat_ofNat']
      omega
  | send =>
    rcases w.queue.send_cases spans with ⟨-, hsend⟩ | ⟨-, hsend | hsend⟩
    all_goals
      simp only [exportStep, hsend] at h
      cases h
    · rfl
    · simp only [settled, callHolds, List.map_append, List.map_singleton, List.sum_append,
        List.sum_singleton]
      omega
  | drop =>
    cases h
    simp only [settled, callHolds, UInt64.toNat_add, UInt64.toNat_ofNat']
    omega
  | done => cases h

/-- A worker moves spans between its hand, the queue and the
counters, or gives them up. -/
theorem workerStep_settled {result : WriteResult} {pc pc' : WorkerPc Span}
    (h : workerStep w result pc = some (w', pc')) :
    w'.received = w.received ∧
      (settled w + workerHolds pc) % 2 ^ 64 =
        (settled w' + workerHolds pc' + givenUp result pc) % 2 ^ 64 := by
  cases pc with
  | range =>
    rcases w.queue.receive_cases with
      ⟨batch, rest, hbuffer, hreceive⟩ | ⟨-, ⟨-, hreceive⟩ | ⟨-, hreceive⟩⟩
    all_goals
      simp only [workerStep, hreceive] at h
      cases h
    refine ⟨rfl, ?_⟩
    simp only [settled, hbuffer, workerHolds, givenUp, List.map_cons, List.sum_cons]
    omega
  | write batch =>
    cases h
    by_cases hok : result = .ok <;> simp [hok, workerHolds, givenUp]
  | count batch =>
    cases h
    refine ⟨rfl, ?_⟩
    simp only [settled, workerHolds, givenUp, UInt64.toNat_add, UInt64.toNat_ofNat']
    omega

end Steps

variable [Fintype P] [DecidableEq P] {spans : P → List Span} {s : Receiver P Span n}

/-- The spans that are counted as dropped or written, in the queue,
or in a hand. -/
def accounted (spans : P → List Span) (s : Receiver P Span n) : Nat :=
  settled s.shared + (∑ p, callHolds (spans p) (s.exports p)) + ∑ i, workerHolds (s.workers i)

/-- Every span that was received is accounted for, or was given up. -/
theorem received_eq {bufferSize : Int} {trace : List (Receiver P Span n × Thread P n)}
    (h : Receiver.History spans bufferSize trace s) :
    s.shared.received.toNat % 2 ^ 64 = (accounted spans s + lostSpans trace) % 2 ^ 64 := by
  refine h.inv (fun trace s => s.shared.received.toNat % 2 ^ 64 =
    (accounted spans s + lostSpans trace) % 2 ^ 64) ?_ fun trace s t s' ih hstep => ?_
  · simp [accounted, settled, Receiver.new, callHolds, workerHolds, lostSpans]
  · rw [lostSpans, List.map_append, List.sum_append, List.map_singleton, List.sum_singleton]
    unfold accounted lostSpans at ih
    unfold accounted
    cases t with
    | call p =>
      obtain ⟨⟨w, pc⟩, hmove, rfl⟩ := Option.map_eq_some_iff.mp hstep
      have hsettled := exportStep_settled hmove
      have hsum := Transition.sum_update_add (fun p => callHolds (spans p)) s.exports p pc
      simp only [lost]
      omega
    | worker i result =>
      obtain ⟨⟨w, pc⟩, hmove, rfl⟩ := Option.map_eq_some_iff.mp hstep
      obtain ⟨hreceived, hsettled⟩ := workerStep_settled hmove
      have hsum := Transition.sum_update_add (fun _ => workerHolds) s.workers i pc
      simp only [lost, hreceived]
      omega

/-- When nothing is in progress, the counters say that the spans
received are those dropped and those written if and only if the
spans that were given up are a multiple of 2^64. Spans are given up
in the writes that fail: short of a wrap-around, the counters are
right if and only if no write of some spans has failed. -/
theorem accounted_iff (spans : P → List Span) (bufferSize : Int)
    (trace : List (Receiver P Span n × Thread P n)) (s : Receiver P Span n)
    (h : Receiver.History spans bufferSize trace s) (hquiet : Quiet s) :
    (s.shared.received = s.shared.dropped + s.shared.written ↔ 2 ^ 64 ∣ lostSpans trace) ∧
      (lostSpans trace = 0 ↔ ∀ e ∈ trace, ¬Fails e) := by
  obtain ⟨hqueue, hexports, hworkers⟩ := hquiet
  refine ⟨?_, lostSpans_eq_zero_iff trace⟩
  have hcalls : ∀ p, callHolds (spans p) (s.exports p) = 0 := by
    intro p
    rcases hexports p with hpc | hpc <;> rw [hpc] <;> rfl
  have hsettled : accounted spans s = s.shared.dropped.toNat + s.shared.written.toNat := by
    simp [accounted, settled, hqueue, hworkers, hcalls, workerHolds]
  have htotal := received_eq h
  have hlt := s.shared.received.toNat_lt
  rw [← UInt64.toNat_inj, UInt64.toNat_add, Nat.dvd_iff_mod_eq_zero]
  omega

/-- One call with one span, and a write that succeeds or fails. -/
def oneSpan (result : WriteResult) : List (Thread Unit 1) :=
  [.call (), .call (), .worker (.last 0) .ok, .worker (.last 0) result] ++
    if result = .ok then [.worker (.last 0) .ok] else []

theorem oneSpan_run (result : WriteResult) :
    ∃ trace, ∃ s : Receiver Unit Unit 1, Receiver.History (fun _ => [()]) 1 trace s ∧ Quiet s ∧
      s.shared.received = 1 ∧ s.shared.dropped = 0 ∧
        s.shared.written = if result = .ok then 1 else 0 := by
  have hstep (s : Receiver Unit Unit 1) (t : Thread Unit 1) (s' : Receiver Unit Unit 1)
      (h : s.next (fun _ => [()]) t = some s') : s.next (fun _ => [()]) t = some s' := h
  obtain ⟨trace, s, hrun, htest⟩ := Transition.exists_run_of_exec hstep (Receiver.new 1)
    (oneSpan result) (fun _ s => decide (Quiet s ∧ s.shared.received = 1 ∧ s.shared.dropped = 0 ∧
      s.shared.written = if result = .ok then 1 else 0)) (by cases result <;> decide)
  exact ⟨trace, s, hrun, of_decide_eq_true htest⟩

/-- A run with a write that succeeds. -/
theorem accounted_oneSpan :
    ∃ trace, ∃ s : Receiver Unit Unit 1, Receiver.History (fun _ => [()]) 1 trace s ∧ Quiet s ∧
      s.shared.received = s.shared.dropped + s.shared.written ∧ 2 ^ 64 ∣ lostSpans trace := by
  obtain ⟨trace, s, hrun, hquiet, hreceived, hdropped, hwritten⟩ := oneSpan_run .ok
  have htotal : s.shared.received = s.shared.dropped + s.shared.written := by
    rw [hreceived, hdropped, hwritten]
    rfl
  exact ⟨trace, s, hrun, hquiet, htotal, (accounted_iff _ _ _ _ hrun hquiet).1.mp htotal⟩

/-- After a write that failed, a span was received, and none was
dropped or written. -/
theorem failed_uncounted :
    ∃ trace, ∃ s : Receiver Unit Unit 1, Receiver.History (fun _ => [()]) 1 trace s ∧ Quiet s ∧
      s.shared.received = 1 ∧ s.shared.dropped = 0 ∧ s.shared.written = 0 :=
  oneSpan_run .error

end KubeAtlas.Proofs.Otel
