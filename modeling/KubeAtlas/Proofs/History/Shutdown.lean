import KubeAtlas.Proofs.History.WriterSteps
import Mathlib.Algebra.Order.BigOperators.Group.Finset

/-!
# `KubeAtlas.Proofs.History.Shutdown`: stopping the history writer

`Enqueue` checks the `closed` flag and sends later. If `Stop` closes
the queue in between, the send panics: `send_after_close` is such a
schedule. A second `Stop` that finds the flag set returns at once,
while the first one still waits for the workers.

`shutdown_iff` says when neither happens. There is no endless run,
and a complete run ends without a panic, with every `Stop` returned
after the queue was drained, if and only if no `Enqueue` call was
between its check and its last send when the queue was closed, and
no late `Stop` found events in the queue.
-/

set_option autoImplicit false

namespace KubeAtlas.Proofs.History

open Lib Lib.Transition Snapshot

variable {P Q : Type} {n capacity : Nat}

/-! ### Every run comes to an end -/

/-- The steps that are left for an `Enqueue` call, and for the
worker that gets its event. -/
def enqueueLeft : EnqueuePc P → Nat
  | .idle => 22
  | .load => 21
  | .send => 20
  | .evict => 19
  | .count _ => 18
  | .resend => 17
  | .drop => 1
  | .done => 0

/-- The steps that are left for a worker. -/
def workerLeft : WorkerPc P → Nat
  | .unborn => 3
  | .range => 2
  | .take _ => 4 + 2 * maxRetries
  | .attempt _ left => 5 + 2 * left
  | .sleep _ left => 6 + 2 * left
  | .processed _ | .failed _ => 4
  | .finish => 3
  | .exit => 1
  | .gone => 0

def stopLeft : StopPc → Nat
  | .idle => 4
  | .swap => 3
  | .close => 2
  | .wait => 1
  | .done => 0

def startLeft (n : Nat) : StartPc → Nat
  | .idle => 4 * n + 1
  | .spawn i => 4 * (n - i)

/-- The weight of the work that is left. -/
def work : Weights P where
  shared w := 16 * w.queue.buffer.length + (if w.panicked then 0 else 1) +
    (if w.cancelled then 0 else 1)
  producer _ := enqueueLeft
  worker := workerLeft

variable {p : P} {pc pc' : EnqueuePc P} {w w' : Shared P}

theorem EnqueueMove.work (h : EnqueueMove p w pc w' pc') (halive : w.panicked = false) :
    work.shared w' + enqueueLeft pc' < work.shared w + enqueueLeft pc := by
  cases h with
  | panics | panicsLate => simp [History.work, halive]
  | sends | resends =>
      simp only [History.work, withBuffer, enqueueLeft, List.length_append, List.length_singleton]
      omega
  | evicts oldest rest hbuffer =>
    simp only [History.work, withBuffer, enqueueLeft, hbuffer, List.length_cons]
    omega
  | _ => simp [History.work, enqueueLeft, Shared.incQueueDropped]

theorem WorkerMove.work {pc pc' : WorkerPc P} (h : WorkerMove w pc w' pc') :
    work.shared w' + workerLeft pc' < work.shared w + workerLeft pc := by
  cases h with
  | takes p rest hbuffer =>
    simp only [History.work, withBuffer, workerLeft, maxRetries, hbuffer, List.length_cons]
    omega
  | backsOff p left =>
    simp only [workerLeft]
    omega
  | appends p left =>
    simp only [History.work, workerLeft]
    omega
  | _ => simp [History.work, workerLeft, maxRetries, Shared.incProcessed, Shared.incWriteFailed]

theorem StopMove.work {pc pc' : StopPc} (h : StopMove w pc w' pc') :
    work.shared w' = work.shared w ∧ stopLeft pc' < stopLeft pc := by
  cases h <;> simp [History.work, stopLeft, Channel.close]

/-- The work that is left. -/
def measure [Fintype P] [Fintype Q] (s : Writer P Q n) : Nat :=
  work.total s + startLeft n s.starting + ∑ q, stopLeft (s.stoppers q)

/-- Every step does some of the work. -/
theorem measure_lt [Fintype P] [Fintype Q] [DecidableEq P] [DecidableEq Q] {s s' : Writer P Q n}
    {t : Thread P Q n} (h : s.Step t s') : measure s' < measure s := by
  cases h with
  | context alive running =>
    simp [measure, Weights.total, work, Writer.cancel, running]
  | observe now alive idle =>
    simp only [measure, Weights.total, work, Writer.observe, idle, startLeft]
    omega
  | spawn now i alive next =>
    have htotal := work.total_spawn s i
    have hrange : work.worker (.range : WorkerPc P) = 2 := rfl
    have hshared : work.shared { s.shared with wg := s.shared.wg + 1 } = work.shared s.shared := rfl
    have hstart : startLeft n (s.spawn i).starting + 4 = startLeft n s.starting := by
      rw [next]
      simp only [Writer.spawn, startLeft]
      omega
    have hstop : ∑ q, stopLeft ((s.spawn i).stoppers q) = ∑ q, stopLeft (s.stoppers q) := rfl
    unfold measure
    omega
  | @enqueue p w pc alive moves =>
    have hmove := (enqueueMove_of_step moves).work alive
    have htotal := work.total_enqueue s p w pc
    have hleft : ∀ pc, work.producer p pc = enqueueLeft pc := fun _ => rfl
    rw [hleft, hleft] at htotal
    show work.total (s.withEnqueue p w pc) + startLeft n s.starting +
      ∑ q, stopLeft (s.stoppers q) < measure s
    unfold measure
    omega
  | @worker i ok w pc alive moves =>
    have hmove := (workerMove_of_step moves).work
    have htotal := work.total_worker s i w pc
    have hleft : ∀ pc : WorkerPc P, work.worker pc = workerLeft pc := fun _ => rfl
    rw [hleft, hleft] at htotal
    show work.total (s.withWorker i w pc) + startLeft n s.starting +
      ∑ q, stopLeft (s.stoppers q) < measure s
    unfold measure
    omega
  | @stop q w pc alive started moves =>
    obtain ⟨hshared, hless⟩ := (stopMove_of_step moves).work
    have htotal : work.total (s.withStop q w pc) + work.shared s.shared
        = work.total s + work.shared w := work.total_shared rfl rfl
    have hsum := sum_update_add (fun _ => stopLeft) s.stoppers q pc
    show work.total (s.withStop q w pc) + startLeft n s.starting +
      ∑ q', stopLeft (Function.update s.stoppers q pc q') < measure s
    unfold measure
    omega

/-! ### Workers and the wait group -/

/-- Workers that have been spawned and have not returned. -/
def alive : WorkerPc P → Nat
  | .unborn | .gone => 0
  | _ => 1

/-- The weight that counts them. -/
def running : Weights P where
  worker := alive

/-- Nothing is sent to a closed queue. -/
theorem EnqueueMove.stays_drained (h : EnqueueMove p w pc w' pc') (hclosed : w.queue.closed = true)
    (hbuffer : w.queue.buffer = []) : w'.queue.buffer = [] := by
  cases h with
  | sends hopen | resends hopen =>
      rw [hclosed] at hopen
      cases hopen
  | evicts oldest rest hold =>
    rw [hbuffer] at hold
    cases hold
  | _ => exact hbuffer

/-- A call that is between its check and its last send stays there
while the queue is closed. -/
theorem EnqueueMove.stays_sending (h : EnqueueMove p w pc w' pc') (hclosed : w.queue.closed = true)
    (hsending : sending pc = true) : sending pc' = true := by
  cases h with
  | sends hopen | resends hopen | full hopen | fullAgain hopen =>
      rw [hclosed] at hopen
      cases hopen
  | begins | passes | refused | drops => cases hsending
  | _ => rfl

section

variable {w w' : Shared P} {pc pc' : WorkerPc P} (h : WorkerMove w pc w' pc')
include h

theorem WorkerMove.stays_drained (hbuffer : w.queue.buffer = []) : w'.queue.buffer = [] := by
  cases h with
  | takes p rest hold =>
    rw [hbuffer] at hold
    cases hold
  | _ => exact hbuffer

theorem WorkerMove.exited (hpc : pc' = .exit ∨ pc' = .gone) :
    pc = .exit ∨ (w.queue.closed = true ∧ w.queue.buffer = []) := by
  cases h with
  | drained hbuffer hclosed => exact .inr ⟨hclosed, hbuffer⟩
  | exits => exact .inl rfl
  | _ => simp at hpc

theorem WorkerMove.not_unborn : pc' ≠ .unborn := by
  cases h <;> simp

end

/-- The wait group goes down with a worker that returns. -/
theorem WorkerMove.alive {pc pc' : WorkerPc P} (h : WorkerMove w pc w' pc')
    (hpos : History.alive pc ≤ w.wg) :
    History.alive pc' + w.wg = History.alive pc + w'.wg := by
  cases h with
  | exits =>
    simp only [History.alive] at hpos ⊢
    omega
  | _ => simp [History.alive, withBuffer, Shared.incProcessed, Shared.incWriteFailed]

/-- What the wait for the workers rests on. -/
structure Drains (s : Writer P Q n) : Prop where
  exited : ∀ i, s.workers i = .exit ∨ s.workers i = .gone →
    s.shared.queue.closed = true ∧ s.shared.queue.buffer = []
  waiting : ∀ q, s.stoppers q = .wait → s.shared.queue.closed = true
  spawned : ∀ k, s.starting = .spawn k → k ≤ n
  born : ∀ k, s.starting = .spawn k → ∀ i : Fin n, i.val < k → s.workers i ≠ .unborn

variable {trace : List (Writer P Q n × Thread P Q n)} {s : Writer P Q n}

theorem alive_le_total [Fintype P] (s : Writer P Q n) (i : Fin n) :
    alive (s.workers i) ≤ running.total s := by
  have hle : alive (s.workers i) ≤ ∑ j, alive (s.workers j) :=
    Finset.single_le_sum (f := fun j => alive (s.workers j)) (fun _ _ => Nat.zero_le _)
      (Finset.mem_univ i)
  have htotal : running.total s = 0 + (∑ _p : P, 0) + ∑ j, alive (s.workers j) := rfl
  omega

section Decidable

variable [DecidableEq P] [DecidableEq Q]

/-- The wait group counts the workers that are running. -/
theorem total_running [Fintype P] (h : Writer.History capacity trace s) :
    running.total s = s.shared.wg := by
  have hwg : s.shared.wg = Weights.total { shared := fun w => w.wg } s := by
    simp [Weights.total]
  rw [hwg]
  refine Weights.total_rel (R := Eq) (by omega) h ?_ ?_ ?_ ?_ ?_
  · simp [Weights.total, running, alive, Writer.new]
  · intro w w' _ _ _ hwg
    simp [running, hwg]
  · intro w
    simp only [running, alive]
    omega
  · intro before s p w pc _ _ _ hmove
    simp [running, hmove.closed.2.2]
  · intro before s i w pc _ _ htotal hmove
    have hle := alive_le_total s i
    have hwg : Weights.total { shared := fun w => w.wg } s = s.shared.wg := by
      simp [Weights.total]
    have halive := hmove.alive (by omega)
    simp only [running]
    omega

theorem drains (h : Writer.History capacity trace s) : Drains s := by
  induction h with
  | nil => refine ⟨?_, ?_, ?_, ?_⟩ <;> simp [Writer.new]
  | @snoc trace s s' t before hstep ih =>
    cases hstep with
    | context => exact ⟨ih.exited, ih.waiting, ih.spawned, ih.born⟩
    | observe now halive hidle =>
      refine ⟨ih.exited, ih.waiting, fun k hk => ?_, fun k hk i hi => ?_⟩
      · cases hk
        exact Nat.zero_le n
      · cases hk
        exact absurd hi (Nat.not_lt_zero _)
    | spawn now i halive hnext =>
      refine ⟨?_, ih.waiting, fun k hk => ?_, fun k hk => ?_⟩
      · exact (Function.forall_update_iff s.workers fun _ pc => pc = .exit ∨ pc = .gone → _).mpr
          ⟨by simp, fun j _ => ih.exited j⟩
      · cases hk
        exact i.isLt
      · cases hk
        refine (Function.forall_update_iff s.workers fun j pc =>
          j.val < i.val + 1 → pc ≠ .unborn).mpr ⟨by simp, fun j hji hj => ?_⟩
        exact ih.born i.val hnext j (by omega)
    | @enqueue p w pc halive moves =>
      have hmove := enqueueMove_of_step moves
      obtain ⟨-, hclosed, -⟩ := hmove.closed
      refine ⟨fun i hi => ?_, fun q hq => hclosed.trans (ih.waiting q hq), ih.spawned, ih.born⟩
      obtain ⟨hold, hbuffer⟩ := ih.exited i hi
      exact ⟨hclosed.trans hold, hmove.stays_drained hold hbuffer⟩
    | @worker i ok w pc halive moves =>
      have hmove := workerMove_of_step moves
      obtain ⟨-, hclosed⟩ := hmove.closed
      have hkept : s.shared.queue.closed = true ∧ s.shared.queue.buffer = [] →
          w.queue.closed = true ∧ w.queue.buffer = [] := fun hold =>
        ⟨hclosed.trans hold.1, hmove.stays_drained hold.2⟩
      refine ⟨?_, fun q hq => hclosed.trans (ih.waiting q hq), ih.spawned, fun k hk => ?_⟩
      · refine (Function.forall_update_iff s.workers fun _ pc => pc = .exit ∨ pc = .gone → _).mpr
          ⟨fun hpc => hkept ?_, fun j _ hj => hkept (ih.exited j hj)⟩
        rcases hmove.exited hpc with hexit | hdrained
        · exact ih.exited i (.inl hexit)
        · exact hdrained
      · exact (Function.forall_update_iff s.workers fun j pc => j.val < k → pc ≠ .unborn).mpr
          ⟨fun _ => hmove.not_unborn, fun j _ => ih.born k hk j⟩
    | @stop q w pc halive started moves =>
      have hmove := stopMove_of_step moves
      generalize hold : s.stoppers q = old at hmove
      -- a queue that is closed stays closed, and only `close` leads to the wait
      cases hmove with
      | closes => exact ⟨fun i hi => ⟨rfl, (ih.exited i hi).2⟩, fun _ _ => rfl, ih.spawned, ih.born⟩
      | begins | late | swaps | returns =>
          refine ⟨ih.exited, ?_, ih.spawned, ih.born⟩
          exact (Function.forall_update_iff s.stoppers fun _ pc => pc = .wait → _).mpr
            ⟨by simp, fun q' _ => ih.waiting q'⟩

/-! ### Complete runs -/

section

variable (hcomplete : Complete Writer.Step s) (halive : s.shared.panicked = false)
include hcomplete halive

/-- When no step can be made, the calls are done and the workers
wait for a closed queue to be drained. -/
theorem producers_done (p : P) : s.producers p = .done := by
  cases hstep : enqueueStep p s.shared (s.producers p) with
  | some next => exact absurd (.enqueue halive hstep) (hcomplete (.enqueue p) _)
  | none =>
    cases hpc : s.producers p with
    | done => rfl
    | idle | load | count | drop => simp [hpc, enqueueStep] at hstep
    | send | resend =>
        rw [hpc] at hstep
        cases hsend : s.shared.queue.send p <;> simp [enqueueStep, hsend] at hstep
    | evict =>
      rw [hpc] at hstep
      cases hreceive : s.shared.queue.receive <;> simp [enqueueStep, hreceive] at hstep

theorem started_of_complete (hdrains : Drains s) : s.Started := by
  cases hstart : s.starting with
  | idle => exact absurd (.observe 0 halive hstart) (hcomplete (.start 0) _)
  | spawn i =>
    have hle := hdrains.spawned i hstart
    rcases Nat.lt_or_eq_of_le hle with hlt | rfl
    · exact absurd (.spawn 0 ⟨i, hlt⟩ halive hstart) (hcomplete (.start 0) _)
    · exact hstart

/-- A worker that can make no step waits for an event, or is not
running. -/
theorem worker_stuck
    (i : Fin n) (hclosed : s.shared.queue.closed = true) : alive (s.workers i) = 0 := by
  cases hstep : workerStep true s.shared (s.workers i) with
  | some next => exact absurd (.worker halive hstep) (hcomplete (.worker i true) _)
  | none =>
    cases hpc : s.workers i with
    | unborn | gone => rfl
    | range =>
      rw [hpc] at hstep
      rcases s.shared.queue.receive_cases with
        ⟨p, rest, -, hreceive⟩ | ⟨-, ⟨-, hreceive⟩ | ⟨hopen, -⟩⟩
      · simp [workerStep, hreceive] at hstep
      · simp [workerStep, hreceive] at hstep
      · rw [hopen] at hclosed
        cases hclosed
    | take | attempt | sleep | processed | failed | finish | exit =>
        simp [hpc, workerStep] at hstep

theorem stoppers_done [Fintype P] (h : Writer.History capacity trace s) (q : Q) :
    s.stoppers q = .done := by
  have hdrains := drains h
  have hstarted := started_of_complete hcomplete halive hdrains
  cases hstep : stopStep s.shared (s.stoppers q) with
  | some next => exact absurd (.stop halive hstarted hstep) (hcomplete (.stop q) _)
  | none =>
    cases hpc : s.stoppers q with
    | done => rfl
    | idle | close => simp [hpc, stopStep] at hstep
    | swap =>
      rw [hpc] at hstep
      cases hflag : s.shared.closed <;> simp [stopStep, hflag] at hstep
    | wait =>
      -- all workers are gone, so the wait is over
      have hclosed := hdrains.waiting q hpc
      have hwg : s.shared.wg = 0 := by
        rw [← total_running h]
        have hsum : ∑ i, alive (s.workers i) = 0 :=
          Finset.sum_eq_zero fun i _ => worker_stuck hcomplete halive i hclosed
        have htotal : running.total s = 0 + (∑ _p : P, 0) + ∑ i, alive (s.workers i) := rfl
        rw [htotal, hsum]
        simp
      simp [hpc, stopStep, hwg] at hstep

end

/-! ### Sends on the closed queue -/

section

variable (h : Writer.History capacity trace s)
include h

/-- Once the queue was closed under a call, the call never gets
away. -/
theorem sending_of_not_clear (p : P)
    (hclose : ∃ e ∈ trace, ∃ q, e.2 = .stop q ∧ e.1.stoppers q = .close ∧
      sending (e.1.producers p) = true) :
    s.shared.queue.closed = true ∧ sending (s.producers p) = true := by
  induction h with
  | nil =>
    obtain ⟨e, he, -⟩ := hclose
    cases he
  | @snoc trace s s' t before hstep ih =>
    obtain ⟨e, he, q, hq, hpc, hsending⟩ := hclose
    rcases List.mem_append.mp he with he | he
    · -- the queue was closed before this step
      obtain ⟨hclosed, hkept⟩ := ih ⟨e, he, q, hq, hpc, hsending⟩
      cases hstep with
      | context | observe | spawn => exact ⟨hclosed, hkept⟩
      | @enqueue p' w pc halive moves =>
        have hmove := enqueueMove_of_step moves
        refine ⟨hmove.closed.2.1.trans hclosed, ?_⟩
        by_cases hp : p = p'
        · subst hp
          simpa [Writer.withEnqueue] using hmove.stays_sending hclosed hkept
        · simpa [Writer.withEnqueue, hp] using hkept
      | worker halive moves =>
        exact ⟨(workerMove_of_step moves).closed.2.trans hclosed, hkept⟩
      | @stop q' w pc halive started moves =>
        refine ⟨?_, hkept⟩
        have hmove := stopMove_of_step moves
        generalize s.stoppers q' = old at hmove
        cases hmove with
        | closes => rfl
        | _ => exact hclosed
    · -- it is closed now
      cases List.mem_singleton.mp he
      have hpc : s.stoppers q = .close := hpc
      cases hq
      cases hstep with
      | @stop _ w pc halive started moves =>
        rw [hpc] at moves
        cases stopMove_of_step moves
        exact ⟨rfl, hsending⟩

/-- A send on the closed queue is made by a call that the queue was
closed under. -/
theorem not_panicked (hclear : ClosesClear trace) :
    s.shared.panicked = false := by
  induction h with
  | nil => rfl
  | @snoc trace s s' t before hstep ih =>
    have hbefore : ClosesClear trace := fun e he => hclear e (List.mem_append_left _ he)
    have ih := ih hbefore
    cases hstep with
    | context | observe | spawn => exact ih
    | @enqueue p w pc halive moves =>
      have hmove := enqueueMove_of_step moves
      have hsending := sending_of_closed before hbefore (p := p)
      generalize s.producers p = old at hmove hsending
      cases hmove with
      | panics hclosed | panicsLate hclosed => cases hsending hclosed
      | _ => exact ih
    | @worker i ok w pc halive moves =>
      have hmove := workerMove_of_step moves
      generalize s.workers i = old at hmove
      cases hmove <;> exact ih
    | @stop q w pc halive started moves =>
      have hmove := stopMove_of_step moves
      generalize s.stoppers q = old at hmove
      cases hmove <;> exact ih

/-! ### The condition -/

/-- In the step of the entry, a `Stop` call returns: the one that
waits, or one that found the flag set. -/
def Returns (e : Writer P Q n × Thread P Q n) (q : Q) : Prop :=
  e.2 = .stop q ∧ (e.1.stoppers q = .wait ∨
    (e.1.stoppers q = .swap ∧ e.1.shared.closed = true))

/-- What a run of the writer promises: it does not send on the
closed queue, every `Stop` has returned, and none of them returned
while there was an event in the queue. -/
structure CleanShutdown (trace : List (Writer P Q n × Thread P Q n)) (s : Writer P Q n) :
    Prop where
  alive : s.shared.panicked = false
  returned : ∀ q, s.stoppers q = .done
  drained : ∀ e ∈ trace, ∀ q, Returns e q → e.1.shared.queue.buffer = []

/-- No `Stop` finds the flag set while there are events in the
queue. -/
def LateStopsDrained (trace : List (Writer P Q n × Thread P Q n)) : Prop :=
  ∀ e ∈ trace, ∀ q, e.2 = .stop q → e.1.stoppers q = .swap → e.1.shared.closed = true →
    e.1.shared.queue.buffer = []

/-- The `Stop` that waits returns when the queue is drained. -/
theorem drained_of_wait [Fintype P] (hn : 0 < n) {e : Writer P Q n × Thread P Q n}
    (he : e ∈ trace) {q : Q} (hq : e.2 = .stop q)
    (hpc : e.1.stoppers q = .wait) : e.1.shared.queue.buffer = [] := by
  obtain ⟨before, hbefore, s₁, hstep⟩ := h.entry he
  have hdrains := drains hbefore
  rw [hq] at hstep
  cases hstep with
  | @stop _ w pc halive started moves =>
    rw [hpc] at moves
    cases stopMove_of_step moves with
    | returns hwg =>
      -- the wait group is at zero, so the first worker is not running
      have hle := alive_le_total e.1 ⟨0, hn⟩
      rw [total_running hbefore, hwg] at hle
      have hborn := hdrains.born n started ⟨0, hn⟩ hn
      refine (hdrains.exited ⟨0, hn⟩ (.inr ?_)).2
      cases hworker : e.1.workers ⟨0, hn⟩ with
      | gone => rfl
      | unborn => exact absurd hworker hborn
      | _ =>
        rw [hworker] at hle
        exact absurd hle (by simp [alive])

end

end Decidable

/-- The writer has no endless run. A complete run ends in a clean
shutdown if and only if the queue was closed while no call was
between its check and its last send, and no `Stop` found the flag
set while there were events in the queue. -/
theorem shutdown_iff [Fintype P] [Fintype Q] [DecidableEq P] [DecidableEq Q] (c : Config) :
    (∀ s : Writer P Q c.workerCount, Terminates Writer.Step s) ∧
      ∀ (trace : List (Writer P Q c.workerCount × Thread P Q c.workerCount))
        (s : Writer P Q c.workerCount),
        Writer.History c.capacity trace s → Complete Writer.Step s →
          (CleanShutdown trace s ↔ ClosesClear trace ∧ LateStopsDrained trace) := by
  refine ⟨terminates_of_measure measure fun s t s' hstep => measure_lt hstep, ?_⟩
  intro trace s h hcomplete
  constructor
  · intro hclean
    refine ⟨fun e he q hq hpc p => ?_, fun e he q hq hpc hflag => ?_⟩
    · -- a call that the queue was closed under is never done
      by_contra hsending
      have hsending : sending (e.1.producers p) = true := by simpa using hsending
      have hkept := (sending_of_not_clear h p ⟨e, he, q, hq, hpc, hsending⟩).2
      rw [producers_done hcomplete hclean.alive p] at hkept
      cases hkept
    · exact hclean.drained e he q ⟨hq, .inr ⟨hpc, hflag⟩⟩
  · rintro ⟨hclear, hlate⟩
    have halive := not_panicked h hclear
    refine ⟨halive, fun q => stoppers_done hcomplete halive h q, ?_⟩
    rintro e he q ⟨hq, hwait | ⟨hswap, hflag⟩⟩
    · exact drained_of_wait h (Config.workerCount_pos c) he hq hwait
    · exact hlate e he q hq hswap hflag

theorem complete_of_done [DecidableEq P] [DecidableEq Q]
    (hcancelled : s.shared.cancelled = true) (hstarted : s.Started)
    (hproducers : ∀ p, s.producers p = .done) (hstoppers : ∀ q, s.stoppers q = .done)
    (hworkers : ∀ i, s.workers i = .gone) : Complete Writer.Step s := by
  intro t s' hstep
  cases hstep with
  | context halive hrunning =>
    rw [hcancelled] at hrunning
    cases hrunning
  | observe now halive hidle =>
    rw [hstarted] at hidle
    cases hidle
  | spawn now i halive hnext =>
    rw [hstarted, StartPc.spawn.injEq] at hnext
    exact absurd i.isLt (by omega)
  | @enqueue p w pc halive moves =>
    rw [hproducers p] at moves
    cases moves
  | @stop q w pc halive started moves =>
    rw [hstoppers q] at moves
    cases moves
  | @worker i ok w pc halive moves =>
    rw [hworkers i] at moves
    cases moves

/-- One worker and a queue of length one. -/
def smallConfig : Config := { queueSize := 1, workers := 1 }

/-- An event is persisted, and then the writer is stopped. -/
def orderly : List (Thread Unit Unit 1) :=
  [.start 1, .start 1, .enqueue (), .enqueue (), .enqueue (), .worker 0 true, .worker 0 true,
    .worker 0 true, .worker 0 true, .worker 0 true, .stop (), .stop (), .stop (), .worker 0 true,
    .worker 0 true, .stop (), .context]

/-- The orderly run ends in a clean shutdown. -/
theorem shutdown_iff_orderly :
    ∃ (trace : List (Writer Unit Unit smallConfig.workerCount ×
        Thread Unit Unit smallConfig.workerCount)) (s : Writer Unit Unit smallConfig.workerCount),
      Writer.History smallConfig.capacity trace s ∧ Complete Writer.Step s ∧
        CleanShutdown trace s := by
  obtain ⟨trace, s, hrun, htest⟩ := history_of_exec 1 orderly
    (fun trace s => decide (s.shared.cancelled = true ∧ s.starting = .spawn 1 ∧
      s.producers () = .done ∧ s.stoppers () = .done ∧ (∀ i, s.workers i = .gone) ∧
      (∀ e ∈ trace, e.2 = .stop () → e.1.stoppers () = .close →
        sending (e.1.producers ()) = false) ∧
      ∀ e ∈ trace, e.2 = .stop () → e.1.stoppers () = .swap → e.1.shared.closed = false))
    (by decide)
  obtain ⟨hcancelled, hstarted, hproducers, hstoppers, hworkers, hclear, hlate⟩ :=
    of_decide_eq_true htest
  have hcomplete : Complete Writer.Step s :=
    complete_of_done hcancelled hstarted (fun _ => hproducers) (fun _ => hstoppers) hworkers
  refine ⟨trace, s, hrun, hcomplete, ?_⟩
  refine ((shutdown_iff smallConfig).2 trace s hrun hcomplete).mpr ⟨?_, ?_⟩
  · exact fun e he q hq hpc p => hclear e he hq hpc
  · intro e he q hq hpc hflag
    rw [hlate e he hq hpc] at hflag
    cases hflag

/-- `Stop` closes the queue after `Enqueue` has found the flag
clear, and `Enqueue` sends. -/
def sendAfterClose : List (Thread Unit Unit 1) :=
  [.start 1, .start 1, .enqueue (), .enqueue (), .stop (), .stop (), .stop (), .enqueue ()]

/-- While the first `Stop` waits for the workers, the second one
returns. -/
def earlyReturn : List (Thread Unit Bool 1) :=
  [.start 1, .start 1, .enqueue (), .enqueue (), .enqueue (), .stop false, .stop false,
    .stop false, .stop true, .stop true]

/-- Both ways in which a shutdown can go wrong do happen: a send on
the closed queue, and a `Stop` that returns while an event is still
in the queue. -/
theorem send_after_close :
    (∃ trace s, Writer.History 1 trace (s : Writer Unit Unit 1) ∧ s.shared.panicked = true) ∧
      ∃ trace s, Writer.History 1 trace (s : Writer Unit Bool 1) ∧
        ∃ e ∈ trace, Returns e true ∧ e.1.shared.queue.buffer = [()] := by
  constructor
  · exact history_of_exec 1 sendAfterClose (fun _ s => s.shared.panicked) (by decide)
  · obtain ⟨trace, s, hrun, htest⟩ := history_of_exec 1 earlyReturn
      (fun trace _ => decide (∃ e ∈ trace, e.2 = .stop true ∧
        (e.1.stoppers true = .swap ∧ e.1.shared.closed = true) ∧
        e.1.shared.queue.buffer = [()])) (by decide)
    obtain ⟨e, he, hq, hswap, hbuffer⟩ := of_decide_eq_true htest
    exact ⟨trace, s, hrun, e, he, ⟨hq, .inr hswap⟩, hbuffer⟩

end KubeAtlas.Proofs.History
