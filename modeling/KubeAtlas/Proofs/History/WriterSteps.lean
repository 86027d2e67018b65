import KubeAtlas.Snapshot.Writer

/-!
# `KubeAtlas.Proofs.History.WriterSteps`: what a step of the history writer can do

`EnqueueMove`, `StopMove` and `WorkerMove` list what a step of each
kind of thread can do, with what it found. The step functions do
nothing else (`enqueueMove_of_step` and the like), so an invariant
is a case analysis over moves and never unfolds a step function.

The second part is what all developments about the writer share: the
flag is set before the queue is closed, and if no `Enqueue` call is
between its check and its last send when the queue is closed, then
none ever is while it is closed. What the threads hold together is
the total of a weight, and a step changes the share of one thread.
-/

set_option autoImplicit false

namespace KubeAtlas.Proofs.History

open Lib Snapshot

variable {P Q : Type} {n : Nat}

/-! ### Configurations -/

theorem Config.workerCount_pos (c : Config) : 0 < c.workerCount := by
  unfold Config.workerCount Config.withDefaults defaultWorkers
  dsimp only
  split <;> omega

theorem Config.capacity_pos (c : Config) : 0 < c.capacity := by
  unfold Config.capacity Config.withDefaults defaultQueueSize
  dsimp only
  split <;> omega

/-! ### Moves -/

/-- The shared state with another buffer. -/
def withBuffer (w : Shared P) (buffer : List P) : Shared P :=
  { w with queue := { w.queue with buffer := buffer } }

/-- What a step of the `Enqueue` call `p` can do. -/
inductive EnqueueMove (p : P) (w : Shared P) : EnqueuePc P → Shared P → EnqueuePc P → Prop
  | begins : EnqueueMove p w .idle w .load
  | passes (h : w.closed = false) : EnqueueMove p w .load w .send
  | refused (h : w.closed = true) : EnqueueMove p w .load w .drop
  | sends (h : w.queue.closed = false) :
      EnqueueMove p w .send (withBuffer w (w.queue.buffer ++ [p])) .done
  | full (h : w.queue.closed = false) : EnqueueMove p w .send w .evict
  | panics (h : w.queue.closed = true) : EnqueueMove p w .send { w with panicked := true } .send
  | evicts (oldest : P) (rest : List P) (h : w.queue.buffer = oldest :: rest) :
      EnqueueMove p w .evict (withBuffer w rest) (.count (some oldest))
  | evictsNothing (h : w.queue.closed = true) : EnqueueMove p w .evict w (.count none)
  | findsRoom : EnqueueMove p w .evict w .resend
  | counts (evicted : Option P) : EnqueueMove p w (.count evicted) w.incQueueDropped .resend
  | resends (h : w.queue.closed = false) :
      EnqueueMove p w .resend (withBuffer w (w.queue.buffer ++ [p])) .done
  | fullAgain (h : w.queue.closed = false) : EnqueueMove p w .resend w .drop
  | panicsLate (h : w.queue.closed = true) :
      EnqueueMove p w .resend { w with panicked := true } .resend
  | drops : EnqueueMove p w .drop w.incQueueDropped .done

variable {w w' : Shared P}

/-- The moves cover every step of an `Enqueue` call. -/
theorem enqueueMove_of_step {p : P} {pc pc' : EnqueuePc P}
    (h : enqueueStep p w pc = some (w', pc')) : EnqueueMove p w pc w' pc' := by
  cases pc with
  | load =>
    cases hclosed : w.closed with
    | false =>
      simp only [enqueueStep, hclosed] at h
      cases h
      exact .passes hclosed
    | true =>
      simp only [enqueueStep, hclosed] at h
      cases h
      exact .refused hclosed
  | send =>
    rcases w.queue.send_cases p with ⟨hclosed, hsend⟩ | ⟨hopen, hsend | hsend⟩
    all_goals
      simp only [enqueueStep, hsend] at h
      cases h
    · exact .panics hclosed
    · exact .full hopen
    · exact .sends hopen
  | evict =>
    rcases w.queue.receive_cases with
      ⟨oldest, rest, hbuffer, hreceive⟩ | ⟨-, ⟨hclosed, hreceive⟩ | ⟨-, hreceive⟩⟩
    all_goals
      simp only [enqueueStep, hreceive] at h
      cases h
    · exact .evicts oldest rest hbuffer
    · exact .evictsNothing hclosed
    · exact .findsRoom
  | resend =>
    rcases w.queue.send_cases p with ⟨hclosed, hsend⟩ | ⟨hopen, hsend | hsend⟩
    all_goals
      simp only [enqueueStep, hsend] at h
      cases h
    · exact .panicsLate hclosed
    · exact .fullAgain hopen
    · exact .resends hopen
  | done => cases h
  | _ =>
    cases h
    constructor

/-- What a step of a `Stop` call can do. -/
inductive StopMove (w : Shared P) : StopPc → Shared P → StopPc → Prop
  | begins : StopMove w .idle w .swap
  | late (h : w.closed = true) : StopMove w .swap w .done
  | swaps (h : w.closed = false) : StopMove w .swap { w with closed := true } .close
  | closes : StopMove w .close { w with queue := w.queue.close } .wait
  | returns (h : w.wg = 0) : StopMove w .wait w .done

/-- And every step of a `Stop`. -/
theorem stopMove_of_step {pc pc' : StopPc} (h : stopStep w pc = some (w', pc')) :
    StopMove w pc w' pc' := by
  cases pc with
  | swap =>
    cases hclosed : w.closed with
    | true =>
      simp only [stopStep, hclosed, if_true] at h
      cases h
      exact .late hclosed
    | false =>
      simp only [stopStep, hclosed, Bool.false_eq_true, if_false] at h
      cases h
      exact .swaps hclosed
  | wait =>
    by_cases hwg : w.wg = 0
    · simp only [stopStep, hwg, if_true] at h
      cases h
      exact .returns hwg
    · simp [stopStep, hwg] at h
  | done => cases h
  | _ =>
    cases h
    constructor

/-- What a step of a worker can do. -/
inductive WorkerMove (w : Shared P) : WorkerPc P → Shared P → WorkerPc P → Prop
  | takes (p : P) (rest : List P) (h : w.queue.buffer = p :: rest) :
      WorkerMove w .range (withBuffer w rest) (.take p)
  | drained (h : w.queue.buffer = []) (hclosed : w.queue.closed = true) :
      WorkerMove w .range w .exit
  | announces (p : P) :
      WorkerMove w (.take p) { w with inFlight := w.inFlight + 1 } (.attempt p (maxRetries - 1))
  | appends (p : P) (left : Nat) :
      WorkerMove w (.attempt p left) { w with sink := w.sink ++ [p] } (.processed p)
  | givesUp (p : P) : WorkerMove w (.attempt p 0) w (.failed p)
  | backsOff (p : P) (left : Nat) : WorkerMove w (.attempt p (left + 1)) w (.sleep p left)
  | wakes (p : P) (left : Nat) : WorkerMove w (.sleep p left) w (.attempt p left)
  | countsProcessed (p : P) : WorkerMove w (.processed p) w.incProcessed .finish
  | countsFailed (p : P) : WorkerMove w (.failed p) w.incWriteFailed .finish
  | finishes : WorkerMove w .finish { w with inFlight := w.inFlight - 1 } .range
  | exits : WorkerMove w .exit { w with wg := w.wg - 1 } .gone

/-- And every step of a worker, whatever the store answers. -/
theorem workerMove_of_step {ok : Bool} {pc pc' : WorkerPc P}
    (h : workerStep ok w pc = some (w', pc')) : WorkerMove w pc w' pc' := by
  cases pc with
  | unborn | gone => cases h
  | range =>
    rcases w.queue.receive_cases with
      ⟨p, rest, hbuffer, hreceive⟩ | ⟨hbuffer, ⟨hclosed, hreceive⟩ | ⟨-, hreceive⟩⟩
    all_goals
      simp only [workerStep, hreceive] at h
      cases h
    · exact .takes p rest hbuffer
    · exact .drained hbuffer hclosed
  | attempt p left =>
    cases ok with
    | true =>
      cases h
      exact .appends p left
    | false =>
      cases left with
      | zero =>
        cases h
        exact .givesUp p
      | succ left =>
        cases h
        exact .backsOff p left
  | _ =>
    cases h
    constructor

/-! ### What moves leave alone -/

section Frame

variable {w w' : Shared P}

/-- An `Enqueue` call closes nothing. -/
theorem EnqueueMove.closed {p : P} {pc pc' : EnqueuePc P} (h : EnqueueMove p w pc w' pc') :
    w'.closed = w.closed ∧ w'.queue.closed = w.queue.closed ∧ w'.wg = w.wg := by
  cases h <;> exact ⟨rfl, rfl, rfl⟩

theorem WorkerMove.closed {pc pc' : WorkerPc P} (h : WorkerMove w pc w' pc') :
    w'.closed = w.closed ∧ w'.queue.closed = w.queue.closed := by
  cases h <;> exact ⟨rfl, rfl⟩

/-- A `Stop` moves no event. -/
theorem StopMove.queue {pc pc' : StopPc} (h : StopMove w pc w' pc') :
    w'.metrics = w.metrics ∧ w'.queue.buffer = w.queue.buffer ∧ w'.sink = w.sink ∧
      w'.wg = w.wg := by
  cases h <;> exact ⟨rfl, rfl, rfl, rfl⟩

end Frame

/-! ### Totals -/

/-- A weight for what the threads share and for each thread. -/
structure Weights (P : Type) where
  shared : Shared P → Nat := fun _ => 0
  producer : P → EnqueuePc P → Nat := fun _ _ => 0
  worker : WorkerPc P → Nat := fun _ => 0

section Total

variable [Fintype P] (W : Weights P) (s : Writer P Q n)

/-- The weight of a writer with its calls and workers. -/
def Weights.total : Nat :=
  W.shared s.shared + (∑ p, W.producer p (s.producers p)) + ∑ i, W.worker (s.workers i)

/-- A step of a call changes two terms of the total: the shared one
and its own. -/
theorem Weights.total_enqueue [DecidableEq P] (p : P) (w : Shared P) (pc : EnqueuePc P) :
    W.total (s.withEnqueue p w pc) + (W.shared s.shared + W.producer p (s.producers p))
      = W.total s + (W.shared w + W.producer p pc) := by
  have hsum := Transition.sum_update_add W.producer s.producers p pc
  unfold total Writer.withEnqueue
  dsimp only
  omega

/-- The same for a worker. -/
theorem Weights.total_worker (i : Fin n) (w : Shared P) (pc : WorkerPc P) :
    W.total (s.withWorker i w pc) + (W.shared s.shared + W.worker (s.workers i))
      = W.total s + (W.shared w + W.worker pc) := by
  have hsum := Transition.sum_update_add (fun _ => W.worker) s.workers i pc
  unfold total Writer.withWorker
  dsimp only
  omega

theorem Weights.total_spawn (i : Fin n) :
    W.total (s.spawn i) + (W.shared s.shared + W.worker (s.workers i))
      = W.total s + (W.shared { s.shared with wg := s.shared.wg + 1 } + W.worker .range) := by
  have hsum := Transition.sum_update_add (fun _ => W.worker) s.workers i .range
  unfold total Writer.spawn
  dsimp only
  omega

/-- A step of a thread that has no weight. -/
theorem Weights.total_shared {s s' : Writer P Q n} (hproducers : s'.producers = s.producers)
    (hworkers : s'.workers = s.workers) :
    W.total s' + W.shared s.shared = W.total s + W.shared s'.shared := by
  unfold total
  rw [hproducers, hworkers]
  omega

end Total

/-! ### The closing of the queue -/

/-- Between the check of `closed` and the last send. -/
def sending : EnqueuePc P → Bool
  | .send | .evict | .count _ | .resend => true
  | .idle | .load | .drop | .done => false

/-- No call is between its check and its last send when the queue is
closed. -/
def ClosesClear (trace : List (Writer P Q n × Thread P Q n)) : Prop :=
  ∀ e ∈ trace, ∀ q, e.2 = .stop q → e.1.stoppers q = .close →
    ∀ p, sending (e.1.producers p) = false

variable [DecidableEq P] [DecidableEq Q] {capacity : Nat}
  {trace : List (Writer P Q n × Thread P Q n)} {s : Writer P Q n}

/-- The flag is set before the queue is closed. -/
structure FlagFirst (s : Writer P Q n) : Prop where
  queue : s.shared.queue.closed = true → s.shared.closed = true
  closing : ∀ q, s.stoppers q = .close ∨ s.stoppers q = .wait → s.shared.closed = true

variable {s' : Writer P Q n} {t : Thread P Q n}

/-- Step: the flag is set before the queue is closed. -/
theorem FlagFirst.step (hs : FlagFirst s) (h : s.Step t s') : FlagFirst s' := by
  cases h with
  | context | observe | spawn => exact ⟨hs.queue, hs.closing⟩
  | @enqueue p w pc alive moves =>
    obtain ⟨hclosed, hqueue, -⟩ := (enqueueMove_of_step moves).closed
    exact ⟨by simpa [Writer.withEnqueue, hclosed, hqueue] using hs.queue,
      by simpa [Writer.withEnqueue, hclosed] using hs.closing⟩
  | @worker i ok w pc alive moves =>
    obtain ⟨hclosed, hqueue⟩ := (workerMove_of_step moves).closed
    exact ⟨by simpa [Writer.withWorker, hclosed, hqueue] using hs.queue,
      by simpa [Writer.withWorker, hclosed] using hs.closing⟩
  | @stop q w pc alive started moves =>
    have hmove := stopMove_of_step moves
    generalize hold : s.stoppers q = old at hmove
    refine ⟨fun hqueue => ?_, ?_⟩
    · cases hmove with
      | begins | late | returns => exact hs.queue hqueue
      | swaps => rfl
      | closes => exact hs.closing q (.inl hold)
    · -- a flag that is set stays set
      have hkept : s.shared.closed = true → w.closed = true := by
        intro hset
        cases hmove with
        | swaps => rfl
        | _ => exact hset
      refine (Function.forall_update_iff s.stoppers fun _ pc => pc = .close ∨ pc = .wait →
        w.closed = true).mpr ⟨fun hpc => ?_, fun q' _ hq' => hkept (hs.closing q' hq')⟩
      cases hmove with
      | swaps => rfl
      | closes => exact hs.closing q (.inl hold)
      | begins | late | returns => simp at hpc

/-- Run: so a closed queue means a set flag, in every reachable
state. -/
theorem flagFirst (h : Writer.History capacity trace s) : FlagFirst s :=
  h.inv_state (fun _ _ _ hs hstep => FlagFirst.step hs hstep)
    ⟨by simp [Writer.new], by simp [Writer.new]⟩

/-- While the queue is closed, no call is between its check and its
last send. -/
theorem sending_of_closed (h : Writer.History capacity trace s) (hclear : ClosesClear trace)
    (hclosed : s.shared.queue.closed = true) (p : P) : sending (s.producers p) = false := by
  induction h generalizing p with
  | nil => simp [Writer.new] at hclosed
  | @snoc trace s s' t before hstep ih =>
    have hbefore : ClosesClear trace := fun e he => hclear e (List.mem_append_left _ he)
    have ih := ih hbefore
    have hflag := flagFirst before
    cases hstep with
    | context | observe | spawn => exact ih hclosed p
    | @enqueue p' w pc alive moves =>
      have hmove := enqueueMove_of_step moves
      have hqueue : s.shared.queue.closed = true := hmove.closed.2.1.symm.trans hclosed
      show sending (Function.update s.producers p' pc p) = false
      by_cases hp : p = p'
      · subst hp
        rw [Function.update_self]
        have hold := ih hqueue p
        generalize s.producers p = old at hmove hold
        cases hmove with
        | begins | refused | drops => rfl
        | passes hopen =>
          -- the queue is closed, so the flag is set
          rw [hflag.queue hqueue] at hopen
          cases hopen
        | _ => cases hold
      · rw [Function.update_of_ne hp]
        exact ih hqueue p
    | @worker i ok w pc alive moves =>
      exact ih ((workerMove_of_step moves).closed.2.symm.trans hclosed) p
    | @stop q w pc alive started moves =>
      have hmove := stopMove_of_step moves
      generalize hold : s.stoppers q = old at hmove
      cases hmove with
      | closes => exact hclear (s, .stop q) (by simp) q rfl hold p
      | _ => exact ih hclosed p

/-- So a call that is there finds the queue open. -/
theorem open_of_sending (h : Writer.History capacity trace s) (hclear : ClosesClear trace) (p : P)
    (hsending : sending (s.producers p) = true) : s.shared.queue.closed = false := by
  by_contra hclosed
  rw [sending_of_closed h hclear (by simpa using hclosed) p] at hsending
  cases hsending

/-! ### Schedules -/

theorem step_of_next (h : s.next t = some s') :
    s.Step t s' := by
  unfold Writer.next at h
  split at h
  · cases h
  · rename_i halive
    have halive : s.shared.panicked = false := Bool.eq_false_iff.mpr halive
    cases t with
    | context =>
      dsimp only at h
      split at h
      · cases h
      · rename_i hrunning
        cases h
        exact .context halive (Bool.eq_false_iff.mpr hrunning)
    | start now =>
      dsimp only at h
      split at h
      · rename_i hidle
        cases h
        exact .observe now halive hidle
      · rename_i i hnext
        split at h
        · rename_i hi
          cases h
          exact .spawn now ⟨i, hi⟩ halive hnext
        · cases h
    | enqueue p =>
      dsimp only at h
      split at h
      · rename_i w pc hmoves
        cases h
        exact .enqueue halive hmoves
      · cases h
    | stop q =>
      dsimp only at h
      split at h
      · cases h
      · rename_i hstarted
        split at h
        · rename_i w pc hmoves
          cases h
          exact .stop halive (not_not.mp hstarted) hmoves
        · cases h
    | worker i ok =>
      dsimp only at h
      split at h
      · rename_i w pc hmoves
        cases h
        exact .worker halive hmoves
      · cases h

/-- A schedule whose outcome passes a test gives a history that
does. -/
theorem history_of_exec (capacity : Nat) (ts : List (Thread P Q n))
    (test : List (Writer P Q n × Thread P Q n) → Writer P Q n → Bool)
    (h : (Transition.exec Writer.next (Writer.new capacity) ts).any (fun r => test r.1 r.2) =
      true) :
    ∃ trace s, Writer.History capacity trace s ∧ test trace s = true :=
  Transition.exists_run_of_exec (fun _ _ _ => step_of_next) (Writer.new capacity) ts test h

/-! ### The start -/

/-- A worker that `Start` has not come to has not been spawned. -/
def Unspawned (s : Writer P Q n) (i : Fin n) : Prop :=
  s.starting = .idle ∨ ∃ k ≤ i.val, s.starting = .spawn k

theorem unborn_of_unspawned (h : Writer.History capacity trace s) {i : Fin n}
    (hi : Unspawned s i) : s.workers i = .unborn := by
  induction h generalizing i with
  | nil => rfl
  | @snoc trace s s' t before hstep ih =>
    cases hstep with
    | context | enqueue | stop => exact ih hi
    | observe now alive idle => exact ih (.inl idle)
    | spawn now j alive next =>
      rcases hi with hi | ⟨k, hk, hi⟩
      · cases hi
      · cases hi
        have hne : i ≠ j := by
          omega
        show Function.update s.workers j .range i = .unborn
        rw [Function.update_of_ne hne]
        exact ih (.inr ⟨j.val, by omega, next⟩)
    | @worker j ok w pc alive moves =>
      have hborn : s.workers j ≠ .unborn := by
        intro hunborn
        rw [hunborn] at moves
        cases moves
      have hne : i ≠ j := by
        rintro rfl
        exact hborn (ih hi)
      show Function.update s.workers j pc i = .unborn
      rw [Function.update_of_ne hne]
      exact ih hi

/-- Two weights whose totals are related at first are related all
along a history, if no move breaks the relation. -/
theorem Weights.total_rel [Fintype P] {W W' : Weights P} {R : Nat → Nat → Prop}
    (hR : ∀ {a a' b b' x x' y y' : Nat}, R a b → R (x' + y) (x + y') → a' + x = a + x' →
      b' + y = b + y' → R a' b')
    (h : Writer.History capacity trace s)
    (hnew : R (W.total (.new capacity : Writer P Q n)) (W'.total (.new capacity : Writer P Q n)))
    (hframe : ∀ w w' : Shared P, w'.metrics = w.metrics → w'.queue.buffer = w.queue.buffer →
      w'.sink = w.sink → w'.wg = w.wg → R (W.shared w' + W'.shared w) (W.shared w + W'.shared w'))
    (hspawn : ∀ w : Shared P,
      R (W.shared { w with wg := w.wg + 1 } + W.worker .range + (W'.shared w + W'.worker .unborn))
        (W.shared w + W.worker .unborn + (W'.shared { w with wg := w.wg + 1 } + W'.worker .range)))
    (henqueue : ∀ before (s : Writer P Q n) p w pc, Writer.History capacity before s →
      before ⊆ trace → R (W.total s) (W'.total s) → EnqueueMove p s.shared (s.producers p) w pc →
      R (W.shared w + W.producer p pc + (W'.shared s.shared + W'.producer p (s.producers p)))
        (W.shared s.shared + W.producer p (s.producers p) + (W'.shared w + W'.producer p pc)))
    (hworker : ∀ before (s : Writer P Q n) i w pc, Writer.History capacity before s →
      before ⊆ trace → R (W.total s) (W'.total s) → WorkerMove s.shared (s.workers i) w pc →
      R (W.shared w + W.worker pc + (W'.shared s.shared + W'.worker (s.workers i)))
        (W.shared s.shared + W.worker (s.workers i) + (W'.shared w + W'.worker pc))) :
    R (W.total s) (W'.total s) := by
  induction h with
  | nil => exact hnew
  | @snoc trace s s' t before hstep ih =>
    have hbefore {b : List (Writer P Q n × Thread P Q n)} (hsub : b ⊆ trace) :
        b ⊆ trace ++ [(s, t)] := List.Subset.trans hsub (List.subset_append_left _ _)
    have ih := ih (fun b s p w pc hs hsub => henqueue b s p w pc hs (hbefore hsub))
      fun b s i w pc hs hsub => hworker b s i w pc hs (hbefore hsub)
    have hstays (s' : Writer P Q n) (hp : s'.producers = s.producers)
        (hw : s'.workers = s.workers) (hshared : _) : R (W.total s') (W'.total s') :=
      hR ih hshared (W.total_shared hp hw) (W'.total_shared hp hw)
    cases hstep with
    | context | observe => exact hstays _ rfl rfl (hframe _ _ rfl rfl rfl rfl)
    | stop alive started moves =>
      obtain ⟨hmetrics, hbuffer, hsink, hwg⟩ := (stopMove_of_step moves).queue
      exact hstays _ rfl rfl (hframe _ _ hmetrics hbuffer hsink hwg)
    | spawn now i alive next =>
      have hunborn := unborn_of_unspawned before (.inr ⟨i.val, le_rfl, next⟩)
      exact hR ih (hspawn _) (hunborn ▸ W.total_spawn s i) (hunborn ▸ W'.total_spawn s i)
    | enqueue alive moves =>
      exact hR ih (henqueue _ s _ _ _ before (hbefore (List.Subset.refl _)) ih
        (enqueueMove_of_step moves)) (W.total_enqueue s _ _ _) (W'.total_enqueue s _ _ _)
    | worker alive moves =>
      exact hR ih (hworker _ s _ _ _ before (hbefore (List.Subset.refl _)) ih
        (workerMove_of_step moves)) (W.total_worker s _ _ _) (W'.total_worker s _ _ _)

end KubeAtlas.Proofs.History
