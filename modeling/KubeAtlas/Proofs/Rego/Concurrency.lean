import KubeAtlas.Rego.Cache

/-!
# `KubeAtlas.Proofs.Rego.Concurrency`: concurrent calls of the evaluation cache

A call that finds an evaluation of its key in progress waits for it
and looks again. If it finds nothing then, because the evaluation
failed or its result is already evicted, it goes on as if it held
the mutex. It writes the map without it and unlocks a mutex that is
free, which ends the process, or that another call has locked.

A run in which no call gets there keeps the discipline: the mutex
belongs to the call that locked it, an entry of the map to the one
call that evaluates its key, and a wait group is done when its call
leaves the map. These facts form one invariant, from which a call
that has not returned can always be found a step. Nothing is assumed
of the LRU library for this.

Whatever the calls do to each other, `returned_evaluated` holds in
all runs: what a call returns is what an evaluation of its own key
returned. Here the library has to be `Lawful`.
-/

set_option autoImplicit false

namespace KubeAtlas.Proofs.Rego

open Function (update)
open Lib KubeAtlas.Rego

variable {S T K V E : Type}

/-! ### Places -/

/-- Between `Lock` and `Unlock`. -/
def holds : Pc T V E → Bool
  | .lookup | .release _ | .enter | .unlock | .deferDelete _ | .deferUnlock _ => true
  | _ => false

/-- Before a call of `Unlock`. -/
def unlocks : Pc T V E → Bool
  | .release _ | .unlock | .deferUnlock _ => true
  | _ => false

/-- Before an access to the map. -/
def accesses : Pc T V E → Bool
  | .lookup | .enter | .deferDelete _ => true
  | _ => false

/-- While the wait group of the call is in the map. -/
def leads : Pc T V E → Bool
  | .unlock | .miss | .evaluate | .add _ | .deferLock _ | .deferDelete _ => true
  | _ => false

/-- Until `Done`. -/
def pending : Pc T V E → Bool
  | .deferUnlock _ | .deferDone _ => true
  | pc => leads pc

/-- The number of operations that are left. -/
def work : Pc T V E → Nat
  | .get => 18
  | .lock => 17
  | .lookup => 16
  | .release _ => 15
  | .wait _ => 14
  | .recheck => 13
  | .enter => 12
  | .unlock => 11
  | .miss => 10
  | .evaluate => 9
  | .add _ => 8
  | .deferLock _ => 7
  | .deferDelete _ => 6
  | .deferUnlock _ => 5
  | .deferDone _ => 4
  | .hit _ => 1
  | .returned _ => 0

variable {c c' : Shared S T K} {t : T}

/-- A mutex can be locked if it is free. -/
theorem lock_eq_some (h : c.lock t = some c') :
    c.mu = none ∧ c' = { c with mu := some t } := by
  unfold Shared.lock at h
  cases hmu : c.mu with
  | none =>
    rw [hmu] at h
    cases h
    exact ⟨rfl, rfl⟩
  | some u =>
    rw [hmu] at h
    cases h

/-- `Unlock` frees the mutex, or finds it free. -/
theorem mu_unlock (c : Shared S T K) : c.unlock.mu = none := by
  unfold Shared.unlock
  cases c.mu <;> rfl

/-- `Unlock` leaves the LRU cache alone. -/
theorem lru_unlock (c : Shared S T K) : c.unlock.lru = c.lru := by
  unfold Shared.unlock
  cases c.mu <;> rfl

/-! ### Moves -/

section Moves

variable [DecidableEq T] [DecidableEq K]

/-- What a step of the call `t` can do. -/
inductive CallMove (ops : CacheOps S K V) (t : T) (key : K) (answer : Except E V)
    (c : Shared S T K) : Pc T V E → Shared S T K → Pc T V E → Prop
  | finds (v : V) (h : (ops.get c.lru key).1 = some v) : CallMove ops t key answer c .get
      { c with lru := (ops.get c.lru key).2 } (.hit v)
  | misses : CallMove ops t key answer c .get { c with lru := (ops.get c.lru key).2 } .lock
  | returns (v : V) : CallMove ops t key answer c (.hit v) c.incCacheHit (.returned (.ok v))
  | locks (h : c.mu = none) :
      CallMove ops t key answer c .lock { c with mu := some t } .lookup
  | follows (wg : T) (h : c.inflight key = some wg) :
      CallMove ops t key answer c .lookup c (.release wg)
  | begins (h : c.inflight key = none) : CallMove ops t key answer c .lookup c .enter
  | releases (wg : T) : CallMove ops t key answer c (.release wg) c.unlock (.wait wg)
  | wakes (wg : T) (h : c.counter wg = 0) : CallMove ops t key answer c (.wait wg) c .recheck
  | rechecks (v : V) (h : (ops.get c.lru key).1 = some v) :
      CallMove ops t key answer c .recheck { c with lru := (ops.get c.lru key).2 } (.hit v)
  | fallsThrough (h : (ops.get c.lru key).1 = none) :
      CallMove ops t key answer c .recheck { c with lru := (ops.get c.lru key).2 } .enter
  | enters : CallMove ops t key answer c .enter
      { c with inflight := update c.inflight key (some t)
               counter := update c.counter t 1 } .unlock
  | unlocks : CallMove ops t key answer c .unlock c.unlock .miss
  | counts : CallMove ops t key answer c .miss c.incCacheMiss .evaluate
  | evaluates (v : V) (h : answer = .ok v) : CallMove ops t key answer c .evaluate c (.add v)
  | fails (err : E) (h : answer = .error err) :
      CallMove ops t key answer c .evaluate c (.deferLock (.error err))
  | adds (v : V) : CallMove ops t key answer c (.add v) { c with lru := ops.add c.lru key v }
      (.deferLock (.ok v))
  | deferLocks (r : Except E V) (h : c.mu = none) :
      CallMove ops t key answer c (.deferLock r) { c with mu := some t } (.deferDelete r)
  | deletes (r : Except E V) : CallMove ops t key answer c (.deferDelete r)
      { c with inflight := update c.inflight key none } (.deferUnlock r)
  | deferUnlocks (r : Except E V) :
      CallMove ops t key answer c (.deferUnlock r) c.unlock (.deferDone r)
  | dones (r : Except E V) : CallMove ops t key answer c (.deferDone r)
      { c with counter := update c.counter t 0 } (.returned r)

variable {ops : CacheOps S K V} {pc pc' : Pc T V E}

section

variable {key : K} {answer : Except E V}

/-- A step of the code is one of the moves. -/
theorem callMove_of_step (h : callStep ops t key answer c pc = some (c', pc')) :
    CallMove ops t key answer c pc c' pc' := by
  cases pc with
  | get =>
    simp only [callStep] at h
    cases hfound : (ops.get c.lru key).1 with
    | none =>
      rw [hfound] at h
      cases h
      exact .misses
    | some v =>
      rw [hfound] at h
      cases h
      exact .finds v hfound
  | lock =>
    obtain ⟨c₁, hlock, hcons⟩ := Option.map_eq_some_iff.mp h
    cases hcons
    obtain ⟨hmu, rfl⟩ := lock_eq_some hlock
    exact .locks hmu
  | lookup =>
    simp only [callStep] at h
    cases hfound : c.inflight key with
    | none =>
      rw [hfound] at h
      cases h
      exact .begins hfound
    | some wg =>
      rw [hfound] at h
      cases h
      exact .follows wg hfound
  | wait wg =>
    simp only [callStep] at h
    split at h
    · next hcounter =>
        cases h
        exact .wakes wg hcounter
    · cases h
  | recheck =>
    simp only [callStep] at h
    cases hfound : (ops.get c.lru key).1 with
    | none =>
      rw [hfound] at h
      cases h
      exact .fallsThrough hfound
    | some v =>
      rw [hfound] at h
      cases h
      exact .rechecks v hfound
  | evaluate =>
    cases answer with
    | ok v =>
      cases h
      exact .evaluates v rfl
    | error err =>
      cases h
      exact .fails err rfl
  | deferLock r =>
    obtain ⟨c₁, hlock, hcons⟩ := Option.map_eq_some_iff.mp h
    cases hcons
    obtain ⟨hmu, rfl⟩ := lock_eq_some hlock
    exact .deferLocks r hmu
  | returned r => cases h
  | _ =>
    cases h
    constructor

/-- A call comes nearer to its end with every step. -/
theorem CallMove.work (h : CallMove ops t key answer c pc c' pc') : work pc' < work pc := by
  cases h <;> simp [Rego.work]

/-- Only `Lock` makes a call the one that locked the mutex, and it
stays so up to `Unlock`. -/
theorem CallMove.owner {u : T} (h : CallMove ops t key answer c pc c' pc')
    (hmu : c'.mu = some u) :
    (u = t ∧ holds pc' = true) ∨ (c.mu = some u ∧ (holds pc = true → holds pc' = true)) := by
  have hunlock (hmu : c.unlock.mu = some u) : False := by
    rw [mu_unlock] at hmu
    cases hmu
  cases h with
  | locks | deferLocks =>
    cases hmu
    exact .inl ⟨rfl, rfl⟩
  | releases | unlocks | deferUnlocks => exact (hunlock hmu).elim
  | follows | begins | enters | deletes => exact .inr ⟨hmu, fun _ => rfl⟩
  | _ => exact .inr ⟨hmu, fun hholds => nomatch hholds⟩

end

section Steps

variable {key : T → K} {s s' : Calls S T K V E}

/-- A step of the system is a move of one call, and the process is
still alive. -/
theorem move_of_step {l : T × Except E V} (h : s.Step ops key l s') :
    s.shared.fatal = false ∧ ∃ c pc, CallMove ops l.1 (key l.1) l.2 s.shared (s.pc l.1) c pc ∧
      s' = s.after l.1 c pc := by
  cases h with
  | call alive moves => exact ⟨alive, _, _, callMove_of_step moves, rfl⟩

/-- What `Calls.next` computes is a step. -/
theorem step_of_next {l : T × Except E V} (h : s.next ops key l = some s') :
    s.Step ops key l s' := by
  unfold Calls.next at h
  split at h
  · cases h
  · next halive =>
      cases hmoves : callStep ops l.1 (key l.1) l.2 s.shared (s.pc l.1) with
      | none =>
        rw [hmoves] at h
        cases h
      | some r =>
        rw [hmoves] at h
        cases h
        exact .call (by simpa using halive) hmoves

/-- A schedule whose outcome passes a test gives a history that
does. -/
theorem history_of_exec (ops : CacheOps S K V) (key : T → K) (capacity : Nat)
    (ls : List (T × Except E V))
    (test : List (Calls S T K V E × (T × Except E V)) → Calls S T K V E → Bool)
    (h : (Transition.exec (Calls.next ops key) (Calls.new ops capacity) ls).any
      (fun r => test r.1 r.2) = true) :
    ∃ trace s, Calls.History ops key capacity trace s ∧ test trace s = true :=
  Transition.exists_run_of_exec (fun _ _ _ => step_of_next) (Calls.new ops capacity) ls test h

/-- Every step is one operation of one call. -/
theorem terminates [Fintype T] (s : Calls S T K V E) :
    Transition.Terminates (Calls.Step ops key) s := by
  refine Transition.terminates_of_measure (fun s => ∑ t, work (s.pc t)) ?_ s
  intro s l s' hstep
  obtain ⟨_, c, pc, hmove, rfl⟩ := move_of_step hstep
  have hsum := Transition.sum_update_add (fun _ => work) s.pc l.1 pc
  have hwork := hmove.work
  show ∑ t, work (update s.pc l.1 pc t) < ∑ t, work (s.pc t)
  omega

end Steps

end Moves

/-! ### The discipline -/

/-- The call finds no result after it has waited. -/
def FallsThrough (ops : CacheOps S K V) (key : T → K) (s : Calls S T K V E) (t : T) : Prop :=
  s.pc t = .recheck ∧ (ops.get s.shared.lru (key t)).1 = none

instance [DecidableEq T] [DecidableEq V] [DecidableEq E] (ops : CacheOps S K V)
    (key : T → K) (s : Calls S T K V E) (t : T) : Decidable (FallsThrough ops key s t) :=
  inferInstanceAs (Decidable (_ ∧ _))

/-- What holds as long as no call falls through. -/
structure Orderly (key : T → K) (s : Calls S T K V E) : Prop where
  alive : s.shared.fatal = false
  mutex : ∀ t, s.shared.mu = some t ↔ holds (s.pc t) = true
  inflight : ∀ k t, s.shared.inflight k = some t ↔ key t = k ∧ leads (s.pc t) = true
  entering : ∀ t, s.pc t = .enter → s.shared.inflight (key t) = none
  counter : ∀ t, s.shared.counter t = if pending (s.pc t) then 1 else 0

section Orderly

variable {key : T → K} {s : Calls S T K V E} {t : T} {old pc : Pc T V E}

/-- At first no call has done anything. -/
theorem orderly_new (ops : CacheOps S K V) (key : T → K) (capacity : Nat) :
    Orderly key (Calls.new ops capacity : Calls S T K V E) where
  alive := rfl
  mutex t := by simp [Calls.new, holds]
  inflight k t := by simp [Calls.new, leads]
  entering t h := by cases h
  counter t := by simp [Calls.new, pending, leads]

/-- Two calls that hold the mutex are one. -/
theorem Orderly.eq_of_holds (h : Orderly key s) {u : T} (ht : holds (s.pc t) = true)
    (hu : holds (s.pc u) = true) : u = t := by
  have hmu := (h.mutex u).mpr hu
  rw [(h.mutex t).mpr ht] at hmu
  cases hmu
  rfl

/-- Two calls that evaluate one key are one. -/
theorem Orderly.eq_of_leads (h : Orderly key s) {u : T} (ht : leads (s.pc t) = true)
    (hu : leads (s.pc u) = true) (hkey : key u = key t) : u = t := by
  have hin := (h.inflight (key t) u).mpr ⟨hkey, hu⟩
  rw [(h.inflight (key t) t).mpr ⟨rfl, ht⟩] at hin
  cases hin
  rfl

/-- A token that nobody has is taken by `t`. -/
theorem taken {p q : T → Prop} (h : ∀ u, none = some u ↔ p u) (ht : q t)
    (hq : ∀ u ≠ t, q u ↔ p u) (u : T) : some t = some u ↔ q u := by
  by_cases hu : u = t
  · subst hu
    simp [ht]
  · rw [hq u hu, ← h u]
    simp [Ne.symm hu]

/-- The token that `t` has is given back. -/
theorem released {o : Option T} {p q : T → Prop} (h : ∀ u, o = some u ↔ p u) (hp : p t)
    (ht : ¬q t) (hq : ∀ u ≠ t, q u ↔ p u) (u : T) : none = some u ↔ q u := by
  by_cases hu : u = t
  · subst hu
    simp [ht]
  · rw [hq u hu, ← h u, (h t).mpr hp]
    simp [Ne.symm hu]

variable [DecidableEq T]

/-- A change of place that an observer does not see. -/
theorem observe_update {A : Type} (f : Pc T V E → A) (pc : Pc T V E) (hpc : s.pc t = old)
    (h : f pc = f old) (u : T) : f (update s.pc t pc u) = f (s.pc u) := by
  by_cases hu : u = t
  · subst hu
    rw [Function.update_self, h, hpc]
  · rw [Function.update_of_ne hu]

section

variable (h : Orderly key s)
include h

/-- The mutex is not seen by a step that stays on its side of `Lock`
and `Unlock`. -/
theorem Orderly.mutex_after (hpc : s.pc t = old) (hholds : holds pc = holds old)
    (u : T) : s.shared.mu = some u ↔ holds (update s.pc t pc u) = true := by
  rw [observe_update holds pc hpc hholds]
  exact h.mutex u

/-- Nor is the map by a step that leaves the wait group of its call
there, or out of it. -/
theorem Orderly.inflight_after (hpc : s.pc t = old)
    (hleads : leads pc = leads old) (k : K) (u : T) :
    s.shared.inflight k = some u ↔ key u = k ∧ leads (update s.pc t pc u) = true := by
  rw [observe_update leads pc hpc hleads]
  exact h.inflight k u

/-- A step of `t` that writes the entry of its key does not change
what holds of the others. -/
theorem Orderly.inflight_update [DecidableEq K] {o : Option T}
    (ho : ∀ u, o = some u ↔ key u = key t ∧ leads (update s.pc t pc u) = true)
    (k : K) (u : T) : update s.shared.inflight (key t) o k = some u ↔
      key u = k ∧ leads (update s.pc t pc u) = true := by
  by_cases hk : k = key t
  · subst hk
    rw [Function.update_self]
    exact ho u
  · rw [Function.update_of_ne hk, h.inflight k u]
    by_cases hu : u = t
    · subst hu
      simp [Ne.symm hk]
    · rw [Function.update_of_ne hu]

/-- Nor is the wait group by a step that does not come to `Done`. -/
theorem Orderly.counter_after (hpc : s.pc t = old) (hpending : pending pc = pending old) (u : T) :
    s.shared.counter u = if pending (update s.pc t pc u) then 1 else 0 := by
  rw [observe_update pending pc hpc hpending]
  exact h.counter u

/-- A step that sets the counter of its own wait group. -/
theorem Orderly.counter_update {n : Nat} (hn : n = if pending pc then 1 else 0)
    (u : T) : update s.shared.counter t n u =
      if pending (update s.pc t pc u) then 1 else 0 := by
  by_cases hu : u = t
  · subst hu
    rw [Function.update_self, Function.update_self, hn]
  · rw [Function.update_of_ne hu, Function.update_of_ne hu]
    exact h.counter u

end

variable {c : Shared S T K}

/-- Who is about to enter after a step of `t` is `t` itself, or was
so before. -/
theorem entering_after (ht : pc = .enter → c.inflight (key t) = none)
    (hothers : ∀ u ≠ t, s.pc u = .enter → c.inflight (key u) = none) (u : T)
    (hu : (s.after t c pc).pc u = .enter) : c.inflight (key u) = none := by
  have hu : update s.pc t pc u = .enter := hu
  by_cases hut : u = t
  · subst hut
    rw [Function.update_self] at hu
    exact ht hu
  · rw [Function.update_of_ne hut] at hu
    exact hothers u hut hu

section

variable (h : Orderly key s)
include h

/-- A step that leaves the map and the wait groups alone. -/
theorem Orderly.moved (hpc : s.pc t = old) (hfatal : c.fatal = false)
    (hmutex : ∀ u, c.mu = some u ↔ holds (update s.pc t pc u) = true)
    (hin : c.inflight = s.shared.inflight) (hcounter : c.counter = s.shared.counter)
    (hleads : leads pc = leads old) (hpending : pending pc = pending old)
    (henter : pc = .enter → s.shared.inflight (key t) = none) :
    Orderly key (s.after t c pc) where
  alive := hfatal
  mutex := hmutex
  inflight := hin ▸ h.inflight_after hpc hleads
  entering := entering_after (hin ▸ henter) fun u _ => hin ▸ h.entering u
  counter := hcounter ▸ h.counter_after hpc hpending

/-- A step that leaves the mutex alone, too. -/
theorem Orderly.quiet (hpc : s.pc t = old) (hfatal : c.fatal = s.shared.fatal)
    (hmu : c.mu = s.shared.mu) (hin : c.inflight = s.shared.inflight)
    (hcounter : c.counter = s.shared.counter) (hholds : holds pc = holds old)
    (hleads : leads pc = leads old) (hpending : pending pc = pending old)
    (henter : pc = .enter → s.shared.inflight (key t) = none) :
    Orderly key (s.after t c pc) :=
  h.moved hpc (hfatal.trans h.alive) (hmu ▸ h.mutex_after hpc hholds) hin hcounter hleads hpending
    henter

/-- A step that takes the mutex. -/
theorem Orderly.locked (hpc : s.pc t = old) (hmu : s.shared.mu = none) (hholds : holds pc = true)
    (hleads : leads pc = leads old) (hpending : pending pc = pending old)
    (henter : pc ≠ .enter) : Orderly key (s.after t { s.shared with mu := some t } pc) := by
  refine h.moved hpc h.alive (taken (hmu ▸ h.mutex) ?_ ?_) rfl rfl hleads hpending (absurd · henter)
  · rwa [Function.update_self]
  · intro u hu
    rw [Function.update_of_ne hu]

/-- A step that gives the mutex back. -/
theorem Orderly.unlocked (hpc : s.pc t = old) (hheld : holds old = true)
    (hholds : holds pc = false) (hleads : leads pc = leads old)
    (hpending : pending pc = pending old) (henter : pc ≠ .enter) :
    Orderly key (s.after t s.shared.unlock pc) := by
  rw [← hpc] at hheld
  have hunlock : s.shared.unlock = { s.shared with mu := none } := by
    simp only [Shared.unlock, (h.mutex t).mpr hheld]
  rw [hunlock]
  refine h.moved hpc h.alive (released h.mutex hheld ?_ ?_) rfl rfl hleads hpending
    (absurd · henter)
  · simp [hholds]
  · intro u hu
    rw [Function.update_of_ne hu]

/-- The call that holds the mutex puts its wait group into the map,
where there is none. -/
theorem Orderly.entered [DecidableEq K] (hpc : s.pc t = .enter) :
    Orderly key (s.after t
      { s.shared with inflight := update s.shared.inflight (key t) (some t)
                      counter := update s.shared.counter t 1 } .unlock) where
  alive := h.alive
  mutex := h.mutex_after hpc rfl
  inflight := by
    refine h.inflight_update (taken (h.entering t hpc ▸ h.inflight (key t)) ?_ ?_)
    · rw [Function.update_self]
      exact ⟨rfl, rfl⟩
    · intro u hu
      rw [Function.update_of_ne hu]
  entering := by
    refine entering_after nofun fun u hut hu => ?_
    exact absurd (h.eq_of_holds (by rw [hpc]; rfl) (by rw [hu]; rfl)) hut
  counter := h.counter_update rfl

/-- The call that holds the mutex takes its wait group out of the
map. -/
theorem Orderly.deleted [DecidableEq K] {r : Except E V} (hpc : s.pc t = .deferDelete r) :
    Orderly key (s.after t
      { s.shared with inflight := update s.shared.inflight (key t) none }
      (.deferUnlock r)) where
  alive := h.alive
  mutex := h.mutex_after hpc rfl
  inflight := by
    refine h.inflight_update (released (h.inflight (key t)) ⟨rfl, by rw [hpc]; rfl⟩ ?_ ?_)
    · simp [leads]
    · intro u hu
      rw [Function.update_of_ne hu]
  entering := by
    refine entering_after nofun fun u hut hu => ?_
    exact absurd (h.eq_of_holds (by rw [hpc]; rfl) (by rw [hu]; rfl)) hut
  counter := h.counter_after hpc rfl

/-- The call lets those that wait for it go on. -/
theorem Orderly.finished {r : Except E V} (hpc : s.pc t = .deferDone r) :
    Orderly key (s.after t { s.shared with counter := update s.shared.counter t 0 }
      (.returned r)) where
  alive := h.alive
  mutex := h.mutex_after hpc rfl
  inflight := h.inflight_after hpc rfl
  entering := entering_after nofun fun u _ => h.entering u
  counter := h.counter_update rfl

/-- A step that does not fall through. -/
theorem Orderly.step [DecidableEq K] {ops : CacheOps S K V} {answer : Except E V}
    (hmove : CallMove ops t (key t) answer s.shared (s.pc t) c pc)
    (hfall : ¬FallsThrough ops key s t) :
    Orderly key (s.after t c pc) := by
  generalize hpc : s.pc t = old at hmove
  cases hmove with
  | locks hmu => exact h.locked hpc hmu rfl rfl rfl nofun
  | begins hin => exact h.quiet hpc rfl rfl rfl rfl rfl rfl rfl (fun _ => hin)
  | releases wg => exact h.unlocked hpc rfl rfl rfl rfl nofun
  | fallsThrough hmiss => exact absurd ⟨hpc, hmiss⟩ hfall
  | enters => exact h.entered hpc
  | unlocks => exact h.unlocked hpc rfl rfl rfl rfl nofun
  | deferLocks r hmu => exact h.locked hpc hmu rfl rfl rfl nofun
  | deletes r => exact h.deleted hpc
  | deferUnlocks r => exact h.unlocked hpc rfl rfl rfl rfl nofun
  | dones r => exact h.finished hpc
  | _ => exact h.quiet hpc rfl rfl rfl rfl rfl rfl rfl nofun

end

end Orderly

/-! ### Runs -/

/-- What is asked of a step: the mutex is unlocked by the call that
holds it, the map is used while holding it, and no key is evaluated
twice at once. -/
structure Disciplined (key : T → K) (e : Calls S T K V E × (T × Except E V)) : Prop where
  unlocks : unlocks (e.1.pc e.2.1) = true → e.1.shared.mu = some e.2.1
  accesses : accesses (e.1.pc e.2.1) = true → e.1.shared.mu = some e.2.1
  single : ∀ t u, e.1.pc t = .evaluate → e.1.pc u = .evaluate → key u = key t → u = t

/-- What is asked of a run that has come to its end. -/
structure Sound (key : T → K) (trace : List (Calls S T K V E × (T × Except E V)))
    (s : Calls S T K V E) : Prop where
  disciplined : ∀ e ∈ trace, Disciplined key e
  returned : ∀ t, ∃ r, s.pc t = .returned r

/-- No call finds nothing after it has waited. -/
def NoneFallsThrough (ops : CacheOps S K V) (key : T → K)
    (trace : List (Calls S T K V E × (T × Except E V))) : Prop :=
  ∀ e ∈ trace, ¬FallsThrough ops key e.1 e.2.1

section Runs

variable {ops : CacheOps S K V} {key : T → K} {capacity : Nat} {s : Calls S T K V E}
  {trace : List (Calls S T K V E × (T × Except E V))}

/-- Where the discipline holds, a step keeps to it. -/
theorem Orderly.disciplined (h : Orderly key s) (l : T × Except E V) :
    Disciplined key (s, l) where
  unlocks hpc := by
    refine (h.mutex l.1).mpr ?_
    revert hpc
    show unlocks (s.pc l.1) = true → holds (s.pc l.1) = true
    cases s.pc l.1 <;> simp [Rego.unlocks, holds]
  accesses hpc := by
    refine (h.mutex l.1).mpr ?_
    revert hpc
    show accesses (s.pc l.1) = true → holds (s.pc l.1) = true
    cases s.pc l.1 <;> simp [Rego.accesses, holds]
  single t u ht hu hkey := by
    have ht : s.pc t = .evaluate := ht
    have hu : s.pc u = .evaluate := hu
    exact h.eq_of_leads (by rw [ht]; rfl) (by rw [hu]; rfl) hkey

variable [DecidableEq T] [DecidableEq K]

/-- A run in which no call falls through keeps the discipline, step
by step. -/
theorem orderly_of_run (h : Calls.History ops key capacity trace s)
    (hnone : NoneFallsThrough ops key trace) :
    Orderly key s ∧ ∀ e ∈ trace, Disciplined key e := by
  induction h with
  | nil => exact ⟨orderly_new ops key capacity, fun e he => nomatch he⟩
  | @snoc trace s s' l before hstep ih =>
    have hbefore := ih fun e he => hnone e (List.mem_append_left _ he)
    obtain ⟨_, c, pc, hmove, rfl⟩ := move_of_step hstep
    have hfall : ¬FallsThrough ops key s l.1 := hnone (s, l) (by simp)
    refine ⟨hbefore.1.step hmove hfall, ?_⟩
    intro e he
    rcases List.mem_append.mp he with he | he
    · exact hbefore.2 e he
    · cases List.mem_singleton.mp he
      exact hbefore.1.disciplined l

/-- A call has returned, can make a step, or waits for the mutex or
a wait group. -/
theorem exists_step (ops : CacheOps S K V) (key : T → K) (halive : s.shared.fatal = false) (t : T)
    (answer : Except E V) :
    (∃ r, s.pc t = .returned r) ∨ (∃ s', s.Step ops key (t, answer) s') ∨
      ((s.pc t = .lock ∨ ∃ r, s.pc t = .deferLock r) ∧ s.shared.mu ≠ none) ∨
      ∃ wg, s.pc t = .wait wg ∧ s.shared.counter wg ≠ 0 := by
  cases hmoves : callStep ops t (key t) answer s.shared (s.pc t) with
  | some r => exact .inr (.inl ⟨_, .call halive hmoves⟩)
  | none =>
    have hlock (hnone : s.shared.lock t = none) : s.shared.mu ≠ none := by
      intro hfree
      simp [Shared.lock, hfree] at hnone
    generalize s.pc t = pc at hmoves
    cases pc with
    | returned r => exact .inl ⟨r, rfl⟩
    | lock => exact .inr (.inr (.inl ⟨.inl rfl, hlock (Option.map_eq_none_iff.mp hmoves)⟩))
    | deferLock r =>
      exact .inr (.inr (.inl ⟨.inr ⟨r, rfl⟩, hlock (Option.map_eq_none_iff.mp hmoves)⟩))
    | wait wg =>
      refine .inr (.inr (.inr ⟨wg, rfl, fun hzero => ?_⟩))
      simp [callStep, hzero] at hmoves
    | get | recheck =>
      simp only [callStep] at hmoves
      cases hfound : (ops.get s.shared.lru (key t)).1 <;> simp [hfound] at hmoves
    | lookup =>
      simp only [callStep] at hmoves
      cases hfound : s.shared.inflight (key t) <;> simp [hfound] at hmoves
    | evaluate => cases answer <;> cases hmoves
    | _ => cases hmoves

/-- A run in which none falls through ends when all calls have
returned. -/
theorem returned_of_complete (h : Orderly key s) (answer : Except E V)
    (hcomplete : Transition.Complete (Calls.Step ops key) s) (t : T) :
    ∃ r, s.pc t = .returned r := by
  have hblocked (u : T) := (exists_step ops key h.alive u answer).imp_right fun hrest =>
    hrest.resolve_left fun hstep => hcomplete (u, answer) hstep.choose hstep.choose_spec
  -- whoever holds the mutex could go on, so it is free
  have hfree : s.shared.mu = none := by
    cases hmu : s.shared.mu with
    | none => rfl
    | some u =>
      have hholds := (h.mutex u).mp hmu
      rcases hblocked u with ⟨r, hpc⟩ | ⟨hpc | ⟨r, hpc⟩, -⟩ | ⟨wg, hpc, -⟩ <;>
        · rw [hpc] at hholds
          cases hholds
  rcases hblocked t with hret | ⟨-, hmu⟩ | ⟨wg, -, hcounter⟩
  · exact hret
  · exact absurd hfree hmu
  · -- the call it waits for has not come to its end and does not wait itself
    have hpending : pending (s.pc wg) = true := by
      rw [h.counter wg] at hcounter
      by_contra hnot
      exact hcounter (if_neg hnot)
    rcases hblocked wg with ⟨r, hpc⟩ | ⟨-, hmu⟩ | ⟨other, hpc, -⟩
    · rw [hpc] at hpending
      cases hpending
    · exact absurd hfree hmu
    · rw [hpc] at hpending
      cases hpending

/-! ### Falling through -/

/-- What holds in every run: only a call between `Lock` and `Unlock`
can be the one that locked the mutex, and a call that has fallen
through uses the map next, without it. -/
structure Marked (ops : CacheOps S K V) (key : T → K)
    (trace : List (Calls S T K V E × (T × Except E V))) (s : Calls S T K V E) : Prop where
  owner : ∀ t, s.shared.mu = some t → holds (s.pc t) = true
  fallen : ∀ e ∈ trace, FallsThrough ops key e.1 e.2.1 →
    (∃ e' ∈ trace, accesses (e'.1.pc e'.2.1) = true ∧ e'.1.shared.mu ≠ some e'.2.1) ∨
      (s.pc e.2.1 = .enter ∧ s.shared.mu ≠ some e.2.1)

/-- Every step keeps the marks. -/
theorem Marked.step (h : Marked ops key trace s) {l : T × Except E V} {c : Shared S T K}
    {pc : Pc T V E} (hmove : CallMove ops l.1 (key l.1) l.2 s.shared (s.pc l.1) c pc) :
    Marked ops key (trace ++ [(s, l)]) (s.after l.1 c pc) where
  owner u hu := by
    show holds (update s.pc l.1 pc u) = true
    rcases hmove.owner hu with ⟨rfl, hholds⟩ | ⟨hmu, hholds⟩
    · rwa [Function.update_self]
    · by_cases hul : u = l.1
      · subst hul
        rw [Function.update_self]
        exact hholds (h.owner l.1 hmu)
      · rw [Function.update_of_ne hul]
        exact h.owner u hmu
  fallen e he hfall := by
    rcases List.mem_append.mp he with he | he
    · rcases h.fallen e he hfall with ⟨e', he', hbad⟩ | ⟨hpc, hmu⟩
      · exact .inl ⟨e', List.mem_append_left _ he', hbad⟩
      · by_cases hel : e.2.1 = l.1
        · -- the step that follows is the access without the mutex
          rw [hel] at hpc hmu
          refine .inl ⟨(s, l), by simp, ?_, hmu⟩
          show accesses (s.pc l.1) = true
          rw [hpc]
          rfl
        · refine .inr ⟨?_, fun hown => ?_⟩
          · show update s.pc l.1 pc e.2.1 = .enter
            rwa [Function.update_of_ne hel]
          · rcases hmove.owner hown with ⟨heq, -⟩ | ⟨hold, -⟩
            · exact hel heq
            · exact hmu hold
    · -- the call falls through in this step; it unlocked the mutex before it waited
      cases List.mem_singleton.mp he
      obtain ⟨hpc, hmiss⟩ := hfall
      have hnot : s.shared.mu ≠ some l.1 := by
        intro hown
        have hholds := h.owner l.1 hown
        rw [show s.pc l.1 = .recheck from hpc] at hholds
        cases hholds
      rw [show s.pc l.1 = .recheck from hpc] at hmove
      cases hmove with
      | rechecks v hfound =>
        have hmiss : (ops.get s.shared.lru (key l.1)).1 = none := hmiss
        rw [hfound] at hmiss
        cases hmiss
      | fallsThrough _ =>
        refine .inr ⟨?_, hnot⟩
        show update s.pc l.1 .enter l.1 = .enter
        rw [Function.update_self]

/-- The marks hold in every run. -/
theorem marked_of_run (h : Calls.History ops key capacity trace s) : Marked ops key trace s := by
  induction h with
  | nil => exact ⟨fun t ht => (nomatch ht), fun e he => (nomatch he)⟩
  | snoc before hstep ih =>
    obtain ⟨halive, c, pc, hmove, rfl⟩ := move_of_step hstep
    exact ih.step hmove

/-- Every run comes to an end, and a run that has is as it should be
if and only if no call found nothing after it had waited. The LRU
library is any cache at all: what it finds and what it evicts is
left open. -/
theorem sound_iff [Fintype T] [Inhabited E] (ops : CacheOps S K V) (key : T → K) (capacity : Nat) :
    Transition.Terminates (Calls.Step ops key) (Calls.new ops capacity : Calls S T K V E) ∧
      ∀ trace (s : Calls S T K V E), Calls.History ops key capacity trace s →
        Transition.Complete (Calls.Step ops key) s →
        (Sound key trace s ↔ NoneFallsThrough ops key trace) := by
  refine ⟨terminates _, ?_⟩
  intro trace s hrun hcomplete
  constructor
  · -- a call that falls through goes on to access the map without the mutex
    intro hsound e he hfall
    have hmarked := marked_of_run hrun
    rcases hmarked.fallen e he hfall with ⟨e', he', haccess, hmu⟩ | ⟨hpc, hmu⟩
    · exact hmu ((hsound.disciplined e' he').accesses haccess)
    · obtain ⟨r, hret⟩ := hsound.returned e.2.1
      rw [hret] at hpc
      cases hpc
  · -- otherwise the discipline is an invariant, under which no call is stuck
    intro hnone
    have horderly := orderly_of_run hrun hnone
    exact ⟨horderly.2, returned_of_complete horderly.1 (.error default) hcomplete⟩

/-- A run in which all calls have returned cannot go on. -/
theorem complete_of_returned (h : ∀ t, ∃ r, s.pc t = .returned r) :
    Transition.Complete (Calls.Step ops key) s := by
  intro l s' hstep
  obtain ⟨_, c, pc, hmove, -⟩ := move_of_step hstep
  obtain ⟨r, hpc⟩ := h l.1
  rw [hpc] at hmove
  cases hmove

/-! ### What a call returns -/

/-- An evaluation in the run has answered a call. An error answers
the call that evaluated, a value all calls for the key. -/
def Answered (key : T → K) (trace : List (Calls S T K V E × (T × Except E V))) (t : T)
    (r : Except E V) : Prop :=
  ∃ e ∈ trace, e.1.pc e.2.1 = .evaluate ∧ key e.2.1 = key t ∧ e.2.2 = r ∧
    ∀ err, r = .error err → e.2.1 = t

/-- The result that a call is going to return. -/
def inHand : Pc T V E → Option (Except E V)
  | .hit v | .add v => some (.ok v)
  | .deferLock r | .deferDelete r | .deferUnlock r | .deferDone r | .returned r => some r
  | _ => none

/-- What holds in every run: the LRU cache finds what an evaluation
of the key returned, and so does a call that has a result in hand. -/
structure Traced (ops : CacheOps S K V) (key : T → K)
    (trace : List (Calls S T K V E × (T × Except E V))) (s : Calls S T K V E) : Prop where
  stored : ∀ t v, (ops.get s.shared.lru (key t)).1 = some v → Answered key trace t (.ok v)
  held : ∀ t r, inHand (s.pc t) = some r → Answered key trace t r

section

variable {t : T} {k : K} {answer : Except E V} {c c' : Shared S T K} {pc pc' : Pc T V E}

/-- Only a lookup and a store touch the LRU cache, and a call stores
what it has in hand. -/
theorem CallMove.lru (h : CallMove ops t k answer c pc c' pc') :
    c'.lru = c.lru ∨ c'.lru = (ops.get c.lru k).2 ∨
      ∃ v, pc = .add v ∧ c'.lru = ops.add c.lru k v := by
  cases h with
  | finds | misses | rechecks | fallsThrough => exact .inr (.inl rfl)
  | adds v => exact .inr (.inr ⟨v, rfl, rfl⟩)
  | releases | unlocks | deferUnlocks => exact .inl (lru_unlock c)
  | _ => exact .inl rfl

/-- A result in hand was there before, was found, or is that of an
evaluation. -/
theorem CallMove.inHand {r : Except E V} (h : CallMove ops t k answer c pc c' pc')
    (hr : inHand pc' = some r) :
    inHand pc = some r ∨ (pc = .evaluate ∧ answer = r) ∨
      ∃ v, r = .ok v ∧ (ops.get c.lru k).1 = some v := by
  cases h with
  | finds v hfound | rechecks v hfound =>
    exact .inr (.inr ⟨v, (Option.some.inj hr).symm, hfound⟩)
  | evaluates v hanswer | fails err hanswer =>
    exact .inr (.inl ⟨rfl, hanswer.trans (Option.some.inj hr)⟩)
  | returns | adds | deferLocks | deletes | deferUnlocks | dones => exact .inl hr
  | _ => cases hr

end

/-- Every step keeps the traces. -/
theorem Traced.step (hlawful : ops.Lawful) (h : Traced ops key trace s) {l : T × Except E V}
    {c : Shared S T K} {pc : Pc T V E}
    (hmove : CallMove ops l.1 (key l.1) l.2 s.shared (s.pc l.1) c pc) :
    Traced ops key (trace ++ [(s, l)]) (s.after l.1 c pc) := by
  have hlater {t : T} {r : Except E V} : Answered key trace t r →
      Answered key (trace ++ [(s, l)]) t r := by
    rintro ⟨e, he, hanswer⟩
    exact ⟨e, List.mem_append_left _ he, hanswer⟩
  constructor
  · intro t v hget
    have hget : (ops.get c.lru (key t)).1 = some v := hget
    rcases hmove.lru with hlru | hlru | ⟨stored, hpc, hlru⟩ <;> rw [hlru] at hget
    · exact hlater (h.stored t v hget)
    · exact hlater (h.stored t v (hlawful.of_get _ _ _ _ hget))
    · rcases hlawful.of_add _ _ _ _ _ hget with ⟨hkey, rfl⟩ | hget
      · -- the value is stored under the key of the call that has it in hand
        obtain ⟨e, he, hpc, hekey, hok, -⟩ := h.held l.1 (.ok v) (by rw [hpc]; rfl)
        exact hlater ⟨e, he, hpc, hekey.trans hkey.symm, hok, nofun⟩
      · exact hlater (h.stored t v hget)
  · intro t r hr
    have hr : inHand (update s.pc l.1 pc t) = some r := hr
    by_cases ht : t = l.1
    · subst ht
      rw [Function.update_self] at hr
      rcases hmove.inHand hr with hold | ⟨hpc, hanswer⟩ | ⟨v, rfl, hget⟩
      · exact hlater (h.held l.1 r hold)
      · exact ⟨(s, l), by simp, hpc, rfl, hanswer, fun _ _ => rfl⟩
      · exact hlater (h.stored l.1 v hget)
    · rw [Function.update_of_ne ht] at hr
      exact hlater (h.held t r hr)

/-- A call returns what an evaluation of its own key returned in the
run: no result is invented or handed to another key, and an error is
that of the call's own evaluation. This holds in all runs, those
included in which calls fall through and use the map without the
mutex. -/
theorem returned_evaluated (hlawful : ops.Lawful) (h : Calls.History ops key capacity trace s)
    {t : T} {r : Except E V} (hpc : s.pc t = .returned r) : Answered key trace t r := by
  have htraced : Traced ops key trace s := by
    refine h.inv (Traced ops key) ⟨fun t v hget => ?_, fun t r hr => by cases hr⟩ ?_
    · -- nothing is found in a new cache
      cases (hlawful.get_new capacity (key t)).symm.trans hget
    · intro trace s l s' ih hstep
      obtain ⟨-, c, pc, hmove, rfl⟩ := move_of_step hstep
      exact ih.step hlawful hmove
  exact htraced.held t r (by rw [hpc]; rfl)

end Runs

/-! ### A call that runs alone -/

/-- The state in which only one call is about to run. -/
def lone (c : Cache S) (pc : Pc Unit V E) : Calls S Unit K V E where
  shared := { lru := c.lru, metrics := c.metrics }
  pc _ := pc

/-- The steps of a call that runs alone are those of
`Cache.getOrEvaluate`, with which the engine is modelled. -/
theorem getOrEvaluate_alone [DecidableEq K] (ops : CacheOps S K V) (c : Cache S) (key : K)
    (answer : Except E V) :
    ∃ trace s, Transition.Run (Calls.Step ops fun _ => key) (lone c .get) trace s ∧
      s.pc () = .returned (c.getOrEvaluate ops key answer).1 ∧
      s.shared.lru = (c.getOrEvaluate ops key answer).2.lru ∧
      s.shared.metrics = (c.getOrEvaluate ops key answer).2.metrics := by
  have hrun (ls : List (Unit × Except E V)) {s s' : Calls S Unit K V E}
      {trace : List (Calls S Unit K V E × (Unit × Except E V))}
      (h : Transition.exec (Calls.next ops fun _ => key) s ls = some (trace, s')) :
      Transition.Run (Calls.Step ops fun _ => key) s trace s' :=
    Transition.run_of_exec (fun _ _ _ => step_of_next) h
  have hfirst (lru : S) (pc : Pc Unit V E)
      (h : callStep ops () key answer (lone c .get : Calls S Unit K V E).shared .get =
        some ({ lru := lru, metrics := c.metrics }, pc)) :
      Transition.Run (Calls.Step ops fun _ => key) (lone c .get) _ _ := .single (.call rfl h)
  cases hget : ops.get c.lru key with
  | mk found lru =>
    cases found with
    | some v =>
      have hfirst := hfirst lru (.hit v) (by simp only [callStep, lone, hget])
      refine ⟨_, _, hfirst.append (hrun [((), answer)] rfl), ?_⟩
      simp only [Cache.getOrEvaluate, hget]
      exact ⟨rfl, rfl, rfl⟩
    | none =>
      have hfirst := hfirst lru .lock (by simp only [callStep, lone, hget])
      cases answer with
      | error err =>
        refine ⟨_, _, hfirst.append (hrun (List.replicate 10 ((), .error err)) rfl), ?_⟩
        simp only [Cache.getOrEvaluate, hget]
        exact ⟨rfl, rfl, rfl⟩
      | ok v =>
        refine ⟨_, _, hfirst.append (hrun (List.replicate 11 ((), .ok v)) rfl), ?_⟩
        simp only [Cache.getOrEvaluate, hget]
        exact ⟨rfl, rfl, rfl⟩

/-! ### Two calls -/

/-- Two calls for one key. -/
abbrev oneKey (_ : Fin 2) : Unit := ()

/-- An LRU cache for them. -/
abbrev pairOps : CacheOps (Lru Unit Unit) Unit Unit := Lru.ops

/-- The second call waits for the first. -/
def follower (answer : Except Unit Unit) (leader second : Nat) :
    List (Fin 2 × Except Unit Unit) :=
  List.replicate 5 (0, answer) ++ List.replicate 4 (1, answer) ++
    List.replicate leader (0, answer) ++ List.replicate second (1, answer)

/-- The second call finds the result of the first. -/
theorem sound_iff_follower : ∃ trace s,
    Calls.History pairOps oneKey 1 trace s ∧ Sound (E := Unit) oneKey trace s := by
  obtain ⟨trace, s, hrun, htest⟩ := history_of_exec pairOps oneKey 1 (follower (.ok ()) 7 3)
    (fun trace s => decide ((∀ e ∈ trace, ¬FallsThrough pairOps oneKey e.1 e.2.1) ∧
      ∀ t, s.pc t = .returned (.ok ()))) (by decide +kernel)
  obtain ⟨hnone, hreturned⟩ := of_decide_eq_true htest
  refine ⟨trace, s, hrun, ((sound_iff pairOps oneKey 1).2 trace s hrun ?_).mpr hnone⟩
  exact complete_of_returned fun t => ⟨.ok (), hreturned t⟩

/-- Then only the first call has evaluated, and its result answers
the second. -/
theorem returned_evaluated_follower : ∃ trace s,
    Calls.History (E := Unit) pairOps oneKey 1 trace s ∧ (∀ e ∈ trace, e.1.pc 1 ≠ .evaluate) ∧
      Answered oneKey trace 1 (.ok ()) := by
  obtain ⟨trace, s, hrun, htest⟩ := history_of_exec pairOps oneKey 1 (follower (.ok ()) 7 3)
    (fun trace s => decide ((∀ e ∈ trace, e.1.pc 1 ≠ .evaluate) ∧
      s.pc 1 = .returned (.ok ()))) (by decide +kernel)
  obtain ⟨hnever, hreturned⟩ := of_decide_eq_true htest
  exact ⟨trace, s, hrun, hnever, returned_evaluated Lru.lawful hrun hreturned⟩

/-- The evaluation that the second call waits for fails. The call
goes on, and unlocks the mutex, which is free. -/
theorem unlock_of_free : ∃ trace s,
    Calls.History (E := Unit) pairOps oneKey 1 trace s ∧
      s.shared.fatal = true ∧ s.pc 1 = .miss := by
  obtain ⟨trace, s, hrun, htest⟩ := history_of_exec pairOps oneKey 1 (follower (.error ()) 6 4)
    (fun _ s => decide (s.shared.fatal = true ∧ s.pc 1 = .miss)) (by decide +kernel)
  exact ⟨trace, s, hrun, of_decide_eq_true htest⟩

end KubeAtlas.Proofs.Rego
