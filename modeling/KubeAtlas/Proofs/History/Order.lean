import KubeAtlas.Proofs.History.Accounting
import KubeAtlas.Proofs.History.Diff

/-!
# `KubeAtlas.Proofs.History.Order`: the order of recorded events

A single worker appends events in the order in which they were
queued. Two workers do not: each takes an event, and the one with
the later event may be first (`reordered`). For a resource that was
updated and deleted, the update is then the last event of the
history.

`order_iff` says that the order is kept if and only if there is one
worker. The order of two calls is the order in which they were made
one after the other, so calls that overlap may come in any order.
With one worker, the events that are appended, in the worker's hand
and in the queue stand in one line, and no event overtakes another
one in it.
-/

set_option autoImplicit false

namespace KubeAtlas.Proofs.History

open Analysis Lib
open Operations (Time)
open Snapshot KubeAtlas.Store

variable {P Q : Type} {n capacity : Nat}

/-! ### One call before another -/

/-- The call `p` had returned when the call `q` began. -/
def Precedes (trace : List (Writer P Q n × Thread P Q n)) (p q : P) : Prop :=
  ∃ e ∈ trace, e.2 = .enqueue q ∧ e.1.producers q = .idle ∧ e.1.producers p = .done

variable {t : Thread P Q n} {p q : P}

theorem precedes_snoc {trace : List (Writer P Q n × Thread P Q n)} {s : Writer P Q n}
    (hq : s.producers q ≠ .idle) :
    Precedes (trace ++ [(s, t)]) p q ↔ Precedes trace p q := by
  constructor
  · rintro ⟨e, he, ht, hidle, hdone⟩
    rcases List.mem_append.mp he with he | he
    · exact ⟨e, he, ht, hidle, hdone⟩
    · cases List.mem_singleton.mp he
      exact absurd hidle hq
  · rintro ⟨e, he, h⟩
    exact ⟨e, List.mem_append_left _ he, h⟩

variable [DecidableEq P] [DecidableEq Q]
  {trace : List (Writer P Q n × Thread P Q n)} {s : Writer P Q n}

theorem Step.done {s' : Writer P Q n} (h : s.Step t s') {p : P} (hp : s.producers p = .done) :
    s'.producers p = .done := by
  cases h with
  | @enqueue p' w pc halive moves =>
    show Function.update s.producers p' pc p = .done
    by_cases hpp : p = p'
    · subst hpp
      rw [hp] at moves
      cases moves
    · rw [Function.update_of_ne hpp]
      exact hp
  | _ => exact hp

/-- A call that precedes another one has returned. -/
theorem done_of_precedes (h : Writer.History capacity trace s) (hpq : Precedes trace p q) :
    s.producers p = .done := by
  induction h with
  | nil =>
    obtain ⟨e, he, -⟩ := hpq
    cases he
  | snoc before hstep ih =>
    obtain ⟨e, he, ht, hidle, hdone⟩ := hpq
    rcases List.mem_append.mp he with he | he
    · exact Step.done hstep (ih ⟨e, he, ht, hidle, hdone⟩)
    · cases List.mem_singleton.mp he
      exact Step.done hstep hdone

/-! ### The line -/

/-- The event that a worker is about to append. -/
def carried : WorkerPc P → Option P
  | .take p | .attempt p _ | .sleep p _ => some p
  | _ => none

omit [DecidableEq P] in
/-- A call puts its event at the end of the queue, or takes the
first one out, or leaves the queue as it is. -/
theorem EnqueueMove.line {p : P} {w w' : Shared P} {pc pc' : EnqueuePc P}
    (h : EnqueueMove p w pc w' pc') :
    w'.sink = w.sink ∧ (w'.queue.buffer = w.queue.buffer ∨
      (∃ oldest, w.queue.buffer = oldest :: w'.queue.buffer) ∨
      (w'.queue.buffer = w.queue.buffer ++ [p] ∧ pc ≠ .idle ∧ pc ≠ .done)) := by
  cases h with
  | sends | resends => exact ⟨rfl, .inr (.inr ⟨rfl, by simp, by simp⟩)⟩
  | evicts oldest rest hbuffer => exact ⟨rfl, .inr (.inl ⟨oldest, hbuffer⟩)⟩
  | _ => exact ⟨rfl, .inl rfl⟩

omit [DecidableEq P] in
/-- A worker takes the first event of the queue, or appends the
event it has, or leaves both ends of the line as they are. -/
theorem WorkerMove.line {w w' : Shared P} {pc pc' : WorkerPc P} (h : WorkerMove w pc w' pc') :
    (∃ p, w.queue.buffer = p :: w'.queue.buffer ∧ w'.sink = w.sink ∧ carried pc = none ∧
        carried pc' = some p) ∨
      (∃ p, w'.sink = w.sink ++ [p] ∧ w'.queue.buffer = w.queue.buffer ∧ carried pc = some p ∧
        carried pc' = none) ∨
      (w'.sink = w.sink ∧ w'.queue.buffer = w.queue.buffer ∧
        (carried pc' = carried pc ∨ carried pc' = none)) := by
  cases h with
  | takes p rest hbuffer => exact .inl ⟨p, hbuffer, rfl, rfl, rfl⟩
  | appends p left => exact .inr (.inl ⟨p, rfl, rfl, rfl, rfl⟩)
  | announces | backsOff | wakes => exact .inr (.inr ⟨rfl, rfl, .inl rfl⟩)
  | _ => exact .inr (.inr ⟨rfl, rfl, .inr rfl⟩)

/-- The events that are appended, in the hands of the workers and in
the queue. -/
def lineOf (s : Writer P Q n) : List P :=
  s.shared.sink ++ (List.finRange n).filterMap (fun i => carried (s.workers i)) ++
    s.shared.queue.buffer

omit [DecidableEq P] [DecidableEq Q] in
theorem lineOf_single (hn : ∀ i j : Fin n, i = j) (i : Fin n) (s : Writer P Q n) :
    lineOf s = s.shared.sink ++ (carried (s.workers i)).toList ++ s.shared.queue.buffer := by
  have hrange : List.finRange n = [i] := by
    refine List.perm_singleton.mp ((List.perm_ext_iff_of_nodup (List.nodup_finRange n)
      (List.nodup_singleton i)).mpr fun j => ?_)
    simp [hn j i]
  unfold lineOf
  rw [hrange]
  cases hcarried : carried (s.workers i) <;> simp [hcarried]

/-- With one worker, a step takes events out of the line, or puts
the event of a call that has not returned at its end. -/
theorem Step.line (hn : ∀ i j : Fin n, i = j) {s' : Writer P Q n} (h : s.Step t s') :
    (lineOf s').Sublist (lineOf s) ∨
      ∃ p, s.producers p ≠ .done ∧ (lineOf s').Sublist (lineOf s ++ [p]) := by
  cases h with
  | context | observe => exact .inl (List.Sublist.refl _)
  | stop halive started moves =>
    obtain ⟨-, hbuffer, hsink⟩ := (stopMove_of_step moves).queue
    simp [lineOf, Writer.withStop, hbuffer, hsink]
  | spawn now i =>
    left
    rw [lineOf_single hn i, lineOf_single hn i]
    simp [Writer.spawn, carried]
  | @enqueue p w pc halive moves =>
    obtain ⟨hsink, hbuffer⟩ := (enqueueMove_of_step moves).line
    unfold lineOf Writer.withEnqueue
    rcases hbuffer with hsame | ⟨oldest, hold⟩ | ⟨hpush, -, hdone⟩
    · simp [hsame, hsink]
    · simp [hold, hsink]
    · refine .inr ⟨p, hdone, ?_⟩
      simp [hpush, hsink]
  | @worker i ok w pc halive moves =>
    left
    rw [lineOf_single hn i, lineOf_single hn i]
    simp only [Writer.withWorker, Function.update_self]
    rcases (workerMove_of_step moves).line with ⟨p, hold, hsink, hempty, hcarried⟩ |
        ⟨p, hsink, hsame, hcarried, hempty⟩ | ⟨hsink, hsame, hcarried | hempty⟩
    · simp [hold, hsink, hempty, hcarried]
    · simp [hsame, hsink, hempty, hcarried]
    · simp [hsame, hsink, hcarried]
    · simp [hsame, hsink, hempty]

variable [Fintype P]

/-- The events in the line were handed over. -/
theorem begun_of_line (h : Writer.History capacity trace s) {p : P} (hp : p ∈ lineOf s) :
    s.producers p ≠ .idle := by
  intro hidle
  have hle := places_le h p
  rw [hidle] at hle
  have hzero : s.shared.sink.count p + s.shared.queue.buffer.count p +
      (∑ x, enqueueCarries p x (s.producers x)) + (∑ i, workerCarries p (s.workers i)) = 0 :=
    Nat.le_zero.mp hle
  simp only [Nat.add_eq_zero_iff, List.count_eq_zero, Finset.sum_eq_zero_iff] at hzero
  obtain ⟨⟨⟨hsink, hbuffer⟩, -⟩, hworkers⟩ := hzero
  simp only [lineOf, List.mem_append, hsink, hbuffer, false_or, or_false] at hp
  obtain ⟨i, -, hi⟩ := List.mem_filterMap.mp hp
  have hworker := hworkers i (Finset.mem_univ i)
  cases hpc : s.workers i <;> rw [hpc] at hi hworker <;> simp [carried] at hi
  all_goals
    subst hi
    simp [workerCarries] at hworker

/-- With one worker, no event in the line stands before one whose
call precedes its own. -/
theorem pairwise_line (hn : ∀ i j : Fin n, i = j) (h : Writer.History capacity trace s) :
    (lineOf s).Pairwise fun a b => ¬Precedes trace b a := by
  induction h with
  | nil => simp [lineOf, Writer.new, carried]
  | @snoc trace s s' t hbefore hstep ih =>
    -- the step begins no call whose event is in the line
    have hkept : (lineOf s).Pairwise fun a b => ¬Precedes (trace ++ [(s, t)]) b a := by
      refine ih.imp_of_mem fun ha _ hnot => ?_
      rwa [precedes_snoc (begun_of_line hbefore ha)]
    rcases Step.line hn hstep with hsub | ⟨p, hdone, hsub⟩
    · exact hkept.sublist hsub
    · refine List.Pairwise.sublist hsub (List.pairwise_append.mpr
        ⟨hkept, List.pairwise_singleton _ _, fun a ha b hb => ?_⟩)
      cases List.mem_singleton.mp hb
      rw [precedes_snoc (begun_of_line hbefore ha)]
      exact fun hprecedes => hdone (done_of_precedes hbefore hprecedes)

theorem not_precedes (hn : ∀ i j : Fin n, i = j) (h : Writer.History capacity trace s)
    (hpq : [p, q].Sublist s.shared.sink) : ¬Precedes trace q p :=
  List.pairwise_iff_forall_sublist.mp (pairwise_line hn h) (hpq.trans (by simp [lineOf]))

/-- No event is appended twice. -/
theorem nodup_sink (h : Writer.History capacity trace s) : s.shared.sink.Nodup :=
  (nodup_stored h).of_append_left

/-- Of two members of a list, one comes first. -/
theorem sublist_or_sublist {α : Type} {xs : List α} {a b : α} (ha : a ∈ xs) (hb : b ∈ xs)
    (hne : a ≠ b) : [a, b].Sublist xs ∨ [b, a].Sublist xs := by
  induction xs with
  | nil => cases ha
  | cons x xs ih =>
    rcases List.mem_cons.mp ha with rfl | ha'
    · have hb' : b ∈ xs := (List.mem_cons.mp hb).resolve_left (Ne.symm hne)
      exact .inl (List.Sublist.cons_cons _ (List.singleton_sublist.mpr hb'))
    · rcases List.mem_cons.mp hb with rfl | hb'
      · exact .inr (List.Sublist.cons_cons _ (List.singleton_sublist.mpr ha'))
      · exact (ih ha' hb').imp (List.Sublist.cons x) (List.Sublist.cons x)

/-- With one worker, events are appended in the order of their
calls. -/
theorem sublist_of_precedes (hn : ∀ i j : Fin n, i = j) (h : Writer.History capacity trace s)
    (hpq : Precedes trace p q) (hp : p ∈ s.shared.sink) (hq : q ∈ s.shared.sink) :
    [p, q].Sublist s.shared.sink := by
  have hne : p ≠ q := by
    rintro rfl
    obtain ⟨e, -, -, hidle, hdone⟩ := hpq
    rw [hidle] at hdone
    cases hdone
  rcases sublist_or_sublist hp hq hne with hsub | hsub
  · exact hsub
  · exact absurd hpq (not_precedes hn h hsub)

/-! ### Two workers -/

/-- The event of the first call is taken by one worker, and the
event of the second call by another one, which is faster. -/
def overtaking (first second : Fin n) : List (Thread Bool Empty n) :=
  [.start 1, .start 1, .start 1, .enqueue false, .enqueue false, .enqueue false,
    .worker first true, .enqueue true, .enqueue true, .enqueue true, .worker second true,
    .worker second true, .worker second true, .worker first true, .worker first true]

/-- Two workers or more can turn the order around. -/
theorem exists_reordered (hn : 2 ≤ n) (hcapacity : 0 < capacity) :
    ∃ trace s, Writer.History capacity trace (s : Writer Bool Empty n) ∧
      Precedes trace false true ∧ s.shared.sink = [true, false] := by
  obtain ⟨m, rfl⟩ := Nat.exists_eq_add_of_le' hn
  obtain ⟨k, rfl⟩ := Nat.exists_eq_add_of_le' hcapacity
  obtain ⟨trace, s, hrun, htest⟩ := history_of_exec (k + 1)
    (overtaking ⟨0, Nat.succ_pos _⟩ ⟨1, by omega⟩ : List (Thread Bool Empty (m + 2)))
    (fun trace s => (trace.any fun e => decide (e.2 = .enqueue true) &&
      decide (e.1.producers true = .idle) && decide (e.1.producers false = .done)) &&
      decide (s.shared.sink = [true, false])) rfl
  simp only [Bool.and_eq_true, List.any_eq_true, decide_eq_true_eq] at htest
  obtain ⟨⟨e, he, ⟨hq, hidle⟩, hdone⟩, hsink⟩ := htest
  exact ⟨trace, s, hrun, ⟨e, he, hq, hidle, hdone⟩, hsink⟩

/-! ### The condition -/

/-- What identifies the resource of an entry, as `diffKey` does for
an event. -/
def entryKey (entry : DiffEntry) : String :=
  if entry.uid = "" then entry.ns ++ "/" ++ entry.kind ++ "/" ++ entry.name else entry.uid

/-- For events whose times the store assigns, a diff over all
appends shows the event of `p` for the resource of `p`, unless the
ring buffer has lost it. -/
def SeenLast (event : P → ResourceEvent) (sink : List P) (p : P) : Prop :=
  ∀ (clock : Nat → Time) (fromTime toTime : Time) (ns : String), Monotone clock →
    (∀ i < sink.length, fromTime ≤ clock i ∧ clock i ≤ toTime) →
    (ns = "" ∨ ns = (event p).ns) →
    let result := diffWindow (appendAll event clock 0 LoggedStore.new sink) fromTime toTime ns
    (∀ entry ∈ entries result, entryKey entry = diffKey (event p) →
      (∃ i, entry = diffEntryOf (storedEvent event clock i p)) ∧
      (entry ∈ result.removed ↔ (event p).eventType = .delete)) ∧
    (sink.length ≤ maxMemoryEvents → ∃ entry ∈ entries result, entryKey entry = diffKey (event p))

/-- What the writer promises about the order of events: two events
of one resource that are both appended are appended in the order of
their calls, and the last one of them is the last one that a diff
sees. -/
def OrderKept (c : Config) : Prop :=
  ∀ (P Q : Type) [Fintype P] [DecidableEq P] [DecidableEq Q] (event : P → ResourceEvent)
    (trace : List (Writer P Q c.workerCount × Thread P Q c.workerCount))
    (s : Writer P Q c.workerCount), Writer.History c.capacity trace s →
    (∀ p q, diffKey (event p) = diffKey (event q) → Precedes trace p q → p ∈ s.shared.sink →
      q ∈ s.shared.sink → [p, q].Sublist s.shared.sink) ∧
    ((∀ p, (event p).timestamp.IsZero) → s.shared.sink.length < 2 ^ 63 →
      ∀ p ∈ s.shared.sink,
        (∀ q ∈ s.shared.sink, q ≠ p → diffKey (event q) = diffKey (event p) →
          Precedes trace q p) → SeenLast event s.shared.sink p)

omit [DecidableEq P] [Fintype P] in
/-- A diff sees the last event of a resource. -/
theorem seenLast_of_last {event : P → ResourceEvent} {before after : List P} {p : P}
    (hzero : ∀ p, (event p).timestamp.IsZero) (hlength : (before ++ p :: after).length < 2 ^ 63)
    (hlast : ∀ q ∈ after, diffKey (event q) ≠ diffKey (event p)) :
    SeenLast event (before ++ p :: after) p := by
  intro clock fromTime toTime ns hclock hwindow hns
  have hlist : (appendAll event clock 0 LoggedStore.new (before ++ p :: after)).listEvents ns
      fromTime toTime = _ := listEvents_appendAll hzero hclock hlength hwindow
  refine ⟨fun entry hentry hkey => ?_, fun hshort => ?_⟩
  · obtain ⟨g, hg, rfl⟩ := (mem_diffWindow _ _ _ _ entry).1.mp hentry
    have hgroup : g ∈ diffGroups ((retained (storedEvents event clock 0
        (before ++ p :: after))).filter fun e => ns = "" || e.ns = ns) := hlist ▸ hg
    obtain ⟨-, -, -, hgkey, -⟩ := lastOf_of_mem_diffGroups hgroup
    have hstored := last_diffGroups hlength hlast hns hgroup (hgkey.symm.trans hkey)
    refine ⟨⟨before.length, by rw [hstored]⟩, ?_⟩
    rw [(mem_diffWindow _ _ _ _ _).2]
    constructor
    · rintro ⟨g', -, heq, hdelete⟩
      have htype : g.last.eventType = g'.last.eventType := congrArg DiffEntry.eventType heq
      rw [hdelete, hstored] at htype
      exact htype
    · intro hdelete
      exact ⟨g, hg, rfl, by rw [hstored]; exact hdelete⟩
  · -- nothing is lost from the ring buffer
    have hmem : storedEvent event clock before.length p ∈
        (retained (storedEvents event clock 0 (before ++ p :: after))).filter
          fun e => ns = "" || e.ns = ns := by
      refine List.mem_filter.mpr ⟨?_, ?_⟩
      · have hcount : (storedEvents event clock 0 (before ++ p :: after)).length
            = (before ++ p :: after).length := length_storedEvents 0 _
        unfold retained
        rw [hcount, Nat.sub_eq_zero_of_le hshort, List.drop_zero, storedEvents_append,
          storedEvents, Nat.zero_add]
        simp
      · rcases hns with rfl | rfl
        · rfl
        · simp [storedEvent, metadataOnlyEvent]
    obtain ⟨g, hg, hkey⟩ := List.mem_map.mp
      ((mem_keys_diffGroups _ (diffKey (event p))).mpr ⟨_, hmem, rfl⟩)
    have hstored := last_diffGroups hlength hlast hns hg hkey
    refine ⟨diffEntryOf g.last, (mem_diffWindow _ _ _ _ _).1.mpr ⟨g, hlist ▸ hg, rfl⟩, ?_⟩
    rw [hstored]
    rfl

/-- The order is kept if and only if there is one worker. One worker
appends in the order of the queue. With two, the second overtakes
the first between its receive and its append (`exists_reordered`). -/
theorem order_iff (c : Config) : OrderKept c ↔ c.workerCount = 1 := by
  constructor
  · intro hkept
    by_contra hne
    have htwo : 2 ≤ c.workerCount := by
      have hpos := Config.workerCount_pos c
      omega
    obtain ⟨trace, s, hrun, hprecedes, hsink⟩ := exists_reordered htwo (Config.capacity_pos c)
    have horder := (hkept Bool Empty
      (fun _ => { ns := "", kind := "", name := "", eventType := .add }) trace s hrun).1
      false true rfl hprecedes
    rw [hsink] at horder
    exact absurd (horder (by decide) (by decide)) (by decide)
  · intro hone P Q _ _ _ event trace s hrun
    have hn : ∀ i j : Fin c.workerCount, i = j := by
      intro i j
      exact Fin.ext (by omega)
    refine ⟨fun p q _ hpq hp hq => sublist_of_precedes hn hrun hpq hp hq, ?_⟩
    intro hzero hlength p hp hlast
    obtain ⟨before, after, hsink⟩ := List.append_of_mem hp
    have hnodup := nodup_sink hrun
    rw [hsink] at hlength hnodup ⊢
    refine seenLast_of_last hzero hlength fun q hq hkey => ?_
    have hne : q ≠ p := by
      rintro rfl
      exact (List.nodup_cons.mp (List.nodup_append.mp hnodup).2.1).1 hq
    have hprecedes := hlast q (by rw [hsink]; simp [hq]) hne hkey
    -- but the event of `q` comes after that of `p`
    have hpair : [p, q].Sublist s.shared.sink := by
      rw [hsink]
      refine List.Sublist.trans ?_ (List.sublist_append_right _ _)
      exact List.Sublist.cons_cons _ (List.singleton_sublist.mpr hq)
    exact not_precedes hn hrun hpair hprecedes

/-- A writer with one worker keeps the order. -/
theorem order_iff_one : OrderKept { workers := 1 } := (order_iff { workers := 1 }).mpr rfl

/-- With the default configuration, the event of the second of two
calls is appended first. -/
theorem reordered :
    ∃ trace s, Writer.History ({} : Config).capacity trace
        (s : Writer Bool Empty ({} : Config).workerCount) ∧
      Precedes trace false true ∧ s.shared.sink = [true, false] :=
  exists_reordered (by decide) (by decide)

end KubeAtlas.Proofs.History
