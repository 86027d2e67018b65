import KubeAtlas.Lib.Program
import Mathlib.Data.List.Basic

/-!
# `KubeAtlas.Lib.Interleave`: handlers that share a state

Each thread runs one handler at a time, and the calls of different
threads interleave in any order. A `Run` is a finite history:
handlers are started on threads that have none, and a started
handler makes one call after another. Its trace lists what happened.

`Run.ensures` is the rule for parallel composition. If the steps
that each thread guarantees are steps the others can rely on, then
what each handler ensures on its own holds in every run; in
particular it holds whenever all threads are idle. What a handler
ensures may depend on the handlers that ran on its thread before.
-/

set_option autoImplicit false

namespace KubeAtlas.Lib.Interleave

open Function (update)
open Program

variable {S T L C : Type} {R : C → Type}

/-- The handler of a label, the thread it runs on, and what calls do
to the state. -/
structure System (S T L C : Type) (R : C → Type) where
  thread : L → T
  body : L → Program C R Unit
  answers : (c : C) → S → R c → S → Prop

/-- The shared state, and what is left to do on each thread. -/
structure Config (S T C : Type) (R : C → Type) where
  shared : S
  threads : T → Program C R Unit

/-- No handler is running. -/
def Config.Idle (c : Config S T C R) : Prop := ∀ t, c.threads t = .done ()

/-- A state with no handler running. -/
def Config.idle (s : S) : Config S T C R := ⟨s, fun _ => .done ()⟩

/-- The configuration without a running thread is idle. -/
theorem Config.idle_idle (s : S) : (Config.idle s : Config S T C R).Idle := fun _ => rfl

/-- One entry of a trace. -/
inductive Event (T L C : Type) (R : C → Type) where
  | start (l : L)
  | reply (t : T) (c : C) (r : R c)

/-- The handler an entry starts. -/
def Event.started : Event T L C R → Option L
  | .start l => some l
  | .reply _ _ _ => none

/-- The handlers a trace starts, in order. -/
def starts (trace : List (Event T L C R)) : List L := trace.filterMap Event.started

/-- The labels that were started, over a run in two parts. -/
@[simp] theorem starts_append (trace later : List (Event T L C R)) :
    starts (trace ++ later) = starts trace ++ starts later :=
  List.filterMap_append

/-- A start is one of them. -/
@[simp] theorem starts_start (l : L) : starts [(.start l : Event T L C R)] = [l] := rfl

/-- A reply is none. -/
@[simp] theorem starts_reply (t : T) (c : C) (r : R c) :
    starts [(.reply t c r : Event T L C R)] = [] := rfl

/-- The exchange of an entry, with its thread. -/
def Event.exchanged : Event T L C R → Option (T × Exchange C R)
  | .start _ => none
  | .reply t c r => some (t, ⟨c, r⟩)

/-- The exchanges of a trace, with their threads. -/
def exchanges (trace : List (Event T L C R)) : List (T × Exchange C R) :=
  trace.filterMap Event.exchanged

/-- The calls with their replies, over a run in two parts. -/
@[simp] theorem exchanges_append (trace later : List (Event T L C R)) :
    exchanges (trace ++ later) = exchanges trace ++ exchanges later :=
  List.filterMap_append

/-- A start is no exchange. -/
@[simp] theorem exchanges_start (l : L) : exchanges [(.start l : Event T L C R)] = [] := rfl

/-- A reply is one. -/
@[simp] theorem exchanges_reply (t : T) (c : C) (r : R c) :
    exchanges [(.reply t c r : Event T L C R)] = [(t, ⟨c, r⟩)] := rfl

variable [DecidableEq T] (sys : System S T L C R)

/-- One step of the system. -/
inductive Step : Config S T C R → Event T L C R → Config S T C R → Prop
  | start {c : Config S T C R} (l : L) (idle : c.threads (sys.thread l) = .done ()) :
      Step c (.start l) ⟨c.shared, update c.threads (sys.thread l) (sys.body l)⟩
  | reply {c : Config S T C R} {t : T} {call : C} {next : R call → Program C R Unit} {r : R call}
      {s' : S} (running : c.threads t = .call call next)
      (answer : sys.answers call c.shared r s') :
      Step c (.reply t call r) ⟨s', update c.threads t (next r)⟩

/-- A finite history. -/
inductive Run (c : Config S T C R) : List (Event T L C R) → Config S T C R → Prop
  | nil : Run c [] c
  | snoc {trace : List (Event T L C R)} {c' c'' : Config S T C R} {e : Event T L C R}
      (before : Run c trace c') (step : Step sys c' e c'') : Run c (trace ++ [e]) c''

variable {sys} {c c' c'' : Config S T C R} {trace later : List (Event T L C R)}

/-- Runs compose. -/
theorem Run.append (h : Run sys c trace c') (h' : Run sys c' later c'') :
    Run sys c (trace ++ later) c'' := by
  induction h' with
  | nil => rwa [List.append_nil]
  | snoc _ step ih =>
    rw [← List.append_assoc]
    exact .snoc ih step

/-- A property of the shared state that every answer keeps, whoever
asked. -/
theorem Run.inv {inv : List (Event T L C R) → S → Prop} (hinit : inv [] c.shared)
    (hstart : ∀ trace l s, inv trace s → inv (trace ++ [.start l]) s)
    (hreply : ∀ trace t call r s s', inv trace s → sys.answers call s r s' →
      inv (trace ++ [.reply t call r]) s')
    (h : Run sys c trace c') : inv trace c'.shared := by
  induction h with
  | nil => exact hinit
  | snoc _ step ih =>
    cases step with
    | start l idle => exact hstart _ l _ ih
    | reply running answer => exact hreply _ _ _ _ _ _ ih answer

/-! ### One handler at a time -/

variable {threads : T → Program C R Unit} {t : T}

/-- The steps of one thread that runs undisturbed. -/
theorem exists_run_of_exec {p : Program C R Unit} {s s' : S} (hthread : threads t = p)
    (h : p.Exec sys.answers s () s') :
    ∃ trace, Run sys ⟨s, threads⟩ trace ⟨s', update threads t (.done ())⟩ ∧
      starts trace = [] := by
  induction p generalizing s threads with
  | done a =>
    obtain ⟨-, rfl⟩ := h
    refine ⟨[], ?_, rfl⟩
    rw [show update threads t (.done ()) = threads from
      Function.update_eq_self_iff.mpr hthread.symm]
    exact .nil
  | call call next ih =>
    obtain ⟨r, s₁, hanswer, hrest⟩ := h
    have hthread' : update threads t (next r) t = next r := Function.update_self ..
    obtain ⟨trace, hrun, hstarts⟩ := ih r hthread' hrest
    rw [Function.update_idem] at hrun
    refine ⟨[.reply t call r] ++ trace, Run.append ?_ hrun, ?_⟩
    · exact Run.snoc .nil (.reply hthread hanswer)
    · rw [starts_append, hstarts, starts_reply, List.append_nil]

/-- A handler that is executed on its own makes a run. -/
theorem run_of_exec (sys : System S T L C R) {s s' : S} {l : L}
    (h : (sys.body l).Exec sys.answers s () s') :
    ∃ trace, Run sys (.idle s) trace (.idle s') ∧ starts trace = [l] := by
  let idle : T → Program C R Unit := fun _ => .done ()
  have hstart : Run sys (.idle s) ([] ++ [.start l])
      ⟨s, update idle (sys.thread l) (sys.body l)⟩ := .snoc .nil (.start l rfl)
  have hthread : update idle (sys.thread l) (sys.body l) (sys.thread l) = sys.body l :=
    Function.update_self ..
  obtain ⟨rest, hrun, hstarts⟩ := exists_run_of_exec hthread h
  have hback : update idle (sys.thread l) (.done ()) = idle :=
    Function.update_eq_self_iff.mpr rfl
  rw [Function.update_idem, hback] at hrun
  refine ⟨_, hstart.append hrun, ?_⟩
  rw [starts_append, hstarts, List.append_nil]
  rfl

section History

variable (sys) (respond : (call : C) → S → R call × S)

/-- The state after handlers that run one after the other, with a
function that answers their calls. -/
def finalState (s : S) (ls : List L) : S :=
  ls.foldl (fun s l => ((sys.body l).eval respond s).2) s

/-- The trace of these handlers. -/
def history : S → List L → List (Event T L C R)
  | _, [] => []
  | s, l :: ls =>
    [.start l] ++ ((sys.body l).evalLog respond s).map (fun x => .reply (sys.thread l) x.1 x.2)
      ++ history ((sys.body l).eval respond s).2 ls

variable {sys respond}

/-- A thread that runs alone makes the exchanges of its evaluation.
Induction on the program. -/
theorem run_evalLog (h : ∀ call s, sys.answers call s (respond call s).1 (respond call s).2)
    (p : Program C R Unit) (s : S) (hthread : threads t = p) :
    Run sys ⟨s, threads⟩ ((p.evalLog respond s).map fun x => .reply t x.1 x.2)
      ⟨(p.eval respond s).2, update threads t (.done ())⟩ := by
  induction p generalizing s threads with
  | done a =>
    rw [show update threads t (.done ()) = threads from
      Function.update_eq_self_iff.mpr hthread.symm]
    exact .nil
  | call call next ih =>
    have hstep : Run sys ⟨s, threads⟩ ([] ++ [.reply t call (respond call s).1])
        ⟨(respond call s).2, update threads t (next (respond call s).1)⟩ :=
      .snoc .nil (.reply hthread (h call s))
    have hrest := ih (respond call s).1 (respond call s).2
      (Function.update_self t (next (respond call s).1) threads)
    rw [Function.update_idem] at hrest
    exact hstep.append hrest

/-- Letting one label after the other run to its end is a run. -/
theorem run_history (sys : System S T L C R)
    (h : ∀ call s, sys.answers call s (respond call s).1 (respond call s).2) (s : S) (ls : List L) :
    Run sys (.idle s) (history sys respond s ls) (.idle (finalState sys respond s ls)) := by
  induction ls generalizing s with
  | nil => exact .nil
  | cons l ls ih =>
    let idle : T → Program C R Unit := fun _ => .done ()
    have hstart : Run sys (.idle s) ([] ++ [.start l])
        ⟨s, update idle (sys.thread l) (sys.body l)⟩ := .snoc .nil (.start l rfl)
    have hbody := run_evalLog h (sys.body l) s
      (Function.update_self (sys.thread l) (sys.body l) idle)
    have hback : update idle (sys.thread l) (.done ()) = idle :=
      Function.update_eq_self_iff.mpr rfl
    rw [Function.update_idem, hback] at hbody
    exact (hstart.append hbody).append (ih _)

omit [DecidableEq T] in
/-- It starts the labels in their order. -/
theorem starts_history (s : S) (ls : List L) : starts (history sys respond s ls) = ls := by
  induction ls generalizing s with
  | nil => rfl
  | cons l ls ih =>
    have hreplies : starts (((sys.body l).evalLog respond s).map fun x =>
        (.reply (sys.thread l) x.1 x.2 : Event T L C R)) = [] := by
      simp [starts, Event.started]
    rw [history, starts_append, starts_append, starts_start, hreplies, ih, List.append_nil,
      List.singleton_append]

end History

/-! ### What each thread did -/

/-- The handlers a trace starts on one thread, in order. -/
def startsOn (sys : System S T L C R) (trace : List (Event T L C R)) (t : T) : List L :=
  (starts trace).filter fun l => sys.thread l = t

section

variable (trace : List (Event T L C R))

/-- A start counts for its own thread. -/
theorem startsOn_start (l : L) (t : T) :
    startsOn sys (trace ++ [.start l]) t
      = if sys.thread l = t then startsOn sys trace t ++ [l] else startsOn sys trace t := by
  unfold startsOn
  by_cases h : sys.thread l = t
  · simp [h]
  · simp [h]

/-- A reply starts nothing. -/
theorem startsOn_reply (t t' : T) (call : C) (r : R call) :
    startsOn sys (trace ++ [.reply t' call r]) t = startsOn sys trace t := by
  unfold startsOn
  rw [starts_append, starts_reply, List.append_nil]

/-- The log of one thread. -/
def logOn (trace : List (Event T L C R)) (t : T) : List (Exchange C R) :=
  ((exchanges trace).filter fun x => x.1 = t).map Prod.snd

/-- A start adds nothing to a log. -/
theorem logOn_start (l : L) (t : T) :
    logOn (trace ++ [.start l]) t = logOn trace t := by
  unfold logOn
  rw [exchanges_append, exchanges_start, List.append_nil]

/-- A reply counts for its own thread. -/
theorem logOn_reply (t t' : T) (c : C) (r : R c) :
    logOn (trace ++ [.reply t' c r]) t
      = if t' = t then logOn trace t ++ [⟨c, r⟩] else logOn trace t := by
  unfold logOn
  by_cases h : t' = t
  · simp [h]
  · simp [h]

end

/-- What concerns one thread only can be read off its log. -/
theorem filter_exchanges {β : Type} {f : Exchange C R → Option β} {p : β → Bool}
    {trace : List (Event T L C R)}
    (h : ∀ x ∈ exchanges trace, ∀ b, f x.2 = some b → p b = true → x.1 = t) :
    ((exchanges trace).filterMap fun x => f x.2).filter p
      = ((logOn trace t).filterMap f).filter p := by
  unfold logOn
  rw [List.filterMap_map, List.filterMap_filter, List.filter_filterMap, List.filter_filterMap]
  refine List.filterMap_congr fun x hx => ?_
  by_cases ht : x.1 = t
  · simp [ht]
  · -- what another thread did does not satisfy `p`
    have hnone : (f x.2).filter p = none := by
      cases hf : f x.2 with
      | none => rfl
      | some b =>
        have hp : p b = false := Bool.eq_false_iff.mpr fun hb => ht (h x hx b hf hb)
        simp [Option.filter, hp]
    simp [ht, hnone]

/-- Every exchange is in the log of its thread. -/
theorem mem_logOn {x : T × Exchange C R} (h : x ∈ exchanges trace) : x.2 ∈ logOn trace x.1 :=
  List.mem_map.mpr ⟨x, List.mem_filter.mpr ⟨h, by simp⟩, rfl⟩

/-- The handlers of one thread with their logs, and what is left to
do: all but the last one are finished. -/
inductive Ran (sys : System S T L C R) :
    List (L × List (Exchange C R)) → Program C R Unit → Prop
  | idle : Ran sys [] (.done ())
  | running {before : List (L × List (Exchange C R))} {l : L} {log : List (Exchange C R)}
      {p : Program C R Unit} (finished : ∀ x ∈ before, (sys.body x.1).Follows x.2 (.done ()))
      (follows : (sys.body l).Follows log p) : Ran sys (before ++ [(l, log)]) p

omit [DecidableEq T] in
/-- A thread that is done has run each of its bodies to its end. -/
theorem Ran.finished {ran : List (L × List (Exchange C R))} (h : Ran sys ran (.done ())) :
    ∀ x ∈ ran, (sys.body x.1).Follows x.2 (.done ()) := by
  cases h with
  | idle => exact fun x hx => absurd hx List.not_mem_nil
  | running finished follows =>
    intro x hx
    cases List.mem_append.mp hx with
    | inl hbefore => exact finished x hbefore
    | inr hlast => exact List.mem_singleton.mp hlast ▸ follows

/-- The handlers that a trace starts on one thread, with the log of
each, and what is left to do on the thread. -/
structure Handled (sys : System S T L C R) (trace : List (Event T L C R)) (t : T)
    (ran : List (L × List (Exchange C R))) (rest : Program C R Unit) : Prop where
  runs : Ran sys ran rest
  starts : ran.map Prod.fst = startsOn sys trace t
  log : ran.flatMap Prod.snd = logOn trace t

/-- The log of a thread is that of its handlers, one after the
other. -/
theorem Run.handled (h : Run sys c trace c') (hidle : c.Idle) (t : T) :
    ∃ ran, Handled sys trace t ran (c'.threads t) := by
  induction h with
  | nil => exact ⟨[], by rw [hidle t]; exact .idle, rfl, rfl⟩
  | @snoc trace c₁ c₂ e before step ih =>
    obtain ⟨ran, hran, hstarts, hlog⟩ := ih
    cases step with
    | start l idle =>
      by_cases ht : sys.thread l = t
      · subst ht
        rw [idle] at hran
        refine ⟨ran ++ [(l, [])], ?_, ?_, ?_⟩
        · show Ran sys _ (update c₁.threads (sys.thread l) (sys.body l) (sys.thread l))
          rw [Function.update_self]
          exact .running hran.finished (.nil _)
        · rw [startsOn_start, if_pos rfl]
          simp [hstarts]
        · rw [logOn_start]
          simp [hlog]
      · refine ⟨ran, ?_, ?_, ?_⟩
        · show Ran sys ran (update c₁.threads (sys.thread l) (sys.body l) t)
          rwa [Function.update_of_ne (Ne.symm ht)]
        · rw [startsOn_start, if_neg ht, hstarts]
        · rw [logOn_start, hlog]
    | @reply t' call next r s' running answer =>
      by_cases ht : t' = t
      · subst ht
        rw [running] at hran
        cases hran with
        | @running before l log _ finished follows =>
          refine ⟨before ++ [(l, log ++ [⟨call, r⟩])], ?_, ?_, ?_⟩
          · show Ran sys _ (update c₁.threads t' (next r) t')
            rw [Function.update_self]
            exact .running finished (follows.snoc r)
          · rw [startsOn_reply]
            simpa using hstarts
          · rw [logOn_reply, if_pos rfl, ← hlog]
            simp
      · refine ⟨ran, ?_, ?_, ?_⟩
        · show Ran sys ran (update c₁.threads t' (next r) t)
          rwa [Function.update_of_ne (Ne.symm ht)]
        · rw [startsOn_reply, hstarts]
        · rw [logOn_reply, if_neg ht, hlog]

variable {ran : List (L × List (Exchange C R))} {rest : Program C R Unit}

/-- A handler that is in the list was started, and runs on the
thread. -/
theorem Handled.started (h : Handled sys trace t ran rest) {x : L × List (Exchange C R)}
    (hx : x ∈ ran) :
    x.1 ∈ Interleave.starts trace ∧ sys.thread x.1 = t := by
  have hmem : x.1 ∈ startsOn sys trace t := h.starts ▸ List.mem_map_of_mem hx
  simpa [startsOn] using hmem

/-- Every exchange belongs to a handler. -/
theorem Handled.exists_of_mem {x : T × Exchange C R} (h : Handled sys trace x.1 ran rest)
    (hx : x ∈ exchanges trace) : ∃ y ∈ ran, x.2 ∈ y.2 := by
  have hmem := mem_logOn hx
  rw [← h.log] at hmem
  exact List.mem_flatMap.mp hmem

/-- Every exchange of a handler is one of the trace. -/
theorem Handled.mem_exchanges (h : Handled sys trace t ran rest)
    {x : L × List (Exchange C R)} (hx : x ∈ ran) {y : Exchange C R} (hy : y ∈ x.2) :
    (t, y) ∈ exchanges trace := by
  have hmem : y ∈ logOn trace t := h.log ▸ List.mem_flatMap.mpr ⟨x, hx, hy⟩
  obtain ⟨⟨t', z⟩, hz, rfl⟩ := List.mem_map.mp hmem
  obtain ⟨hz, ht⟩ := List.mem_filter.mp hz
  have ht : t' = t := of_decide_eq_true ht
  rwa [ht] at hz

/-! ### Parallel composition -/

/-- What each thread relies on and guarantees, and what holds
between its handlers when it has run the handlers `ls`. -/
structure Discipline (sys : System S T L C R) where
  rely : T → S → S → Prop
  guar : T → S → S → Prop
  after : T → List L → S → Prop
  interference : ∀ t, Interference (rely t)
  compatible : ∀ t t', t ≠ t' → ∀ s s', guar t s s' → rely t' s s'
  after_stable : ∀ t ls s s', after t ls s → rely t s s' → after t ls s'

variable (d : Discipline sys)

/-- A handler obeys the discipline. -/
def Discipline.Obeyed (l : L) : Prop :=
  ∀ ls s, d.after (sys.thread l) ls s →
    (sys.body l).Ensures sys.answers (d.rely (sys.thread l)) (d.guar (sys.thread l))
      (fun _ s => d.after (sys.thread l) (ls ++ [l]) s) s

/-- In every run of handlers that obey the discipline, every thread
is on its way to what it ensures. -/
theorem Run.ensures (h : Run sys c trace c') (hidle : c.Idle)
    (hinit : ∀ t, d.after t [] c.shared) (hobeyed : ∀ l ∈ starts trace, d.Obeyed l) (t : T) :
    (c'.threads t).Ensures sys.answers (d.rely t) (d.guar t)
      (fun _ s => d.after t (startsOn sys trace t) s) c'.shared := by
  induction h generalizing t with
  | nil =>
    rw [hidle t]
    intro s₁ h₁
    exact d.after_stable t _ _ _ (hinit t) h₁
  | @snoc trace c₁ c₂ e before step ih =>
    rw [starts_append] at hobeyed
    have ih := ih fun l hl => hobeyed l (List.mem_append_left _ hl)
    cases step with
    | start l idle =>
      rw [startsOn_start]
      by_cases ht : sys.thread l = t
      · subst ht
        have hdone := ih (sys.thread l)
        rw [idle] at hdone
        have hafter := hdone _ ((d.interference _).refl _)
        show (update c₁.threads (sys.thread l) (sys.body l) (sys.thread l)).Ensures
          _ _ _ _ _
        rw [Function.update_self, if_pos rfl]
        exact hobeyed l (by simp) _ _ hafter
      · show (update c₁.threads (sys.thread l) (sys.body l) t).Ensures _ _ _ _ _
        rw [Function.update_of_ne (Ne.symm ht), if_neg ht]
        exact ih t
    | @reply t' call next r s' running answer =>
      -- the caller made a guaranteed step, and the others rely on it
      have hcaller := ih t'
      rw [running] at hcaller
      obtain ⟨hguar, hnext⟩ := hcaller _ ((d.interference t').refl _) r s' answer
      rw [startsOn_reply]
      by_cases ht : t = t'
      · subst ht
        show (update c₁.threads t (next r) t).Ensures _ _ _ _ _
        rw [Function.update_self]
        exact hnext
      · show (update c₁.threads t' (next r) t).Ensures _ _ _ _ _
        rw [Function.update_of_ne ht]
        exact (ih t).stable (d.interference t) (d.compatible t' t (Ne.symm ht) _ _ hguar)

/-- When all threads are idle, each of them is between two handlers. -/
theorem Run.after (h : Run sys c trace c') (hidle : c.Idle) (hidle' : c'.Idle)
    (hinit : ∀ t, d.after t [] c.shared) (hobeyed : ∀ l ∈ starts trace, d.Obeyed l) (t : T) :
    d.after t (startsOn sys trace t) c'.shared := by
  have hensures := h.ensures d hidle hinit hobeyed t
  rw [hidle' t] at hensures
  exact hensures _ ((d.interference t).refl _)

end KubeAtlas.Lib.Interleave
