import Mathlib.Data.List.Basic

/-!
# `KubeAtlas.Lib.EventLog`: what one part of a machine has seen

A machine runs through operations, and an observer follows one part
of its state, its `view`. Most operations do not touch that part;
one that does is an event for it. The log of a run is the list of
those events, the latest first, and a `Trace` is a log in which
every event was enabled when it happened.

`Follows` is what has to be proved about one step.
`Follows.trace_run` is what a whole run then satisfies: its log is a
trace from the first view to the last. Properties that look back
over a run become inductions on traces.
-/

set_option autoImplicit false

namespace KubeAtlas.Lib.EventLog

variable {σ α ρ ε : Type}

/-- The events `es`, latest first, lead from `init` to a view. -/
inductive Trace (apply : ε → ρ → ρ) (Enabled : ε → ρ → Prop) (init : ρ) : List ε → ρ → Prop
  | nil : Trace apply Enabled init [] init
  | cons {es : List ε} {r : ρ} (e : ε) (before : Trace apply Enabled init es r)
      (enabled : Enabled e r) : Trace apply Enabled init (e :: es) (apply e r)

/-- The events of a run from `s`, latest first. -/
def log (step : σ → α → σ) (emit : σ → α → Option ε) : σ → List α → List ε
  | _, [] => []
  | s, a :: as => log step emit (step s a) as ++ (emit s a).toList

/-- What every event of a trace keeps holds at its end. -/
theorem Trace.inv {apply : ε → ρ → ρ} {Enabled : ε → ρ → Prop} {init r : ρ} {es : List ε}
    {P : ρ → Prop} (hinit : P init) (hstep : ∀ e r, Enabled e r → P r → P (apply e r))
    (h : Trace apply Enabled init es r) : P r := by
  induction h with
  | nil => exact hinit
  | cons e _ enabled ih => exact hstep e _ enabled ih

/-- One step changes the view by its event, and by nothing else. -/
structure Follows (step : σ → α → σ) (emit : σ → α → Option ε) (view : σ → ρ)
    (apply : ε → ρ → ρ) (Enabled : ε → ρ → Prop) (Inv : σ → Prop) : Prop where
  quiet : ∀ s a, Inv s → emit s a = none → view (step s a) = view s
  event : ∀ s a e, Inv s → emit s a = some e →
    Enabled e (view s) ∧ view (step s a) = apply e (view s)
  inv : ∀ s a, Inv s → Inv (step s a)

section Run

variable {step : σ → α → σ} {emit : σ → α → Option ε} {view : σ → ρ} {apply : ε → ρ → ρ}
  {Enabled : ε → ρ → Prop} {Inv : σ → Prop}

/-- Every event of a log is the event of an operation. -/
theorem exists_of_mem_log {e : ε} {s : σ} {as : List α} (h : e ∈ log step emit s as) :
    ∃ s', ∃ a ∈ as, emit s' a = some e := by
  induction as generalizing s with
  | nil => exact absurd h List.not_mem_nil
  | cons a as ih =>
    rw [log, List.mem_append, Option.mem_toList] at h
    rcases h with hlater | hnow
    · obtain ⟨s', b, hb, hemit⟩ := ih hlater
      exact ⟨s', b, List.mem_cons_of_mem _ hb, hemit⟩
    · exact ⟨s, a, List.mem_cons_self, hnow⟩

/-- The invariant of the steps holds after every run. -/
theorem Follows.inv_foldl (h : Follows step emit view apply Enabled Inv) {s : σ} (hs : Inv s)
    (as : List α) : Inv (as.foldl step s) := by
  induction as generalizing s with
  | nil => exact hs
  | cons a as ih => exact ih (h.inv s a hs)

/-- A trace goes on where an earlier one ended. -/
theorem Trace.append {init mid last : ρ} {es fs : List ε}
    (h : Trace apply Enabled init es mid) (h' : Trace apply Enabled mid fs last) :
    Trace apply Enabled init (fs ++ es) last := by
  induction h' with
  | nil => exact h
  | cons e _ enabled ih => exact .cons e ih enabled

/-- A trace can be cut anywhere. -/
theorem Trace.of_append {init last : ρ} {es fs : List ε}
    (h : Trace apply Enabled init (fs ++ es) last) :
    ∃ mid, Trace apply Enabled init es mid ∧ Trace apply Enabled mid fs last := by
  induction fs generalizing last with
  | nil => exact ⟨last, h, .nil⟩
  | cons f fs ih =>
    cases h with
    | cons _ before enabled =>
      obtain ⟨mid, hearly, hlate⟩ := ih before
      exact ⟨mid, hearly, .cons f hlate enabled⟩

/-- A step emits at most one event. -/
theorem length_log_le (s : σ) (as : List α) : (log step emit s as).length ≤ as.length := by
  induction as generalizing s with
  | nil => exact Nat.le_refl 0
  | cons a as ih =>
    have hone : (emit s a).toList.length ≤ 1 := by
      cases emit s a with
      | none => exact Nat.zero_le 1
      | some e => exact Nat.le_refl 1
    rw [log, List.length_append, List.length_cons]
    exact Nat.add_le_add (ih (step s a)) hone

/-- The log of a run is a trace of the view. -/
theorem Follows.trace_run (h : Follows step emit view apply Enabled Inv) {s : σ} (hs : Inv s)
    (as : List α) :
    Trace apply Enabled (view s) (log step emit s as) (view (as.foldl step s)) := by
  induction as generalizing s with
  | nil => exact .nil
  | cons a as ih =>
    have hrest := ih (h.inv s a hs)
    cases hemit : emit s a with
    | none =>
      rw [log, hemit, Option.toList_none, List.append_nil, ← h.quiet s a hs hemit]
      exact hrest
    | some e =>
      obtain ⟨henabled, hview⟩ := h.event s a e hs hemit
      rw [hview] at hrest
      rw [log, hemit, Option.toList_some]
      exact (Trace.cons e .nil henabled).append hrest

end Run

end KubeAtlas.Lib.EventLog
