import Mathlib.Data.Fintype.BigOperators

/-!
# `KubeAtlas.Lib.Transition`: runs of a labelled transition system

A `Run` is a finite history. Its trace has an entry for each step:
the state in which the step was made, and its label. So a property
may look back at what a step found.

`Run.inv` is the rule for invariants, over the trace and the state
together. A system whose steps all lower a measure has no endless
run (`terminates_of_measure`); its histories are then described by
its complete runs, those that cannot go on.

The last section is about systems of many threads that are alike:
what the threads hold together is a sum, and a step of one thread
changes one summand.
-/

set_option autoImplicit false

namespace KubeAtlas.Lib.Transition

variable {S L : Type} (step : S → L → S → Prop)

/-- A finite history from `s`. -/
inductive Run (s : S) : List (S × L) → S → Prop
  | nil : Run s [] s
  | snoc {trace : List (S × L)} {s' s'' : S} {l : L} (before : Run s trace s')
      (h : step s' l s'') : Run s (trace ++ [(s', l)]) s''

/-- No step can be made. -/
def Complete (s : S) : Prop := ∀ l s', ¬ step s l s'

/-- There is no endless run from `s`. -/
def Terminates (s : S) : Prop := Acc (fun s' s => ∃ l, step s l s') s

variable {step} {s s' s'' : S} {l : L} {trace later : List (S × L)}

/-- One step is a run. -/
theorem Run.single (h : step s l s') : Run step s [(s, l)] s' := .snoc .nil h

/-- Runs compose. -/
theorem Run.append (h : Run step s trace s') (h' : Run step s' later s'') :
    Run step s (trace ++ later) s'' := by
  induction h' with
  | nil => rwa [List.append_nil]
  | snoc _ hstep ih =>
    rw [← List.append_assoc]
    exact .snoc ih hstep

/-- What holds at first and is kept by every step holds of every
run. -/
theorem Run.inv (inv : List (S × L) → S → Prop) (hinit : inv [] s)
    (hstep : ∀ trace s l s', inv trace s → step s l s' → inv (trace ++ [(s, l)]) s')
    (h : Run step s trace s') : inv trace s' := by
  induction h with
  | nil => exact hinit
  | snoc _ h ih => exact hstep _ _ _ _ ih h

/-- The same, for a property of the state alone. -/
theorem Run.inv_state {inv : S → Prop} (hstep : ∀ s l s', inv s → step s l s' → inv s')
    (h : Run step s trace s') (hinit : inv s) : inv s' :=
  h.inv (fun _ s => inv s) hinit fun _ s l s' => hstep s l s'

/-- An entry of a trace was reached, and its step was made. -/
theorem Run.entry (h : Run step s trace s') {e : S × L} (he : e ∈ trace) :
    ∃ before, Run step s before e.1 ∧ ∃ s₁, step e.1 e.2 s₁ := by
  induction h with
  | nil => cases he
  | snoc before hstep ih =>
    rcases List.mem_append.mp he with he | he
    · exact ih he
    · cases List.mem_singleton.mp he
      exact ⟨_, before, _, hstep⟩

/-- A schedule of steps that a function gives, with the states it
goes through. -/
def exec (next : S → L → Option S) (s : S) : List L → Option (List (S × L) × S)
  | [] => some ([], s)
  | l :: ls =>
    match next s l with
    | none => none
    | some s' => (exec next s' ls).map fun r => ((s, l) :: r.1, r.2)

variable {next : S → L → Option S}

/-- What an executable step function computes is a run. -/
theorem run_of_exec (hnext : ∀ s l s', next s l = some s' → step s l s') {ls : List L}
    (h : exec next s ls = some (trace, s')) : Run step s trace s' := by
  induction ls generalizing s trace with
  | nil =>
    cases h
    exact .nil
  | cons l ls ih =>
    unfold exec at h
    cases hs : next s l with
    | none =>
      rw [hs] at h
      cases h
    | some s₁ =>
      rw [hs] at h
      obtain ⟨r, hr, hcons⟩ := Option.map_eq_some_iff.mp h
      cases hcons
      exact (Run.single (hnext s l s₁ hs)).append (ih hr)

/-- A schedule whose outcome passes a test gives a run that does. -/
theorem exists_run_of_exec (hnext : ∀ s l s', next s l = some s' → step s l s') (s : S)
    (ls : List L) (test : List (S × L) → S → Bool)
    (h : (exec next s ls).any (fun r => test r.1 r.2) = true) :
    ∃ trace s', Run step s trace s' ∧ test trace s' = true := by
  cases hexec : exec next s ls with
  | none => simp [hexec] at h
  | some r =>
    refine ⟨r.1, r.2, run_of_exec hnext hexec, ?_⟩
    simpa [hexec] using h

/-- Steps that lower a measure come to an end. -/
theorem terminates_of_measure (measure : S → Nat)
    (h : ∀ s l s', step s l s' → measure s' < measure s) (s : S) : Terminates step s := by
  have hwf : WellFounded fun s' s => ∃ l, step s l s' := by
    refine Subrelation.wf ?_ (InvImage.wf measure Nat.lt_wfRel.wf)
    rintro s' s ⟨l, hstep⟩
    exact h s l s' hstep
  exact hwf.apply s

/-! ### Threads -/

section Threads

variable {T A : Type} [Fintype T] [DecidableEq T]

/-- A change of one thread changes one summand. -/
theorem sum_update_add (f : T → A → Nat) (threads : T → A) (t : T) (a : A) :
    (∑ u, f u (Function.update threads t a u)) + f t (threads t)
      = (∑ u, f u (threads u)) + f t a := by
  have hrest : ∑ u ∈ Finset.univ.erase t, f u (Function.update threads t a u)
      = ∑ u ∈ Finset.univ.erase t, f u (threads u) := by
    refine Finset.sum_congr rfl fun u hu => ?_
    rw [Function.update_of_ne (Finset.ne_of_mem_erase hu)]
  rw [← Finset.add_sum_erase _ _ (Finset.mem_univ t), hrest, Function.update_self,
    ← Finset.add_sum_erase _ (fun u => f u (threads u)) (Finset.mem_univ t)]
  omega

end Threads

end KubeAtlas.Lib.Transition
