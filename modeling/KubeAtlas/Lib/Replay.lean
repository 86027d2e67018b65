import Mathlib.Data.List.Induction
import Mathlib.Logic.Function.Basic

/-!
# `KubeAtlas.Lib.Replay`: replaying a log of assignments

Each entry of a log sets one key to a value. `replay` carries the
entries out in order, on a function from keys to values. What is at
a key afterwards depends on the entries for that key only, and two
logs whose entries correspond leave corresponding values.
-/

set_option autoImplicit false

namespace KubeAtlas.Lib

variable {α β K L V W : Type} [DecidableEq K] [DecidableEq L]

/-- The entries of a log, carried out from `s`. -/
def replay (key : α → K) (value : α → V) (s : K → V) (log : List α) : K → V :=
  log.foldl (fun s x => Function.update s (key x) (value x)) s

namespace Replay

variable {key : α → K} {value : α → V} {s : K → V} {log : List α} {k : K}

/-- The last entry decides about its key. -/
theorem concat (x : α) :
    replay key value s (log ++ [x])
      = Function.update (replay key value s log) (key x) (value x) := by
  simp [replay]

/-- Only the entries for a key matter for what is there. -/
theorem filter_eq (log : List α) (k : K) :
    replay key value s (log.filter fun x => key x = k) k = replay key value s log k := by
  induction log using List.reverseRecOn with
  | nil => rfl
  | append_singleton log x ih =>
    rw [List.filter_append, concat]
    by_cases hx : key x = k
    · rw [List.filter_cons_of_pos (by simpa using hx), List.filter_nil, concat, hx,
        Function.update_self, Function.update_self]
    · rw [List.filter_cons_of_neg (by simpa using hx), List.filter_nil, List.append_nil, ih,
        Function.update_of_ne (Ne.symm hx)]

/-- Logs that correspond entry by entry leave values that
correspond. -/
theorem of_forall₂ {key' : β → L} {value' : β → W} {s' : L → W} {log' : List β} {l : L}
    {R : V → W → Prop} (hinit : R (s k) (s' l))
    (h : List.Forall₂ (fun x y => key x = k ∧ key' y = l ∧ R (value x) (value' y)) log log') :
    R (replay key value s log k) (replay key' value' s' log' l) := by
  unfold replay
  induction h generalizing s s' with
  | nil => exact hinit
  | @cons x y log log' hxy _ ih =>
    obtain ⟨hx, hy, hvalue⟩ := hxy
    rw [List.foldl_cons, List.foldl_cons]
    refine ih ?_
    rwa [hx, hy, Function.update_self, Function.update_self]

end Replay

end KubeAtlas.Lib
