import KubeAtlas.Lib.Strings
import Mathlib.Algebra.Order.BigOperators.Group.List
import Mathlib.Tactic.Ring

/-!
# `KubeAtlas.Lib.Budget`: charging a byte budget

A budget is a number of bytes left. `charge` takes a fixed overhead
and six bytes for every byte of each field, the worst JSON escape,
and divides before it compares so that no product can overflow. It
fails at the first item that does not fit, with the items before it
already taken.

`charge_eq_cost` reads the loop as one comparison: a charge succeeds
exactly when its whole `cost` fits, and then takes exactly that.
`Meters` lifts this to computations: `Meters e m a c` says that `m`
returns `a` and takes `c`, or fails with `e` when `c` does not fit.
Costs add along a sequence (`Meters.bind`), which is why the order
of charges does not matter for the outcome.
-/

set_option autoImplicit false

namespace KubeAtlas.Lib.Budget

open Lib.Strings (len)

/-- The loop over the fields: what is left, and whether every field
fit. -/
def chargeFields : Nat → List String → Nat × Bool
  | remaining, [] => (remaining, true)
  | remaining, field :: fields =>
    if len field > remaining / 6 then (remaining, false)
    else chargeFields (remaining - 6 * len field) fields

/-- One charge: the overhead first, then the fields. -/
def charge (remaining overhead : Nat) (fields : List String) : Nat × Bool :=
  if overhead > remaining then (remaining, false)
  else chargeFields (remaining - overhead) fields

/-- The whole cost of a charge. -/
def cost (overhead : Nat) (fields : List String) : Nat :=
  overhead + (fields.map (fun field => 6 * len field)).sum

/-- A charge without fields is its overhead. -/
@[simp] theorem cost_nil (overhead : Nat) : cost overhead [] = overhead := by
  simp [cost]

/-- Each field adds six times its length: the longest escape of a
byte has six. -/
@[simp] theorem cost_cons (overhead : Nat) (field : String) (fields : List String) :
    cost overhead (field :: fields) = 6 * len field + cost overhead fields := by
  simp only [cost, List.map_cons, List.sum_cons]
  omega

/-- The field loop succeeds exactly when the sum of the fields fits.
The division by six rounds down, and `6 * len field ≤ remaining` is
what it tests. -/
theorem chargeFields_eq (remaining : Nat) (fields : List String) :
    (chargeFields remaining fields).2
        = decide ((fields.map (fun field => 6 * len field)).sum ≤ remaining) ∧
      ((chargeFields remaining fields).2 = true →
        (chargeFields remaining fields).1
          = remaining - (fields.map (fun field => 6 * len field)).sum) := by
  induction fields generalizing remaining with
  | nil => simp [chargeFields]
  | cons field fields ih =>
    simp only [chargeFields, List.map_cons, List.sum_cons]
    split
    · rename_i hover
      refine ⟨?_, fun h => Bool.noConfusion h⟩
      symm
      rw [decide_eq_false_iff_not]
      omega
    · rename_i hfits
      obtain ⟨hok, hrem⟩ := ih (remaining - 6 * len field)
      refine ⟨?_, fun h => ?_⟩
      · rw [hok, decide_eq_decide]
        omega
      · rw [hrem h, Nat.sub_sub]

/-- A charge succeeds exactly when its cost fits, and then takes its
cost. -/
theorem charge_eq_cost (remaining overhead : Nat) (fields : List String) :
    (charge remaining overhead fields).2 = decide (cost overhead fields ≤ remaining) ∧
      ((charge remaining overhead fields).2 = true →
        (charge remaining overhead fields).1 = remaining - cost overhead fields) := by
  unfold charge cost
  split
  · rename_i hover
    refine ⟨?_, fun h => Bool.noConfusion h⟩
    symm
    rw [decide_eq_false_iff_not]
    omega
  · rename_i hfits
    obtain ⟨hok, hrem⟩ := chargeFields_eq (remaining - overhead) fields
    refine ⟨?_, fun h => ?_⟩
    · rw [hok, decide_eq_decide]
      omega
    · rw [hrem h, Nat.sub_sub]

/-! ### Metered computations -/

section Meters

variable {ε α β : Type}

/-- `m` returns `a` and takes `c` from the budget, or fails with `e`
when `c` does not fit. -/
def Meters (e : ε) (m : Nat → Except ε (α × Nat)) (a : α) (c : Nat) : Prop :=
  ∀ n, m n = if c ≤ n then .ok (a, n - c) else .error e

/-- Running one metered computation after another. -/
def andThen (m : Nat → Except ε (α × Nat)) (f : α → Nat → Except ε (β × Nat)) :
    Nat → Except ε (β × Nat) :=
  fun n =>
    match m n with
    | .error e => .error e
    | .ok (a, n') => f a n'

/-- A computation that charges nothing. -/
def free (a : α) : Nat → Except ε (α × Nat) := fun n => .ok (a, n)

/-- A charge as a metered computation. -/
def pay (e : ε) (overhead : Nat) (fields : List String) : Nat → Except ε (Unit × Nat) :=
  fun n =>
    match charge n overhead fields with
    | (n', true) => .ok ((), n')
    | (_, false) => .error e

/-- What is free costs nothing. -/
theorem Meters.free (e : ε) (a : α) : Meters e (Budget.free a) a 0 := by
  intro n
  simp [Budget.free]

/-- A payment costs its charge, and fails if that is not left. -/
theorem Meters.pay (e : ε) (overhead : Nat) (fields : List String) :
    Meters e (Budget.pay e overhead fields) () (cost overhead fields) := by
  intro n
  obtain ⟨hok, hrem⟩ := charge_eq_cost n overhead fields
  unfold Budget.pay
  split
  · rename_i n' heq
    rw [heq] at hok hrem
    rw [if_pos (by simpa using hok.symm), ← hrem rfl]
  · rename_i n' heq
    rw [heq] at hok
    rw [if_neg (by simpa using hok.symm)]

/-- Costs add along a sequence. -/
theorem Meters.bind {e : ε} {m : Nat → Except ε (α × Nat)}
    {f : α → Nat → Except ε (β × Nat)} {a : α} {b : β} {c d : Nat}
    (hm : Meters e m a c) (hf : Meters e (f a) b d) :
    Meters e (andThen m f) b (c + d) := by
  intro n
  unfold andThen
  rw [hm n]
  by_cases hc : c ≤ n
  · rw [if_pos hc]
    show f a (n - c) = _
    rw [hf (n - c)]
    by_cases hd : c + d ≤ n
    · rw [if_pos hd, if_pos (by omega), Nat.sub_sub]
    · rw [if_neg hd, if_neg (by omega)]
  · rw [if_neg hc, if_neg (by omega)]

end Meters

/-! ### Bounded loops -/

section Loop

variable {ε σ α : Type}

/-- A loop body that skips some items and takes each other one, if
there is room for it and its cost fits what is left. -/
structure Takes (e : ε) (step : σ → α → Except ε σ) (keep : α → Bool) (price : α → Nat)
    (Valid : σ → Prop) (room left : σ → Nat) (push : σ → α → σ) : Prop where
  skip : ∀ s x, Valid s → keep x = false → step s x = .ok s
  take : ∀ s x, Valid s → keep x = true →
    step s x = if room s = 0 ∨ left s < price x then .error e else .ok (push s x)
  push : ∀ s x, Valid s → room s ≠ 0 →
    Valid (push s x) ∧ room (push s x) = room s - 1 ∧ left (push s x) = left s - price x

variable {keep : α → Bool} {step : σ → α → Except ε σ} {Valid : σ → Prop} {room left : σ → Nat}
  {price : α → Nat} {push : σ → α → σ}

section

variable {e : ε} (h : Takes e step keep price Valid room left push) (xs : List α) {s : σ}
  (hs : Valid s)
include h hs

/-- The whole loop makes two comparisons: the number of items it
takes with the room, and their total cost with what is left. The
order of the items decides neither. -/
theorem Takes.foldlM_eq :
    xs.foldlM step s =
      if (xs.filter keep).length ≤ room s ∧ ((xs.filter keep).map price).sum ≤ left s then
        .ok ((xs.filter keep).foldl push s)
      else .error e := by
  induction xs generalizing s with
  | nil =>
    show Except.ok s = _
    simp
  | cons x xs ih =>
    rw [List.foldlM_cons]
    cases hx : keep x with
    | false =>
      rw [h.skip s x hs hx, List.filter_cons_of_neg (by simp [hx])]
      exact ih hs
    | true =>
      rw [h.take s x hs hx, List.filter_cons_of_pos hx, List.length_cons, List.map_cons,
        List.sum_cons, List.foldl_cons]
      by_cases hfull : room s = 0 ∨ left s < price x
      · rw [if_pos hfull, if_neg (by omega)]
        rfl
      · rw [if_neg hfull]
        obtain ⟨hvalid, hroom, hleft⟩ := h.push s x hs (by omega)
        show xs.foldlM step (push s x) = _
        rw [ih hvalid, hroom, hleft]
        exact if_congr (by omega) rfl rfl

/-- Items that are not kept, and those beyond the room, can be left
out beforehand. -/
theorem Takes.foldlM_take {n : Nat} (hn : room s < n) :
    ((xs.filter keep).take n).foldlM step s = xs.foldlM step s := by
  have hkept : ((xs.filter keep).take n).filter keep = (xs.filter keep).take n :=
    List.filter_eq_self.mpr fun x hx => List.of_mem_filter (List.mem_of_mem_take hx)
  rw [h.foldlM_eq _ hs, h.foldlM_eq xs hs, hkept]
  by_cases hlen : (xs.filter keep).length ≤ n
  · rw [List.take_of_length_le hlen]
  · -- one item beyond the room is enough to fail
    have htake : ((xs.filter keep).take n).length = n := List.length_take_of_le (by omega)
    rw [if_neg (by omega), if_neg (by omega)]

end

end Loop

end KubeAtlas.Lib.Budget
