import KubeAtlas.Lib.NestedMap

/-!
# `KubeAtlas.Lib.Tally`: loops that collect by key

A loop over a list that updates, in each round, what is kept for the
key of one item. Whatever the results are kept in, `Groups` says
what one round does to what is read, and `Groups.read_foldl` what
the whole loop does: what is read at a key comes from the items that
have the key, in their order. Counting is the case in which a round
increments a counter.
-/

set_option autoImplicit false

namespace KubeAtlas.Lib.Tally

variable {σ K V α : Type} [DecidableEq K]

/-- What `n` increments make of a counter; a missing one counts from
zero. -/
def raised (counter : Option Nat) (n : Nat) : Option Nat :=
  if n = 0 then counter else some (counter.getD 0 + n)

/-- A count that starts at nothing is what was counted. -/
@[simp] theorem raised_none_getD (n : Nat) : (raised none n).getD 0 = n := by
  by_cases h : n = 0 <;> simp [raised, h]

/-- One round updates what is kept for the key of its item, if the
item has a key. -/
structure Groups (read : σ → K → Option V) (key : α → Option K) (update : K → α → Option V → V)
    (step : σ → α → σ) : Prop where
  skip : ∀ m a, key a = none → step m a = m
  bump : ∀ m a k, key a = some k → ∀ k',
    read (step m a) k' = if k' = k then some (update k a (read m k)) else read m k'

/-- A loop that writes one entry for each item leaves in each entry
what its own items did to it. -/
theorem Groups.read_foldl {read : σ → K → Option V} {key : α → Option K}
    {update : K → α → Option V → V} {step : σ → α → σ} (h : Groups read key update step)
    (items : List α) (m : σ) (k : K) :
    read (items.foldl step m) k
      = (items.filter fun a => key a = some k).foldl (fun v a => some (update k a v))
          (read m k) := by
  induction items generalizing m with
  | nil => rfl
  | cons a items ih =>
    rw [List.foldl_cons, ih, List.filter_cons]
    cases hkey : key a with
    | none => simp [h.skip m a hkey]
    | some k' =>
      rw [h.bump m a k' hkey k]
      by_cases hk : k = k'
      · simp [hk]
      · simp [hk, Ne.symm hk]

/-- One round increments the counter of the key of its item. -/
abbrev Counts (read : σ → K → Option Nat) (key : α → Option K) (step : σ → α → σ) : Prop :=
  Groups read key (fun _ _ n => n.getD 0 + 1) step

/-- A loop that counts leaves the number of items of each key. -/
theorem Counts.read_foldl {read : σ → K → Option Nat} {key : α → Option K} {step : σ → α → σ}
    (h : Counts read key step) (items : List α) (m : σ) (k : K) :
    read (items.foldl step m) k = raised (read m k) (items.countP fun a => key a = some k) := by
  rw [Groups.read_foldl h, List.countP_eq_length_filter]
  generalize items.filter _ = items
  generalize read m k = n
  induction items generalizing n with
  | nil => rfl
  | cons a items ih =>
    rw [List.foldl_cons, ih, List.length_cons]
    by_cases hrest : items.length = 0
    · simp [raised, hrest]
    · simp [raised, hrest]
      omega

/-- `m[k]++` on a map. -/
theorem lookup_insert_ite (m : GoMap K V) (k k' : K) (v : V) :
    (m.insert k v).lookup k' = if k' = k then some v else m.lookup k' := by
  by_cases h : k' = k
  · rw [if_pos h, h, AList.lookup_insert]
  · rw [if_neg h, AList.lookup_insert_ne h]

end KubeAtlas.Lib.Tally
