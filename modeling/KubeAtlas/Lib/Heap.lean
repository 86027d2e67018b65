import Mathlib.Data.List.Sort

/-!
# `KubeAtlas.Lib.Heap`: the binary heap of Go's `container/heap`

Go's `container/heap` keeps a binary heap in a slice through `Less`
and `Swap` alone. `push` appends and sifts up; `pop` swaps the root
with the last element, sifts the new root down inside the
remaining prefix, and drops the last slot. The two sifts below are
the package's own `up` and `down` loops on an `Array`, with a fuel
argument that `push` and `pop` set to the array's size.

* `push_isHeap` / `pop_isHeap`: both operations keep the heap order.
* `push_perm` / `pop_perm`: they add one element and take the root
  away.
* `root_min`: no element is less than the root.
* `popAll_pairwise` / `popAll_perm`: popping until the heap is empty
  lists its elements in order.
* `popAll_eq_of_perm`: the popped sequence does not depend on the
  order of the pushes, as soon as `less` tells the pushed elements
  apart.
-/

set_option autoImplicit false

namespace KubeAtlas.Lib.Heap

variable {α : Type*} [Inhabited α] (less : α → α → Bool)

/-- `up` sifts the element at `j` towards the root. Go leaves the
loop at `j = 0` because the root's parent index is `0` again. -/
def up : Nat → Array α → Nat → Array α
  | 0, a, _ => a
  | fuel + 1, a, j =>
    let i := (j - 1) / 2
    if i = j || !less a[j]! a[i]! then a
    else up fuel (a.swapIfInBounds i j) i

/-- The child `down` compares with: the left one, unless the right
one exists and is less. -/
def minChild (n : Nat) (a : Array α) (i : Nat) : Nat :=
  let j1 := 2 * i + 1
  if j1 + 1 < n && less a[j1 + 1]! a[j1]! then j1 + 1 else j1

/-- `down` sifts the element at `i` towards the leaves of the prefix
of length `n`. -/
def down (n : Nat) : Nat → Array α → Nat → Array α
  | 0, a, _ => a
  | fuel + 1, a, i =>
    if n ≤ 2 * i + 1 then a
    else
      let j := minChild less n a i
      if !less a[j]! a[i]! then a
      else down n fuel (a.swapIfInBounds i j) j

/-- `heap.Push`. -/
def push (a : Array α) (x : α) : Array α :=
  up less (a.size + 1) (a.push x) a.size

/-- `heap.Pop`, without the returned value: that is the root, read
before. -/
def pop (a : Array α) : Array α :=
  let n := a.size - 1
  (down less n (n + 1) (a.swapIfInBounds 0 n) 0).pop

/-- The loop `for h.Len() > 0 { x := h[0]; heap.Pop(h); … }`, as the
list of the roots it reads. -/
def popAllFrom : Nat → Array α → List α
  | 0, _ => []
  | fuel + 1, a => if a.size = 0 then [] else a[0]! :: popAllFrom fuel (pop less a)

/-- The elements of a heap in the order in which popping returns
them. -/
def popAll (a : Array α) : List α :=
  popAllFrom less a.size a

/-- `Less` is a strict weak order: the two facts the sifts rely on. -/
structure StrictWeak : Prop where
  asymm : ∀ a b, less a b = true → less b a = false
  trans : ∀ a b c, less b a = false → less c b = false → less c a = false

/-- The heap order on the prefix of length `n`: no element is less
than its parent. -/
def IsHeap (a : Array α) (n : Nat) : Prop :=
  ∀ k, 0 < k → k < n → less a[k]! a[(k - 1) / 2]! = false

/-! ### Swaps -/

omit less in
/-- Reading a swapped array inside its bounds. -/
theorem getElem!_swapIfInBounds (a : Array α) {i j k : Nat} (hi : i < a.size)
    (hj : j < a.size) (hk : k < a.size) :
    (a.swapIfInBounds i j)[k]!
      = if k = i then a[j]! else if k = j then a[i]! else a[k]! := by
  have hk' : k < (a.swapIfInBounds i j).size := by simpa using hk
  grind

omit less [Inhabited α] in
/-- A swap permutes. -/
theorem swapIfInBounds_perm (a : Array α) (i j : Nat) :
    (a.swapIfInBounds i j).toList.Perm a.toList := by
  rw [Array.swapIfInBounds_def]
  split
  · split
    · exact (Array.swap_perm _ _).toList
    · exact .refl _
  · exact .refl _

/-! ### Sifting up -/

/-- Sifting up swaps, so it keeps the size. -/
@[simp] theorem size_up (fuel : Nat) (a : Array α) (j : Nat) :
    (up less fuel a j).size = a.size := by
  induction fuel generalizing a j with
  | zero => rfl
  | succ fuel ih =>
    simp only [up]
    split
    · rfl
    · rw [ih, Array.size_swapIfInBounds]

/-- It keeps the elements. -/
theorem up_perm (fuel : Nat) (a : Array α) (j : Nat) :
    (up less fuel a j).toList.Perm a.toList := by
  induction fuel generalizing a j with
  | zero => exact .refl _
  | succ fuel ih =>
    simp only [up]
    split
    · exact .refl _
    · exact (ih _ _).trans (swapIfInBounds_perm a _ j)

/-- What `up` needs of the order: every pair but the one at `j` is
in order, and the children of `j` are not less than the parent of
`j`. -/
structure UpOrder (a : Array α) (j : Nat) : Prop where
  except : ∀ k, 0 < k → k < a.size → k ≠ j → less a[k]! a[(k - 1) / 2]! = false
  grand : 0 < j → ∀ c, 0 < c → c < a.size → (c - 1) / 2 = j →
    less a[c]! a[(j - 1) / 2]! = false

variable {less}

/-- One swap of `up` moves the hole to the parent. -/
theorem UpOrder.swap (hless : StrictWeak less) {a : Array α} {j : Nat}
    (h : UpOrder less a j) (hj0 : 0 < j) (hj : j < a.size)
    (hlt : less a[j]! a[(j - 1) / 2]! = true) :
    UpOrder less (a.swapIfInBounds ((j - 1) / 2) j) ((j - 1) / 2) := by
  have hi : (j - 1) / 2 < a.size := by omega
  generalize hp : (j - 1) / 2 = i at *
  have hget : ∀ k, k < a.size → (a.swapIfInBounds i j)[k]!
      = if k = i then a[j]! else if k = j then a[i]! else a[k]! :=
    fun k hk => getElem!_swapIfInBounds a hi hj hk
  constructor
  · intro k hk0 hk hki
    rw [Array.size_swapIfInBounds] at hk
    rw [hget k hk, hget ((k - 1) / 2) (by omega), if_neg hki]
    by_cases hkj : k = j
    · -- The swapped pair itself.
      subst hkj
      rw [if_pos rfl, hp, if_pos rfl]
      exact hless.asymm _ _ hlt
    · rw [if_neg hkj]
      by_cases hpi : (k - 1) / 2 = i
      · -- A sibling of `j`: its parent got smaller.
        rw [if_pos hpi]
        have hki' := h.except k hk0 hk hkj
        rw [hpi] at hki'
        exact hless.trans _ _ _ (hless.asymm _ _ hlt) hki'
      · rw [if_neg hpi]
        by_cases hpj : (k - 1) / 2 = j
        · rw [if_pos hpj]
          have hgrand := h.grand hj0 k hk0 hk hpj
          rwa [hp] at hgrand
        · rw [if_neg hpj]
          exact h.except k hk0 hk hkj
  · intro hi0 c hc0 hc hci
    rw [Array.size_swapIfInBounds] at hc
    have hup := h.except i hi0 hi (by omega)
    rw [hget c hc, hget ((i - 1) / 2) (by omega), if_neg (by omega : ¬ c = i),
      if_neg (by omega : ¬ (i - 1) / 2 = i), if_neg (by omega : ¬ (i - 1) / 2 = j)]
    by_cases hcj : c = j
    · rw [if_pos hcj]
      exact hup
    · rw [if_neg hcj]
      have hci' := h.except c hc0 hc hcj
      rw [hci] at hci'
      exact hless.trans _ _ _ hup hci'

/-- If only `j` may be smaller than its parent, sifting it up makes
a heap. Induction on the fuel, which bounds the distance to the
root. -/
theorem up_isHeap (hless : StrictWeak less) (fuel : Nat) (a : Array α) (j : Nat)
    (hfuel : j ≤ fuel) (hj : j < a.size) (h : UpOrder less a j) :
    IsHeap less (up less (fuel + 1) a j) a.size := by
  induction fuel generalizing a j with
  | zero =>
    obtain rfl : j = 0 := by omega
    intro k hk0 hk
    simpa [up] using h.except k hk0 hk (by omega)
  | succ fuel ih =>
    rw [up]
    split
    · rename_i hstop
      intro k hk0 hk
      by_cases hkj : k = j
      · subst hkj
        have hne : (k - 1) / 2 ≠ k := by omega
        simpa [hne] using hstop
      · exact h.except k hk0 hk hkj
    · rename_i hgo
      simp only [Bool.or_eq_true, decide_eq_true_eq, Bool.not_eq_true', not_or,
        Bool.not_eq_false] at hgo
      have hstep := ih (a.swapIfInBounds ((j - 1) / 2) j) ((j - 1) / 2) (by omega)
        (by rw [Array.size_swapIfInBounds]; omega)
        (h.swap hless (by omega) hj hgo.2)
      rwa [Array.size_swapIfInBounds] at hstep

variable (less)

/-- A push adds one element. -/
@[simp] theorem size_push (a : Array α) (x : α) : (push less a x).size = a.size + 1 := by
  simp [push]

/-- It is the one that is pushed. -/
theorem push_perm (a : Array α) (x : α) :
    (push less a x).toList.Perm (x :: a.toList) := by
  refine (up_perm less _ _ _).trans ?_
  rw [Array.toList_push]
  exact List.perm_append_singleton x a.toList

variable {less}

/-- A push keeps the heap. -/
theorem push_isHeap (hless : StrictWeak less) (a : Array α) (x : α)
    (h : IsHeap less a a.size) :
    IsHeap less (push less a x) (push less a x).size := by
  have hold : ∀ k, k < a.size → (a.push x)[k]! = a[k]! := by
    intro k hk
    rw [getElem!_pos (a.push x) k (by rw [Array.size_push]; omega), getElem!_pos a k hk,
      Array.getElem_push_lt hk]
  have hup : UpOrder less (a.push x) a.size := by
    constructor
    · intro k hk0 hk hne
      rw [Array.size_push] at hk
      rw [hold k (by omega), hold ((k - 1) / 2) (by omega)]
      exact h k hk0 (by omega)
    · intro _ c hc0 hc hca
      rw [Array.size_push] at hc
      omega
  rw [size_push]
  have := up_isHeap hless a.size (a.push x) a.size (Nat.le_refl _)
    (by rw [Array.size_push]; omega) hup
  rwa [Array.size_push] at this

/-! ### Sifting down -/

variable (less) in
/-- The smaller child is in the heap, if there is a child. -/
theorem minChild_lt {n i : Nat} (a : Array α) (hc : ¬ n ≤ 2 * i + 1) :
    minChild less n a i < n := by
  simp only [minChild, Bool.and_eq_true, decide_eq_true_eq]
  split <;> omega

variable (less) in
/-- It is a child. -/
theorem minChild_parent (n : Nat) (a : Array α) (i : Nat) :
    0 < minChild less n a i ∧ (minChild less n a i - 1) / 2 = i := by
  simp only [minChild]
  split <;> omega

variable (n fuel : Nat) (a : Array α)

/-- Sifting down keeps the size. -/
@[simp] theorem size_down (i : Nat) :
    (down less n fuel a i).size = a.size := by
  induction fuel generalizing a i with
  | zero => rfl
  | succ fuel ih =>
    simp only [down]
    split
    · rfl
    · split
      · rfl
      · rw [ih, Array.size_swapIfInBounds]

/-- `down` leaves everything from `n` on in place and permutes the
array. -/
theorem down_perm (i : Nat) :
    (down less n fuel a i).toList.Perm a.toList := by
  induction fuel generalizing a i with
  | zero => exact .refl _
  | succ fuel ih =>
    simp only [down]
    split
    · exact .refl _
    · split
      · exact .refl _
      · exact (ih _ _).trans (swapIfInBounds_perm a i _)

/-- It does not touch what lies behind the heap. -/
theorem down_getElem!_of_le (i k : Nat) (hi : i < n)
    (hn : n ≤ a.size) (hk : n ≤ k) (hks : k < a.size) :
    (down less n fuel a i)[k]! = a[k]! := by
  induction fuel generalizing a i with
  | zero => rfl
  | succ fuel ih =>
    simp only [down]
    split
    · rfl
    · rename_i hj1
      have hjn := minChild_lt less a hj1
      split
      · rfl
      · rw [ih _ _ hjn (by rw [Array.size_swapIfInBounds]; exact hn)
          (by rw [Array.size_swapIfInBounds]; exact hks),
          getElem!_swapIfInBounds a (by omega) (by omega) hks,
          if_neg (by omega), if_neg (by omega)]

variable (less) in
/-- What `down` needs of the order: every pair whose parent is not
`i` is in order, and the children of `i` are not less than the
parent of `i`. -/
structure DownOrder (a : Array α) (n i : Nat) : Prop where
  except : ∀ k, 0 < k → k < n → (k - 1) / 2 ≠ i → less a[k]! a[(k - 1) / 2]! = false
  grand : 0 < i → ∀ c, 0 < c → c < n → (c - 1) / 2 = i →
    less a[c]! a[(i - 1) / 2]! = false

section

variable (hless : StrictWeak less)
include hless

/-- One swap of `down` moves the hole to the least child `j`. -/
theorem DownOrder.swap {a : Array α} {n i j : Nat}
    (h : DownOrder less a n i) (hn : n ≤ a.size) (hj0 : 0 < j) (hj : j < n)
    (hij : (j - 1) / 2 = i) (hmin : ∀ c, 0 < c → c < n → (c - 1) / 2 = i →
      less a[c]! a[j]! = false)
    (hlt : less a[j]! a[i]! = true) :
    DownOrder less (a.swapIfInBounds i j) n j := by
  have hget : ∀ k, k < a.size → (a.swapIfInBounds i j)[k]!
      = if k = i then a[j]! else if k = j then a[i]! else a[k]! :=
    fun k hk => getElem!_swapIfInBounds a (by omega) (by omega) hk
  constructor
  · intro k hk0 hk hpj
    rw [hget k (by omega), hget ((k - 1) / 2) (by omega), if_neg hpj]
    by_cases hki : k = i
    · -- The hole's own parent now sees the least child.
      subst hki
      rw [if_pos rfl, if_neg (by omega)]
      exact h.grand hk0 j hj0 hj hij
    · rw [if_neg hki]
      by_cases hpi : (k - 1) / 2 = i
      · rw [if_pos hpi]
        by_cases hkj : k = j
        · rw [if_pos hkj]
          exact hless.asymm _ _ hlt
        · rw [if_neg hkj]
          exact hmin k hk0 hk hpi
      · rw [if_neg hpi, if_neg (by rintro rfl; exact hpi hij)]
        exact h.except k hk0 hk hpi
  · intro _ c hc0 hc hcj
    rw [hget c (by omega), hget ((j - 1) / 2) (by omega), if_neg (by omega),
      if_neg (by omega), if_pos hij]
    have := h.except c hc0 hc (by omega)
    rwa [hcj] at this

/-- The child `down` compares with is the least child. -/
theorem minChild_min (a : Array α) {n i c : Nat} (hc0 : 0 < c)
    (hcn : c < n) (hci : (c - 1) / 2 = i) : less a[c]! a[minChild less n a i]! = false := by
  have hirrefl : ∀ x : α, less x x = false := by
    intro x
    cases hx : less x x with
    | false => rfl
    | true => exact absurd (hless.asymm x x hx) (by simp [hx])
  have hcases : c = 2 * i + 1 ∨ c = 2 * i + 1 + 1 := by omega
  by_cases hright : 2 * i + 1 + 1 < n ∧ less a[2 * i + 1 + 1]! a[2 * i + 1]! = true
  · have hj : minChild less n a i = 2 * i + 1 + 1 := by simp [minChild, hright]
    rw [hj]
    rcases hcases with rfl | rfl
    · exact hless.asymm _ _ hright.2
    · exact hirrefl _
  · have hj : minChild less n a i = 2 * i + 1 := by
      simp only [minChild, Bool.and_eq_true, decide_eq_true_eq, if_neg hright]
    rw [hj]
    rcases hcases with rfl | rfl
    · exact hirrefl _
    · simpa [hcn] using hright

/-- If only the children of `i` may be smaller than their parent,
sifting `i` down makes a heap. -/
theorem down_isHeap (n fuel : Nat) (a : Array α) (i : Nat)
    (hfuel : n ≤ i + fuel) (hn : n ≤ a.size) (h : DownOrder less a n i) :
    IsHeap less (down less n fuel a i) n := by
  induction fuel generalizing a i with
  | zero =>
    intro k hk0 hk
    exact h.except k hk0 hk (by omega)
  | succ fuel ih =>
    simp only [down]
    split
    · intro k hk0 hk
      exact h.except k hk0 hk (by omega)
    · rename_i hj1
      have hjn := minChild_lt less a hj1
      obtain ⟨hj0, hij⟩ := minChild_parent less n a i
      split
      · rename_i hstop
        simp only [Bool.not_eq_true'] at hstop
        intro k hk0 hk
        by_cases hki : (k - 1) / 2 = i
        · rw [hki]
          exact hless.trans _ _ _ hstop (minChild_min hless a hk0 hk hki)
        · exact h.except k hk0 hk hki
      · rename_i hgo
        simp only [Bool.not_eq_true', Bool.not_eq_false] at hgo
        exact ih _ _ (by omega) (by rw [Array.size_swapIfInBounds]; exact hn)
          (h.swap hless hn hj0 hjn hij (fun c => minChild_min hless a) hgo)

/-! ### Popping -/

/-- The root is not greater than any element of a heap: follow the
parents. -/
theorem root_min (a : Array α) (n : Nat) (h : IsHeap less a n) :
    ∀ k, k < n → less a[k]! a[0]! = false := by
  intro k
  induction k using Nat.strongRecOn with
  | ind k ih =>
    intro hk
    rcases Nat.eq_zero_or_pos k with rfl | hk0
    · cases hx : less a[0]! a[0]! with
      | false => rfl
      | true => exact absurd (hless.asymm _ _ hx) (by simp [hx])
    · exact hless.trans _ _ _ (ih ((k - 1) / 2) (by omega) (by omega)) (h k hk0 hk)

end

/-- A pop removes one element. -/
@[simp] theorem size_pop (a : Array α) : (pop less a).size = a.size - 1 := by
  simp [pop]

/-- A pop keeps the heap. -/
theorem pop_isHeap (hless : StrictWeak less) (a : Array α) (h : IsHeap less a a.size) :
    IsHeap less (pop less a) (pop less a).size := by
  rw [size_pop]
  rcases Nat.eq_zero_or_pos (a.size - 1) with hz | hpos
  · intro k hk0 hk
    omega
  have hdown : DownOrder less (a.swapIfInBounds 0 (a.size - 1)) (a.size - 1) 0 := by
    constructor
    · intro k hk0 hk hp
      rw [getElem!_swapIfInBounds a (by omega) (by omega) (by omega),
        getElem!_swapIfInBounds a (by omega) (by omega) (by omega),
        if_neg (by omega), if_neg (by omega), if_neg hp, if_neg (by omega)]
      exact h k hk0 (by omega)
    · intro h0
      omega
  have hheap := down_isHeap hless (a.size - 1) (a.size - 1 + 1)
    (a.swapIfInBounds 0 (a.size - 1)) 0 (by omega) (by simp) hdown
  -- Dropping the last slot does not touch the prefix the order is about.
  intro k hk0 hk
  have hget : ∀ k, k < a.size - 1 → (pop less a)[k]!
      = (down less (a.size - 1) (a.size - 1 + 1) (a.swapIfInBounds 0 (a.size - 1)) 0)[k]! := by
    intro k hk
    have h1 : k < (pop less a).size := by rw [size_pop]; exact hk
    have h2 : k < (down less (a.size - 1) (a.size - 1 + 1)
        (a.swapIfInBounds 0 (a.size - 1)) 0).size := by
      rw [size_down, Array.size_swapIfInBounds]
      omega
    rw [getElem!_pos _ k h1, getElem!_pos _ k h2]
    exact Array.getElem_pop _
  rw [hget k hk, hget ((k - 1) / 2) (by omega)]
  exact hheap k hk0 hk

variable (less) in
/-- A pop takes the root away and keeps everything else. -/
theorem pop_perm (a : Array α) (hpos : 0 < a.size) :
    (a[0]! :: (pop less a).toList).Perm a.toList := by
  have hn : a.size - 1 < a.size := by omega
  generalize hb : down less (a.size - 1) (a.size - 1 + 1)
    (a.swapIfInBounds 0 (a.size - 1)) 0 = b
  have hbsize : b.size = a.size := by rw [← hb, size_down, Array.size_swapIfInBounds]
  have hbperm : b.toList.Perm a.toList := by
    rw [← hb]
    exact (down_perm _ _ _ _).trans (swapIfInBounds_perm a 0 _)
  -- The last slot of the sifted array still holds the old root.
  have hlast : b[a.size - 1]! = a[0]! := by
    rcases Nat.eq_zero_or_pos (a.size - 1) with hz | hz
    · rw [← hb, hz]
      simp [down, getElem!_swapIfInBounds a hpos hpos hpos]
    · rw [← hb, down_getElem!_of_le _ _ _ _ _ hz (by rw [Array.size_swapIfInBounds]; omega)
        (Nat.le_refl _) (by rw [Array.size_swapIfInBounds]; omega),
        getElem!_swapIfInBounds a (by omega) hn hn, if_neg (by omega), if_pos rfl]
  have hsplit : b.toList = b.pop.toList ++ [b[a.size - 1]!] := by
    have hb0 : b.toList ≠ [] := by
      intro hnil
      have : b.toList.length = 0 := by rw [hnil]; rfl
      rw [Array.length_toList] at this
      omega
    rw [Array.toList_pop, getElem!_pos b (a.size - 1) (by omega)]
    have hgl : b[a.size - 1] = b.toList.getLast hb0 := by
      rw [List.getLast_eq_getElem]
      simp [hbsize]
    rw [hgl]
    exact (List.dropLast_append_getLast hb0).symm
  have hpop : pop less a = b.pop := by rw [← hb]; rfl
  rw [hpop, ← hlast]
  refine (List.perm_append_singleton _ _).symm.trans ?_
  rw [← hsplit]
  exact hbperm

/-- Popping until nothing is left returns every element once. -/
theorem popAllFrom_perm (fuel : Nat) (a : Array α) (hfuel : a.size ≤ fuel) :
    (popAllFrom less fuel a).Perm a.toList := by
  induction fuel generalizing a with
  | zero =>
    have : a = #[] := Array.eq_empty_of_size_eq_zero (by omega)
    subst this
    exact .refl _
  | succ fuel ih =>
    rw [popAllFrom]
    split
    · rename_i hz
      have : a = #[] := Array.eq_empty_of_size_eq_zero hz
      subst this
      exact .refl _
    · rename_i hz
      exact ((ih (pop less a) (by rw [size_pop]; omega)).cons _).trans
        (pop_perm less a (by omega))

/-- Popping until the heap is empty returns every element once. -/
theorem popAll_perm (a : Array α) : (popAll less a).Perm a.toList :=
  popAllFrom_perm _ a (Nat.le_refl _)

/-- What is popped comes in order, because each pop returns a least
element. -/
theorem popAllFrom_pairwise (hless : StrictWeak less) (fuel : Nat) (a : Array α)
    (hfuel : a.size ≤ fuel) (h : IsHeap less a a.size) :
    (popAllFrom less fuel a).Pairwise (fun x y => less y x = false) := by
  induction fuel generalizing a with
  | zero => exact .nil
  | succ fuel ih =>
    rw [popAllFrom]
    split
    · exact .nil
    · rename_i hz
      refine .cons ?_ (ih _ (by rw [size_pop]; omega) (pop_isHeap hless a h))
      intro y hy
      have hmem : y ∈ a.toList := by
        have hy' := (popAllFrom_perm fuel (pop less a) (by rw [size_pop]; omega)).mem_iff.mp hy
        exact (pop_perm less a (by omega)).mem_iff.mp (List.mem_cons_of_mem _ hy')
      obtain ⟨k, hk, rfl⟩ := List.getElem_of_mem hmem
      have := root_min hless a a.size h k hk
      rwa [getElem!_pos a k hk] at this

/-- Popping until the heap is empty returns the elements in order. -/
theorem popAll_pairwise (hless : StrictWeak less) (a : Array α)
    (h : IsHeap less a a.size) :
    (popAll less a).Pairwise (fun x y => less y x = false) :=
  popAllFrom_pairwise hless _ a (Nat.le_refl _) h

/-- The popped sequence is a function of the elements: two heaps of
the same elements, which `less` tells apart, pop in the same order. -/
theorem popAll_eq_of_perm (hless : StrictWeak less) {a b : Array α}
    (ha : IsHeap less a a.size) (hb : IsHeap less b b.size) (hperm : a.toList.Perm b.toList)
    (hanti : ∀ x ∈ a.toList, ∀ y ∈ a.toList, less x y = false → less y x = false → x = y) :
    popAll less a = popAll less b := by
  have hpa : (popAll less a).Perm a.toList := popAll_perm a
  have hpb : (popAll less b).Perm b.toList := popAll_perm b
  refine List.Perm.eq_of_pairwise ?_ (popAll_pairwise hless a ha) (popAll_pairwise hless b hb)
    (hpa.trans (hperm.trans hpb.symm))
  intro x y hx hy hxy hyx
  exact hanti x (hpa.mem_iff.mp hx) y (hperm.mem_iff.mpr (hpb.mem_iff.mp hy)) hyx hxy

end KubeAtlas.Lib.Heap
