import Mathlib.Data.List.Dedup
import Mathlib.Logic.Relation

/-!
# `KubeAtlas.Lib.RecursiveQuery`: `WITH RECURSIVE … UNION`

The standard evaluation of a recursive common table expression. The
non-recursive term fills the result and the working table. While the
working table has rows, the recursive term is evaluated on it, rows
already in the result are discarded, and the remaining ones join the
result and become the next working table.

Nothing forces such a query to end. `evaluate` has a number of
rounds to spend and returns `none` when rows are left after them.
`evaluate_eq` gives the result, for a recursive term whose rows
climb a bounded rank: the query ends, and its rows are those
derivable from the base rows.
-/

set_option autoImplicit false

namespace KubeAtlas.Lib.RecursiveQuery

variable {α : Type} [DecidableEq α]

/-- The loop on the working table. -/
def iterate (term : List α → List α) : Nat → List α → List α → Option (List α)
  | _, result, [] => some result
  | 0, _, _ :: _ => none
  | rounds + 1, result, row :: rows =>
    let fresh := (term (row :: rows)).dedup.filter fun r => r ∉ result
    iterate term rounds (result ++ fresh) fresh

/-- The rows of the query, if `rounds` evaluations of the recursive
term exhaust it. -/
def evaluate (term : List α → List α) (rounds : Nat) (base : List α) : Option (List α) :=
  iterate term rounds base.dedup base.dedup

variable {term : List α → List α} {Derives : α → α → Prop} {rank : α → Nat} {bound : Nat}

/-- The state of the loop: every row is derivable from the base
rows, and whatever a row outside the working table derives is in the
result. -/
structure Loop (Derives : α → α → Prop) (base result working : List α) : Prop where
  base_subset : ∀ b ∈ base, b ∈ result
  working_subset : ∀ w ∈ working, w ∈ result
  derivable : ∀ r ∈ result, ∃ b ∈ base, Relation.ReflTransGen Derives b r
  closed : ∀ r ∈ result, r ∉ working → ∀ r', Derives r r' → r' ∈ result

/-- The first round has the rows of the base. -/
theorem Loop.start (Derives : α → α → Prop) (base : List α) :
    Loop Derives base base.dedup base.dedup where
  base_subset _ hb := List.mem_dedup.mpr hb
  working_subset _ hw := hw
  derivable r hr := ⟨r, List.mem_dedup.mp hr, .refl⟩
  closed _ hr hnot := absurd hr hnot

variable {base result working : List α}

/-- One round keeps the state of the loop. -/
theorem Loop.round (h : Loop Derives base result working)
    (hterm : ∀ r', r' ∈ term working ↔ ∃ w ∈ working, Derives w r') :
    Loop Derives base (result ++ (term working).dedup.filter fun r => r ∉ result)
      ((term working).dedup.filter fun r => r ∉ result) := by
  have hfresh : ∀ r, (r ∈ (term working).dedup.filter fun r => r ∉ result) ↔
      (∃ w ∈ working, Derives w r) ∧ r ∉ result := by
    intro r
    rw [List.mem_filter, List.mem_dedup, hterm, decide_eq_true_iff]
  refine ⟨?_, ?_, ?_, ?_⟩
  · intro b hb
    exact List.mem_append_left _ (h.base_subset b hb)
  · intro w hw
    exact List.mem_append_right _ hw
  · intro r hr
    rcases List.mem_append.mp hr with hold | hnew
    · exact h.derivable r hold
    · obtain ⟨⟨w, hw, hd⟩, -⟩ := (hfresh r).mp hnew
      obtain ⟨b, hb, hpath⟩ := h.derivable w (h.working_subset w hw)
      exact ⟨b, hb, hpath.tail hd⟩
  · intro r hr hnot r' hd
    have hold : r ∈ result := (List.mem_append.mp hr).resolve_right hnot
    rw [List.mem_append, hfresh]
    by_cases hr' : r' ∈ result
    · exact Or.inl hr'
    · -- only rows of the working table derive something new
      by_cases hw : r ∈ working
      · exact Or.inr ⟨⟨r, hw, hd⟩, hr'⟩
      · exact Or.inl (h.closed r hold hw r' hd)

omit [DecidableEq α] in
/-- When the working table is empty, the result is the set of
derivable rows. -/
theorem Loop.mem_iff {base result : List α} (h : Loop Derives base result []) (r : α) :
    r ∈ result ↔ ∃ b ∈ base, Relation.ReflTransGen Derives b r := by
  constructor
  · exact h.derivable r
  · rintro ⟨b, hb, hpath⟩
    induction hpath with
    | refl => exact h.base_subset b hb
    | tail _ hd ih => exact h.closed _ ih List.not_mem_nil _ hd

/-- With rounds enough for the ranks that are left, the loop ends. -/
theorem Loop.iterate_eq {rounds : Nat} (h : Loop Derives base result working)
    (hterm : ∀ rows r', r' ∈ term rows ↔ ∃ w ∈ rows, Derives w r')
    (hrank : ∀ r r', Derives r r' → rank r < rank r' ∧ rank r' ≤ bound)
    (hrounds : ∀ w ∈ working, rank w ≤ bound ∧ bound < rank w + rounds) :
    ∃ rows, iterate term rounds result working = some rows ∧
      ∀ r, r ∈ rows ↔ ∃ b ∈ base, Relation.ReflTransGen Derives b r := by
  induction rounds generalizing result working with
  | zero =>
    cases working with
    | nil => exact ⟨result, by rw [iterate], h.mem_iff⟩
    | cons w ws =>
      have := hrounds w List.mem_cons_self
      omega
  | succ rounds ih =>
    cases working with
    | nil => exact ⟨result, by rw [iterate], h.mem_iff⟩
    | cons w ws =>
      refine ih (h.round (hterm (w :: ws))) ?_
      intro r hr
      have hmem : r ∈ term (w :: ws) := List.mem_dedup.mp (List.mem_filter.mp hr).1
      obtain ⟨u, hu, hd⟩ := (hterm (w :: ws) r).mp hmem
      have hu' := hrounds u hu
      have hr' := hrank u r hd
      omega

/-- The rows of a recursive query are the rows derivable from its
base rows. -/
theorem evaluate_eq (rank : α → Nat) (base : List α) (rounds : Nat)
    (hterm : ∀ rows r', r' ∈ term rows ↔ ∃ w ∈ rows, Derives w r')
    (hrank : ∀ r r', Derives r r' → rank r < rank r' ∧ rank r' ≤ bound)
    (hrounds : ∀ b ∈ base, rank b ≤ bound ∧ bound < rank b + rounds) :
    ∃ rows, evaluate term rounds base = some rows ∧
      ∀ r, r ∈ rows ↔ ∃ b ∈ base, Relation.ReflTransGen Derives b r :=
  (Loop.start Derives base).iterate_eq hterm hrank fun b hb =>
    hrounds b (List.mem_dedup.mp hb)

end KubeAtlas.Lib.RecursiveQuery
