import KubeAtlas.Lib.Strings

/-!
# `KubeAtlas.Lib.SqlText`: text functions of SQL

`strpos` and `split_part` as PostgreSQL documents them, for a
separator of one character. Both are written over the whole list of
fields or positions, as the manual describes them, and not in terms
of `Strings.cut`; the lemmas say what they give on the two forms a
text can have.
-/

set_option autoImplicit false

namespace KubeAtlas.Lib.SqlText

/-- `strpos(s, c)`: the position of the first `c`, counted from one,
or zero. -/
def strpos (s : String) (c : Char) : Nat :=
  match s.toList.idxOf? c with
  | some i => i + 1
  | none => 0

/-- `split_part(s, sep, n)` for `n ≥ 1`: the `n`-th of the fields
between separators, empty when there are fewer. -/
def splitPart (s : String) (sep : Char) (n : Nat) : String :=
  String.ofList ((s.toList.splitOn sep).getD (n - 1) [])

/-- SQL counts from one, so zero is no position. -/
theorem strpos_eq_zero_iff {s : String} {c : Char} : strpos s c = 0 ↔ c ∉ s.toList := by
  unfold strpos
  cases h : s.toList.idxOf? c with
  | none =>
    show 0 = 0 ↔ _
    exact iff_of_true rfl (List.idxOf?_eq_none_iff.mp h)
  | some i =>
    -- a position is found at an element of the list
    show i + 1 = 0 ↔ _
    refine iff_of_false (Nat.succ_ne_zero i) (not_not.mpr ?_)
    by_contra hnot
    rw [List.idxOf?_eq_none_iff.mpr hnot] at h
    cases h

/-- A position is positive if there is one. -/
theorem strpos_pos_iff {s : String} {c : Char} : 0 < strpos s c ↔ c ∈ s.toList := by
  rw [Nat.pos_iff_ne_zero, ne_eq, strpos_eq_zero_iff, not_not]

/-- The first field ends at the first separator. -/
theorem splitPart_join {before after : String} {sep : Char} (h : sep ∉ before.toList) :
    splitPart (before ++ String.singleton sep ++ after) sep 1 = before := by
  unfold splitPart
  rw [Strings.toList_join, List.splitOn_append_cons_self_of_not_mem h]
  show String.ofList before.toList = before
  exact String.ofList_toList

end KubeAtlas.Lib.SqlText
