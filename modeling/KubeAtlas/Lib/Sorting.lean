import Mathlib.Data.List.Sort

/-!
# `KubeAtlas.Lib.Sorting`: parts of a sorted list

Sorting by insertion is stable, so it does not matter whether a list
is filtered before it is sorted or after. A sorted list can be cut
where a property ends that holds at its front.
-/

set_option autoImplicit false

namespace KubeAtlas.Lib

variable {α : Type} {r : α → α → Prop} [DecidableRel r] {l : List α}

/-- What is least is inserted in front. -/
theorem orderedInsert_of_forall {a : α} (h : ∀ b ∈ l, r a b) :
    l.orderedInsert r a = a :: l := by
  cases l with
  | nil => rfl
  | cons b l => exact List.orderedInsert_cons_of_le r l (h b List.mem_cons_self)

/-- Inserting and filtering commute. -/
theorem filter_orderedInsert [IsTrans α r] (p : α → Bool) (a : α) (hl : l.Pairwise r) :
    (l.orderedInsert r a).filter p
      = if p a = true then (l.filter p).orderedInsert r a else l.filter p := by
  induction l with
  | nil => by_cases ha : p a = true <;> simp [ha]
  | cons b l ih =>
    obtain ⟨hb, hl⟩ := List.pairwise_cons.mp hl
    by_cases hab : r a b
    · -- then `a` stands in front of everything
      have hall : ∀ c ∈ (b :: l).filter p, r a c := by
        intro c hc
        rcases List.mem_cons.mp (List.mem_filter.mp hc).1 with rfl | hc
        · exact hab
        · exact IsTrans.trans a b c hab (hb c hc)
      rw [List.orderedInsert_cons_of_le r l hab, orderedInsert_of_forall hall, List.filter_cons]
    · rw [List.orderedInsert_of_not_le r l hab, List.filter_cons, List.filter_cons, ih hl]
      by_cases ha : p a = true <;> by_cases hpb : p b = true <;> simp [ha, hpb, hab]

/-- Filtering and sorting commute. -/
theorem filter_insertionSort [IsTrans α r] [Std.Total r] (p : α → Bool) (l : List α) :
    (l.insertionSort r).filter p = (l.filter p).insertionSort r := by
  induction l with
  | nil => rfl
  | cons a l ih =>
    rw [List.insertionSort_cons, filter_orderedInsert p a (List.pairwise_insertionSort r l), ih]
    by_cases ha : p a = true <;> simp [ha]

omit [DecidableRel r] in
/-- A property that holds at the front of a list cuts it in two. -/
theorem filter_append_filter_not {p : α → Bool}
    (h : l.Pairwise fun a b => p b = true → p a = true) :
    l.filter p ++ l.filter (fun a => !p a) = l := by
  induction l with
  | nil => rfl
  | cons a l ih =>
    obtain ⟨ha, hl⟩ := List.pairwise_cons.mp h
    by_cases hpa : p a = true
    · simp [hpa, ih hl]
    · have hnone : l.filter p = [] :=
        List.filter_eq_nil_iff.mpr fun b hb hpb => hpa (ha b hb hpb)
      have hall : l.filter (fun a => !p a) = l := by
        rw [hnone, List.nil_append] at ih
        exact ih hl
      simp [hpa, hnone, hall]

end KubeAtlas.Lib
