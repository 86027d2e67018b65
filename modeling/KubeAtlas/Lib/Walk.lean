import Mathlib.Logic.Relation
import Mathlib.Order.Basic

/-!
# `KubeAtlas.Lib.Walk`: counted walks and distances in a directed graph

A directed graph on `V` is a relation `R : V → V → Prop`.
`Walk R n u v` says that `n` arcs lead from `u` to `v`. Every search
in this development is measured against this relation:
`IsDistance R u v n` pins the least such `n`, and reachability is
`Relation.ReflTransGen R`, which `reflTransGen_iff_exists_walk`
reads as "some walk exists".
-/

set_option autoImplicit false

namespace KubeAtlas.Lib

variable {V : Type*} {R S : V → V → Prop}

/-- `n` arcs of `R` lead from `u` to `v`. The last arc is the
constructor's own argument, because every search here extends a path
at its far end. -/
inductive Walk (R : V → V → Prop) (u : V) : Nat → V → Prop
  | refl : Walk R u 0 u
  | snoc {n : Nat} {v w : V} (init : Walk R u n v) (arc : R v w) : Walk R u (n + 1) w

/-- `n` is the length of a shortest walk from `u` to `v`. -/
def IsDistance (R : V → V → Prop) (u v : V) (n : Nat) : Prop :=
  Walk R u n v ∧ ∀ m, Walk R u m v → n ≤ m

namespace Walk

variable {u v : V} {n : Nat}

/-- Walks are monotone in the graph. -/
theorem mono (h : ∀ a b, R a b → S a b) (w : Walk R u n v) :
    Walk S u n v := by
  induction w with
  | refl => exact .refl
  | snoc _ arc ih => exact .snoc ih (h _ _ arc)

/-- A walk of length zero stays where it is. -/
@[simp] theorem zero_iff : Walk R u 0 v ↔ u = v := by
  constructor
  · intro w
    cases w
    rfl
  · rintro rfl
    exact .refl

/-- The last arc of a walk of positive length. -/
theorem succ_iff {u w : V} :
    Walk R u (n + 1) w ↔ ∃ v, Walk R u n v ∧ R v w := by
  constructor
  · intro h
    cases h with
    | snoc init arc => exact ⟨_, init, arc⟩
  · rintro ⟨v, init, arc⟩
    exact .snoc init arc

/-- A walk is a reachability proof. -/
theorem reflTransGen (w : Walk R u n v) :
    Relation.ReflTransGen R u v := by
  induction w with
  | refl => exact .refl
  | snoc _ arc ih => exact .tail ih arc

/-- A reachable vertex has a shortest walk. -/
theorem exists_isDistance (w : Walk R u n v) :
    ∃ m ≤ n, IsDistance R u v m := by
  induction n using Nat.strongRecOn with
  | ind n ih =>
    by_cases hshort : ∃ m < n, Walk R u m v
    · obtain ⟨m, hlt, hm⟩ := hshort
      obtain ⟨k, hk, hd⟩ := ih m hlt hm
      exact ⟨k, Nat.le_trans hk (Nat.le_of_lt hlt), hd⟩
    · refine ⟨n, Nat.le_refl n, w, fun m hm => ?_⟩
      exact Nat.le_of_not_lt fun hlt => hshort ⟨m, hlt, hm⟩

end Walk

/-- Reachability is the existence of a walk. -/
theorem reflTransGen_iff_exists_walk {u v : V} :
    Relation.ReflTransGen R u v ↔ ∃ n, Walk R u n v := by
  constructor
  · intro h
    induction h with
    | refl => exact ⟨0, .refl⟩
    | tail _ arc ih =>
      obtain ⟨n, w⟩ := ih
      exact ⟨n + 1, .snoc w arc⟩
  · rintro ⟨n, w⟩
    exact w.reflTransGen

/-- Distances depend only on the arcs. -/
theorem isDistance_congr {u v : V} {n : Nat} (h : ∀ a b, R a b ↔ S a b) :
    IsDistance R u v n ↔ IsDistance S u v n := by
  have hw : ∀ m, Walk R u m v ↔ Walk S u m v := fun m =>
    ⟨Walk.mono fun a b => (h a b).mp, Walk.mono fun a b => (h a b).mpr⟩
  simp only [IsDistance, hw]

end KubeAtlas.Lib
