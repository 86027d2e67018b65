import KubeAtlas.Analysis.Identity
import KubeAtlas.Lib.Heap

/-!
# `KubeAtlas.Analysis.ArcIndex`: the arcs and notices of each resource

Both facets scan the edges once and keep, for each resource, a heap
of the steps that leave it and a tally of notices. The heaps are
those of `container/heap`, with the order `impactArcHeap.Less`; a
facet takes the steps of a resource by popping its heap until it is
empty, and it does so at most once.

`Holds ix entries` says what an index contains: the entries added so
far, as a multiset. Two indexes that hold the same entries read the
same (`Holds.congr`), because `Less` tells any two steps of one
resource apart that differ in neighbour or edge type.
-/

set_option autoImplicit false

namespace KubeAtlas.Analysis

open Lib

/-- `impactArcHeap.Less`: by neighbour, then by edge type. -/
def stepLess (a b : ImpactStep) : Bool :=
  if a.traversalTo ≠ b.traversalTo then decide (a.traversalTo < b.traversalTo)
  else decide (a.type < b.type)

/-- `impactArcHeap`: the heap of the steps that leave one resource. -/
abbrev ImpactArcHeap := Array ImpactStep

/-- What an edge adds at the resource where its walk starts. -/
inductive IndexEntry where
  | notice (reason : ImpactNoticeReason)
  | arc (step : ImpactStep)
  deriving DecidableEq, Repr

/-- The maps `adjacency` and `notices`. -/
structure ArcIndex where
  adjacency : ByID ImpactArcHeap := fun _ => #[]
  notices : ByID NoticeTally := fun _ _ => 0

namespace ArcIndex

/-- `addImpactNotice(notices, id, reason)` and
`heap.Push(adjacency[id], step)`. -/
def add (ix : ArcIndex) (id : String) : IndexEntry → ArcIndex
  | .notice reason => { ix with notices := addImpactNotice ix.notices id reason }
  | .arc step =>
    { ix with
      adjacency := Function.update ix.adjacency id
        (Heap.push stepLess (ix.adjacency id) step) }

/-- The entries of one edge, in turn. -/
def addAll (ix : ArcIndex) (id : String) (entries : List IndexEntry) : ArcIndex :=
  entries.foldl (fun ix entry => ix.add id entry) ix

/-- The steps of a resource in the order in which its heap pops
them. -/
def arcs (ix : ArcIndex) (id : String) : List ImpactStep :=
  Heap.popAll stepLess (ix.adjacency id)

end ArcIndex

/-! ### The order of the heap -/

/-- `Less` is a strict weak order on steps. -/
theorem stepLess_strictWeak : Heap.StrictWeak stepLess where
  asymm a b h := by
    by_cases hto : a.traversalTo = b.traversalTo
    · simp only [stepLess, hto, ne_eq, not_true_eq_false, if_false, decide_eq_true_eq] at h ⊢
      simp only [decide_eq_false_iff_not, not_lt]
      exact h.le
    · simp only [stepLess, hto, Ne.symm hto, ne_eq, not_false_eq_true, if_true,
        decide_eq_true_eq] at h ⊢
      simp only [decide_eq_false_iff_not, not_lt]
      exact h.le
  trans a b c h₁ h₂ := by
    have key : ∀ x y : ImpactStep, stepLess y x = false ↔
        x.traversalTo < y.traversalTo ∨
          (x.traversalTo = y.traversalTo ∧ x.type ≤ y.type) := by
      intro x y
      by_cases hto : y.traversalTo = x.traversalTo
      · simp only [stepLess, hto, ne_eq, not_true_eq_false, if_false,
          decide_eq_false_iff_not, not_lt, lt_irrefl, true_and, false_or]
      · simp only [stepLess, hto, Ne.symm hto, ne_eq, not_false_eq_true, if_true,
          decide_eq_false_iff_not, not_lt, false_and, or_false]
        exact (Ne.symm hto).le_iff_lt
    rw [key] at h₁ h₂ ⊢
    rcases h₁ with h₁ | ⟨h₁, h₁'⟩
    · rcases h₂ with h₂ | ⟨h₂, -⟩
      · exact Or.inl (h₁.trans h₂)
      · exact Or.inl (h₂ ▸ h₁)
    · rcases h₂ with h₂ | ⟨h₂, h₂'⟩
      · exact Or.inl (h₁ ▸ h₂)
      · exact Or.inr ⟨h₁.trans h₂, h₁'.trans h₂'⟩

/-- `Less` tells two steps apart unless they agree on the neighbour
and the type. -/
theorem eq_of_not_stepLess {a b : ImpactStep} (h₁ : stepLess a b = false)
    (h₂ : stepLess b a = false) : a.traversalTo = b.traversalTo ∧ a.type = b.type := by
  by_cases hto : a.traversalTo = b.traversalTo
  · simp only [stepLess, hto, ne_eq, not_true_eq_false, if_false, decide_eq_false_iff_not,
      not_lt] at h₁ h₂
    exact ⟨hto, le_antisymm h₂ h₁⟩
  · simp only [stepLess, hto, Ne.symm hto, ne_eq, not_false_eq_true, if_true,
      decide_eq_false_iff_not, not_lt] at h₁ h₂
    exact absurd (le_antisymm h₂ h₁) hto

/-! ### What an index holds -/

namespace ArcIndex

/-- The step of an entry at `v`. -/
def arcAt (v : String) : String × IndexEntry → Option ImpactStep
  | (_, .notice _) => none
  | (u, .arc step) => if u = v then some step else none

/-- The index holds exactly these entries, in any order. -/
structure Holds (ix : ArcIndex) (entries : List (String × IndexEntry)) : Prop where
  isHeap : ∀ v, Heap.IsHeap stepLess (ix.adjacency v) (ix.adjacency v).size
  steps : ∀ v, (ix.adjacency v).toList.Perm (entries.filterMap (arcAt v))
  tally : ∀ v r, ix.notices v r = entries.count (v, .notice r)

theorem arcAt_eq_some {v : String} {x : String × IndexEntry} {step : ImpactStep} :
    arcAt v x = some step ↔ x = (v, .arc step) := by
  obtain ⟨u, entry⟩ := x
  cases entry with
  | notice reason => simp [arcAt]
  | arc step' =>
    by_cases hu : u = v
    · simp [arcAt, hu]
    · simp [arcAt, hu]

namespace Holds

variable {ix ix' : ArcIndex} {entries entries' : List (String × IndexEntry)}

theorem empty : Holds {} [] where
  isHeap _ := fun _ _ hk => absurd hk (Nat.not_lt_zero _)
  steps _ := .nil
  tally _ _ := rfl

section

variable (h : Holds ix entries)
include h

/-- Only the entries count, not their order. -/
theorem perm (hp : entries.Perm entries') : Holds ix entries' where
  isHeap := h.isHeap
  steps v := (h.steps v).trans (hp.filterMap _)
  tally v r := (h.tally v r).trans (hp.count_eq _)

/-- Adding an entry adds it at its own resource and changes no
other. -/
theorem add (id : String) (entry : IndexEntry) :
    Holds (ix.add id entry) ((id, entry) :: entries) := by
  cases entry with
  | notice reason =>
    refine ⟨h.isHeap, fun v => ?_, fun v r => ?_⟩
    · exact h.steps v
    · show addImpactNotice ix.notices id reason v r = _
      rw [addImpactNotice_apply, h.tally, List.count_cons]
      congr 1
      by_cases hv : v = id
      · by_cases hr : r = reason
        · simp [hv, hr]
        · simp [hv, hr, Ne.symm hr]
      · simp [hv, Ne.symm hv]
  | arc step =>
    have hself : (ix.add id (.arc step)).adjacency id
        = Heap.push stepLess (ix.adjacency id) step := by
      simp [ArcIndex.add]
    have hother : ∀ v, v ≠ id → (ix.add id (.arc step)).adjacency v = ix.adjacency v := by
      intro v hv
      simp [ArcIndex.add, hv]
    refine ⟨fun v => ?_, fun v => ?_, fun v r => ?_⟩
    · by_cases hv : v = id
      · subst hv
        rw [hself]
        exact Heap.push_isHeap stepLess_strictWeak _ _ (h.isHeap v)
      · rw [hother v hv]
        exact h.isHeap v
    · by_cases hv : v = id
      · subst hv
        rw [hself, List.filterMap_cons_some (arcAt_eq_some.mpr rfl)]
        exact (Heap.push_perm stepLess _ _).trans ((h.steps v).cons _)
      · rw [hother v hv, List.filterMap_cons_none (by simp [arcAt, Ne.symm hv])]
        exact h.steps v
    · rw [List.count_cons_of_ne (by simp)]
      exact h.tally v r

theorem addAll (id : String) (new : List IndexEntry) :
    Holds (ix.addAll id new) (new.map (fun entry => (id, entry)) ++ entries) := by
  induction new generalizing ix entries with
  | nil => exact h
  | cons entry new ih =>
    refine (ih (h.add id entry)).perm ?_
    exact List.perm_middle

/-- The steps an index lists at `v` are the arcs among its entries
at `v`. -/
theorem mem_arcs {v : String} {step : ImpactStep} :
    step ∈ ix.arcs v ↔ (v, .arc step) ∈ entries := by
  have hp : (ix.arcs v).Perm (entries.filterMap (arcAt v)) :=
    (Heap.popAll_perm _).trans (h.steps v)
  rw [hp.mem_iff, List.mem_filterMap]
  constructor
  · rintro ⟨x, hx, hxs⟩
    exact arcAt_eq_some.mp hxs ▸ hx
  · intro hx
    exact ⟨_, hx, arcAt_eq_some.mpr rfl⟩

/-- Two indexes that hold the same entries read the same, as soon as
no resource has two steps to one neighbour by one edge type. -/
theorem congr (h' : Holds ix' entries') (hp : entries.Perm entries')
    (hinj : ∀ v s t, (v, IndexEntry.arc s) ∈ entries → (v, .arc t) ∈ entries →
      s.traversalTo = t.traversalTo → s.type = t.type → s = t) :
    ix.arcs = ix'.arcs ∧ ix.notices = ix'.notices := by
  have hmem : ∀ v s, s ∈ (ix.adjacency v).toList → (v, IndexEntry.arc s) ∈ entries := by
    intro v s hs
    obtain ⟨x, hx, hxs⟩ := List.mem_filterMap.mp ((h.steps v).mem_iff.mp hs)
    exact arcAt_eq_some.mp hxs ▸ hx
  refine ⟨funext fun v => ?_, funext fun v => funext fun r => ?_⟩
  · refine Heap.popAll_eq_of_perm stepLess_strictWeak (h.isHeap v) (h'.isHeap v) ?_ ?_
    · exact (h.steps v).trans ((hp.filterMap _).trans (h'.steps v).symm)
    · intro s hs t ht hst hts
      obtain ⟨hto, htype⟩ := eq_of_not_stepLess hst hts
      exact hinj v s t (hmem v s hs) (hmem v t ht) hto htype
  · rw [h.tally, h'.tally, hp.count_eq]

end

end Holds

end ArcIndex

end KubeAtlas.Analysis
