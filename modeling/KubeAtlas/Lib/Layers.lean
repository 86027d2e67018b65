import Mathlib.Data.List.Induction
import Mathlib.Data.List.Nodup
import KubeAtlas.Lib.Walk

/-!
# `KubeAtlas.Lib.Layers`: exploring a graph hop by hop

A frontier, a set of visited vertices and a number of hops: each hop
visits the neighbours of the frontier, and the ones met for the
first time are the next frontier. `explore` lists the vertices in
the order they are met, without the start.

`mem_explore` is the specification: a vertex is met exactly if it is
not the start and some walk of at most `depth` arcs leads to it.
-/

set_option autoImplicit false

namespace KubeAtlas.Lib.Layers

variable {V : Type} [DecidableEq V] (next : V → List V)

/-- Meet one neighbour: the visited vertices and those met in this
hop. -/
def visit (acc : List V × List V) (v : V) : List V × List V :=
  if v ∈ acc.1 then acc else (v :: acc.1, acc.2 ++ [v])

/-- One hop from every vertex of the frontier. -/
def hop (visited frontier : List V) : List V × List V :=
  frontier.foldl (fun acc cur => (next cur).foldl visit acc) (visited, [])

/-- The loop over the hops. It ends early when a hop met nothing
new. -/
def loop : Nat → List V → List V → List V
  | 0, _, _ => []
  | n + 1, visited, frontier =>
    if frontier.isEmpty then []
    else
      let acc := hop next visited frontier
      acc.2 ++ loop n acc.1 acc.2

/-- The vertices met within `depth` hops of `start`. -/
def explore (depth : Nat) (start : V) : List V := loop next depth [start] [start]

/-! ### One hop -/

/-- What visiting a list of vertices does: the new ones are met,
once each. -/
structure Met (visited vs : List V) (acc : List V × List V) : Prop where
  mem_found : ∀ v, v ∈ acc.2 ↔ v ∈ vs ∧ v ∉ visited
  mem_visited : ∀ v, v ∈ acc.1 ↔ v ∈ visited ∨ v ∈ vs
  nodup : acc.2.Nodup

/-- One more node: it is new, and in the next frontier, unless it
was visited. -/
theorem Met.visit {visited vs : List V} {acc : List V × List V} (h : Met visited vs acc)
    (v : V) : Met visited (vs ++ [v]) (Layers.visit acc v) := by
  unfold Layers.visit
  by_cases hv : v ∈ acc.1
  · have hold : v ∈ visited ∨ v ∈ vs := (h.mem_visited v).mp hv
    rw [if_pos hv]
    refine ⟨fun w => ?_, fun w => ?_, h.nodup⟩
    · rw [h.mem_found, List.mem_append, List.mem_singleton]
      grind
    · rw [h.mem_visited, List.mem_append, List.mem_singleton]
      grind
  · have hnew : ¬ (v ∈ visited ∨ v ∈ vs) := fun hold => hv ((h.mem_visited v).mpr hold)
    have hmet : v ∉ acc.2 := fun hmem => hnew (Or.inr ((h.mem_found v).mp hmem).1)
    rw [if_neg hv]
    refine ⟨fun w => ?_, fun w => ?_, ?_⟩
    · show w ∈ acc.2 ++ [v] ↔ _
      rw [List.mem_append, List.mem_append, List.mem_singleton, h.mem_found]
      grind
    · show w ∈ v :: acc.1 ↔ _
      rw [List.mem_cons, List.mem_append, List.mem_singleton, h.mem_visited]
      grind
    · show (acc.2 ++ [v]).Nodup
      exact List.nodup_append.mpr ⟨h.nodup, List.nodup_singleton v, by
        intro a ha b hb
        rw [List.mem_singleton.mp hb]
        exact fun hab => hmet (hab ▸ ha)⟩

/-- The loop over a list of nodes. -/
theorem met_foldl_visit (visited vs : List V) :
    Met visited vs (vs.foldl visit (visited, [])) := by
  induction vs using List.reverseRecOn with
  | nil => exact ⟨fun v => by simp, fun v => by simp, List.nodup_nil⟩
  | append_singleton vs v ih =>
    rw [List.foldl_append]
    exact ih.visit v

/-- One round: the new frontier has the new neighbours of the old
one, each once. -/
theorem met_hop (visited frontier : List V) :
    Met visited (frontier.flatMap next) (hop next visited frontier) := by
  unfold hop
  rw [← List.foldl_flatMap]
  exact met_foldl_visit visited _

/-! ### The loop -/

/-- An empty frontier stays empty, so ending early changes nothing. -/
theorem loop_succ (n : Nat) (visited frontier : List V) :
    loop next (n + 1) visited frontier
      = (hop next visited frontier).2
        ++ loop next n (hop next visited frontier).1 (hop next visited frontier).2 := by
  cases frontier with
  | cons v vs => rfl
  | nil =>
    have hend : ∀ visited : List V, loop next n visited [] = [] := by
      intro visited
      cases n <;> rfl
    exact (hend visited).symm

/-- The arcs of the graph that `next` describes. -/
def Arc (u v : V) : Prop := v ∈ next u

/-- The state of the loop after `i` hops from `start`. -/
structure Layer (start : V) (i : Nat) (visited frontier : List V) : Prop where
  visited_iff : ∀ v, v ∈ visited ↔ ∃ n ≤ i, Walk (Arc next) start n v
  frontier_walk : ∀ v ∈ frontier, Walk (Arc next) start i v
  walk_cases : ∀ v, Walk (Arc next) start i v →
    v ∈ frontier ∨ ∃ n < i, Walk (Arc next) start n v

omit [DecidableEq V] in
/-- The start is the layer of distance zero. -/
theorem Layer.start (start : V) : Layer next start 0 [start] [start] where
  visited_iff v := by
    rw [List.mem_singleton]
    constructor
    · rintro rfl
      exact ⟨0, Nat.le_refl 0, .refl⟩
    · rintro ⟨n, hn, w⟩
      obtain rfl := Nat.le_zero.mp hn
      exact (Walk.zero_iff.mp w).symm
  frontier_walk v hv := by
    rw [List.mem_singleton.mp hv]
    exact .refl
  walk_cases v w := by
    rw [← Walk.zero_iff.mp w]
    exact Or.inl (List.mem_singleton_self start)

variable {next} {i : Nat} {visited frontier : List V}

section

variable {start : V} (h : Layer next start i visited frontier)
include h

omit [DecidableEq V] in
/-- A walk one arc longer than the layer ends in the next frontier
or at a visited vertex. -/
theorem Layer.walk_succ {v : V} (w : Walk (Arc next) start (i + 1) v) :
    v ∈ frontier.flatMap next ∨ v ∈ visited := by
  obtain ⟨u, wu, arc⟩ := Walk.succ_iff.mp w
  cases h.walk_cases u wu with
  | inl hu => exact Or.inl (List.mem_flatMap.mpr ⟨u, hu, arc⟩)
  | inr hshort =>
    obtain ⟨n, hn, wn⟩ := hshort
    exact Or.inr ((h.visited_iff v).mpr ⟨n + 1, hn, .snoc wn arc⟩)

/-- A round turns the layer of distance `i` into the one of distance
`i + 1`. -/
theorem Layer.hop :
    Layer next start (i + 1) (hop next visited frontier).1 (hop next visited frontier).2 := by
  have hmet := met_hop next visited frontier
  have harc : ∀ v, v ∈ frontier.flatMap next → Walk (Arc next) start (i + 1) v := by
    intro v hv
    obtain ⟨u, hu, arc⟩ := List.mem_flatMap.mp hv
    exact .snoc (h.frontier_walk u hu) arc
  refine ⟨fun v => ?_, fun v hv => ?_, fun v w => ?_⟩
  · rw [hmet.mem_visited, h.visited_iff]
    constructor
    · rintro (⟨n, hn, w⟩ | hv)
      · exact ⟨n, Nat.le_succ_of_le hn, w⟩
      · exact ⟨i + 1, Nat.le_refl _, harc v hv⟩
    · rintro ⟨n, hn, w⟩
      rcases Nat.le_or_eq_of_le_succ hn with hle | rfl
      · exact Or.inl ⟨n, hle, w⟩
      · exact (h.walk_succ w).symm.imp_left (h.visited_iff v).mp
  · exact harc v ((hmet.mem_found v).mp hv).1
  · by_cases hv : v ∈ visited
    · obtain ⟨n, hn, wn⟩ := (h.visited_iff v).mp hv
      exact Or.inr ⟨n, Nat.lt_succ_of_le hn, wn⟩
    · exact Or.inl ((hmet.mem_found v).mpr ⟨(h.walk_succ w).resolve_right hv, hv⟩)

end

variable (next)

/-- The visited vertices and the frontier after so many hops. -/
def layers (start : V) : Nat → List V × List V
  | 0 => ([start], [start])
  | i + 1 => hop next (layers start i).1 (layers start i).2

/-- After `i` rounds, the frontier has the nodes at distance `i`. -/
theorem layer (start : V) : ∀ i, Layer next start i (layers next start i).1 (layers next start i).2
  | 0 => .start next start
  | i + 1 => (layer start i).hop

/-- The vertices of a frontier have the same distance from the
start, and there is no other. -/
theorem mem_frontier (start v : V) (i : Nat) :
    v ∈ (layers next start i).2 ↔ IsDistance (Arc next) start v i := by
  have hlayer := layer next start i
  refine ⟨fun hv => ⟨hlayer.frontier_walk v hv, fun m w => ?_⟩, fun hdist => ?_⟩
  · cases i with
    | zero => exact Nat.zero_le m
    | succ i =>
      -- what was visited before is not met again
      have hnew := (((met_hop next _ _).mem_found v).mp hv).2
      by_contra hlt
      exact hnew (((layer next start i).visited_iff v).mpr ⟨m, by omega, w⟩)
  · refine (hlayer.walk_cases v hdist.1).resolve_right ?_
    rintro ⟨m, hlt, w⟩
    exact absurd (hdist.2 m w) (by omega)

/-- No frontier has a node twice. -/
theorem nodup_frontier (start : V) : ∀ i, (layers next start i).2.Nodup
  | 0 => List.nodup_singleton start
  | _ + 1 => (met_hop next _ _).nodup

/-- No vertex is in two frontiers. -/
theorem nodup_frontiers (start : V) {is : List Nat} (h : is.Nodup) :
    (is.flatMap fun i => (layers next start i).2).Nodup := by
  refine List.nodup_flatMap.mpr ⟨fun i _ => nodup_frontier next start i, h.imp ?_⟩
  intro i j hij v hi hj
  have hi := (mem_frontier next start v i).mp hi
  have hj := (mem_frontier next start v j).mp hj
  exact hij (Nat.le_antisymm (hi.2 j hj.1) (hj.2 i hi.1))

/-- The loop of the code, which stops at an empty frontier, collects
the layers. -/
theorem loop_layers (start : V) (n i : Nat) :
    loop next n (layers next start i).1 (layers next start i).2
      = (List.range' (i + 1) n).flatMap fun j => (layers next start j).2 := by
  induction n generalizing i with
  | zero => rfl
  | succ n ih =>
    rw [loop_succ, List.range'_succ, List.flatMap_cons]
    exact congrArg _ (ih (i + 1))

/-! ### Exploring -/

/-- Layers of different distance have no node in common. -/
theorem explore_nodup (depth : Nat) (start : V) : (explore next depth start).Nodup := by
  unfold explore
  rw [show loop next depth [start] [start] = _ from loop_layers next start depth 0]
  exact nodup_frontiers next start List.nodup_range'

/-- The vertices met are those within `depth` arcs of the start,
without the start. -/
theorem mem_explore (depth : Nat) (start v : V) :
    v ∈ explore next depth start
      ↔ v ≠ start ∧ ∃ n ≤ depth, Walk (Arc next) start n v := by
  unfold explore
  rw [show loop next depth [start] [start] = _ from loop_layers next start depth 0]
  simp only [List.mem_flatMap, List.mem_range'_1, mem_frontier]
  constructor
  · rintro ⟨n, hn, hdist⟩
    refine ⟨?_, n, by omega, hdist.1⟩
    rintro rfl
    exact absurd (hdist.2 0 .refl) (by omega)
  · rintro ⟨hne, n, hn, w⟩
    obtain ⟨m, hm, hdist⟩ := w.exists_isDistance
    have hpos : m ≠ 0 := by
      rintro rfl
      exact hne (Walk.zero_iff.mp hdist.1).symm
    exact ⟨m, by omega, hdist⟩

end KubeAtlas.Lib.Layers
