import KubeAtlas.Proofs.Store.Reachability
import KubeAtlas.Web.BlastRadius

/-!
# `KubeAtlas.Proofs.Web.BlastRadius`: the blast radius in the browser and on the server

The browser and the memory store search the same graph hop by hop,
so what they reach is the same, and the hops of the browser are
distances. The edges it lists are those at the nodes it has
expanded. In one direction an edge is listed at one of its ends. In
both directions it is listed at either end, and twice if both were
expanded: `blastRadius_exact_iff`.
-/

set_option autoImplicit false

namespace KubeAtlas.Proofs.Web

open KubeAtlas.Graph Lib KubeAtlas.Store KubeAtlas.Web KubeAtlas.Proofs.Store

/-! ### What is to be shown -/

/-- A blast radius, without a bound on the depth. -/
structure Query where
  view : View
  rootID : String
  direction : BlastDirection

namespace Query

variable (q : Query)

/-- An edge leads from `u` to `v`, in a direction that is followed. -/
def Arc (u v : String) : Prop :=
  ∃ e ∈ q.view.edges, (q.direction ≠ .upstream ∧ e.fromID = u ∧ e.toID = v) ∨
    (q.direction ≠ .downstream ∧ e.toID = u ∧ e.fromID = v)

/-- The search goes on from the node: it is less than `depth` hops
away. -/
def Expanded (depth : Nat) (id : String) : Prop := ∃ n < depth, Walk q.Arc q.rootID n id

/-- The traversal of the server in one direction. -/
def serverWay : Option Way :=
  match q.direction with
  | .downstream => some .outgoing
  | .upstream => some .incoming
  | .both => none

/-- What the result is meant to be. -/
structure Exact (range : MapOrder) (s : MemoryStore) (depth : Nat) (r : BlastRadiusResult) :
    Prop where
  server : ∀ way, q.serverWay = some way →
    ∃ rs, s.listReachable range q.rootID ⟨way.direction, depth, []⟩ = .ok rs ∧
      ∀ id, id ∈ r.reachable ↔ id = q.rootID ∨ ∃ x ∈ rs, x.ID = id
  reachable : ∀ id, id ∈ r.reachable ↔ ∃ n ≤ depth, Walk q.Arc q.rootID n id
  hops : (r.byHop.map Prod.fst).Nodup
  bucket : ∀ hop ids, (hop, ids) ∈ r.byHop → ids.Nodup
  distance : ∀ hop id, (∃ ids, (hop, ids) ∈ r.byHop ∧ id ∈ ids) ↔
    id ∈ r.reachable ∧ IsDistance q.Arc q.rootID id hop
  once : r.edges.Nodup
  traversed : ∀ e, e ∈ r.edges ↔ e ∈ q.view.edges ∧
    ((q.direction ≠ .upstream ∧ q.Expanded depth e.fromID) ∨
      (q.direction ≠ .downstream ∧ q.Expanded depth e.toID))

end Query

/-- The view shows the graph: its nodes are the resources, no edge
is shown twice, and each has both ends among the nodes. -/
structure Shows (view : View) (a : GraphState) : Prop where
  nodes : ∀ id, id ∈ view.nodes ↔ (a.resources id).isSome
  edges : ∀ u v, (∃ e ∈ view.edges, e.fromID = u ∧ e.toID = v) ↔
    ∃ k, (a.edges k).isSome ∧ k.fromID = u ∧ k.toID = v
  nodup : view.edges.Nodup
  closed : ∀ e ∈ view.edges, e.fromID ∈ view.nodes ∧ e.toID ∈ view.nodes

/-! ### The search by layers -/

/-- The two inner loops, which collect nodes and edges, are two
loops. -/
theorem foldl_follow (xs : List (ViewEdge × String)) (ids : List String × List String)
    (edges : List ViewEdge) :
    xs.foldl follow (ids, edges)
      = ((xs.map Prod.snd).foldl Layers.visit ids, edges ++ xs.map Prod.fst) := by
  induction xs generalizing ids edges with
  | nil => simp
  | cons x xs ih =>
    rw [List.foldl_cons, follow, ih]
    simp

/-- Edges that are listed at one of their ends are listed once. -/
theorem nodup_flatMap_filter {ids : List String} (hids : ids.Nodup) {edges : List ViewEdge}
    (hedges : edges.Nodup) (near : ViewEdge → String) (followed : Prop) [Decidable followed] :
    (ids.flatMap fun id => if followed then edges.filter fun e => near e = id else []).Nodup := by
  refine List.nodup_flatMap.mpr ⟨fun id _ => ?_, hids.imp ?_⟩
  · split_ifs
    · exact hedges.filter _
    · exact List.nodup_nil
  · intro id id' hne e he he'
    simp only [List.mem_ite_nil_right, List.mem_filter, decide_eq_true_eq] at he he'
    exact hne (he.2.2.symm.trans he'.2.2)

namespace Query

variable (q : Query)

/-- The visited nodes and the frontier after so many hops. -/
abbrev layers : Nat → List String × List String :=
  Layers.layers (fun id => (followed q.view q.direction id).map Prod.snd) q.rootID

theorem arc_followed_iff (u v : String) :
    Layers.Arc (fun id => (followed q.view q.direction id).map Prod.snd) u v ↔ q.Arc u v := by
  simp only [Layers.Arc, Arc, followed, out, inc, List.map_append, List.map_map, List.mem_append,
    List.mem_map, Function.comp_apply, List.mem_ite_nil_right, List.mem_filter, decide_eq_true_eq]
  grind

/-- The frontier of round `i` has the nodes at distance `i`. -/
theorem mem_frontier_iff (id : String) (i : Nat) :
    id ∈ (q.layers i).2 ↔ IsDistance q.Arc q.rootID id i :=
  (Layers.mem_frontier ..).trans (isDistance_congr q.arc_followed_iff)

/-- The nodes that are expanded in the first rounds. -/
def expanded (depth : Nat) : List String := (List.range depth).flatMap fun i => (q.layers i).2

theorem mem_expanded {depth : Nat} (id : String) :
    id ∈ q.expanded depth ↔ q.Expanded depth id := by
  simp only [expanded, List.mem_flatMap, List.mem_range, mem_frontier_iff]
  constructor
  · rintro ⟨n, hn, hdist⟩
    exact ⟨n, hn, hdist.1⟩
  · rintro ⟨n, hn, w⟩
    obtain ⟨m, hm, hdist⟩ := w.exists_isDistance
    exact ⟨m, by omega, hdist⟩

/-- The result after so many rounds. -/
def resultAt (i : Nat) : BlastRadiusResult where
  reachable := (q.layers i).1
  byHop := ((List.range (i + 1)).filter fun j => !(q.layers j).2.isEmpty).map fun j =>
    (j, (q.layers j).2)
  edges := (q.expanded i).flatMap fun id => out q.view q.direction id ++ inc q.view q.direction id

/-- An empty frontier stays empty, so ending early changes nothing. -/
theorem rounds_succ (n hop : Nat) (frontier : List String) (r : BlastRadiusResult) :
    rounds q.view q.direction (n + 1) hop frontier r =
      let acc := frontier.foldl (fun acc id => (followed q.view q.direction id).foldl follow acc)
        ((r.reachable, []), r.edges)
      rounds q.view q.direction n (hop + 1) acc.1.2
        ⟨acc.1.1, if acc.1.2.isEmpty then r.byHop else r.byHop ++ [(hop + 1, acc.1.2)], acc.2⟩ := by
  cases frontier with
  | nil => cases n <;> rfl
  | cons id ids => rfl

/-- The loop, by induction on the rounds that are left. -/
theorem rounds_resultAt (n i : Nat) :
    rounds q.view q.direction n i (q.layers i).2 (q.resultAt i) = q.resultAt (i + n) := by
  induction n generalizing i with
  | zero => rfl
  | succ n ih =>
    have hround : (q.layers i).2.foldl
        (fun acc id => (followed q.view q.direction id).foldl follow acc)
          (((q.resultAt i).reachable, []), (q.resultAt i).edges)
        = (q.layers (i + 1), (q.resultAt (i + 1)).edges) := by
      rw [← List.foldl_flatMap, foldl_follow]
      refine Prod.ext ?_ ?_
      · show _ = Layers.hop _ _ _
        rw [Layers.hop, ← List.foldl_flatMap, List.map_flatMap]
        rfl
      · simp [resultAt, expanded, List.range_succ, List.map_flatMap, followed, Function.comp_def]
    have hhops : (q.resultAt (i + 1)).byHop
        = if (q.layers (i + 1)).2.isEmpty then (q.resultAt i).byHop
          else (q.resultAt i).byHop ++ [(i + 1, (q.layers (i + 1)).2)] := by
      rw [resultAt, List.range_succ, List.filter_append, List.map_append]
      split_ifs with hnil <;> simp [resultAt, hnil]
    rw [rounds_succ, hround]
    show rounds _ _ n (i + 1) _ ⟨_, ite _ _ _, _⟩ = _
    rw [← hhops]
    exact (ih (i + 1)).trans (by rw [Nat.add_right_comm, Nat.add_assoc])

variable {q} {depth : Nat}

/-- The whole search, as a function of the layers. -/
theorem computeBlastRadius_eq :
    computeBlastRadius q.view q.rootID q.direction depth = q.resultAt depth :=
  (q.rounds_resultAt depth 0).trans (by rw [Nat.zero_add])

/-- An edge is listed at each end that is followed and expanded. -/
theorem edges_resultAt (hnodup : q.view.edges.Nodup) :
    (∀ e, e ∈ (q.resultAt depth).edges ↔ e ∈ q.view.edges ∧
      ((q.direction ≠ .upstream ∧ q.Expanded depth e.fromID) ∨
        (q.direction ≠ .downstream ∧ q.Expanded depth e.toID))) ∧
    ((q.resultAt depth).edges.Nodup ↔ (q.direction = .both → ∀ e ∈ q.view.edges,
      ¬ (q.Expanded depth e.fromID ∧ q.Expanded depth e.toID))) := by
  have hids : (q.expanded depth).Nodup := Layers.nodup_frontiers _ _ List.nodup_range
  have hout : ∀ e, e ∈ (q.expanded depth).flatMap (out q.view q.direction) ↔
      e ∈ q.view.edges ∧ q.direction ≠ .upstream ∧ q.Expanded depth e.fromID := by
    intro e
    simp only [List.mem_flatMap, out, List.mem_ite_nil_right, List.mem_filter, decide_eq_true_eq,
      mem_expanded]
    grind
  have hinc : ∀ e, e ∈ (q.expanded depth).flatMap (inc q.view q.direction) ↔
      e ∈ q.view.edges ∧ q.direction ≠ .downstream ∧ q.Expanded depth e.toID := by
    intro e
    simp only [List.mem_flatMap, inc, List.mem_ite_nil_right, List.mem_filter, decide_eq_true_eq,
      mem_expanded]
    grind
  have hsplit : (q.resultAt depth).edges.Perm _ :=
    (List.flatMap_append_perm (q.expanded depth) (out q.view q.direction) _).symm
  refine ⟨fun e => ?_, ?_⟩
  · rw [hsplit.mem_iff, List.mem_append, hout, hinc]
    exact and_or_left.symm
  · have hone := nodup_flatMap_filter hids hnodup
    rw [hsplit.nodup_iff, List.nodup_append']
    simp only [show (List.flatMap (out q.view q.direction) _).Nodup from hone _ _, true_and,
      show (List.flatMap (inc q.view q.direction) _).Nodup from hone _ _, List.Disjoint, hout, hinc]
    cases q.direction <;> simp
    grind

/-! ### The server -/

section Server

variable {a : GraphState} (hview : Shows q.view a)
include hview

/-- In one direction the browser and the server go along the same
edges. -/
theorem arc_iff_hop {way : Way} (hway : q.serverWay = some way) (u v : String) :
    q.Arc u v ↔ Hop a way [] u v := by
  have hallowed : ∀ t, edgeTypeAllowed [] t = true := fun _ => rfl
  have hout := hview.edges u v
  have hinc := hview.edges v u
  unfold serverWay at hway
  cases hdir : q.direction <;> rw [hdir] at hway <;> cases hway
  all_goals
    simp only [Arc, Hop, Way.near, Way.far, hallowed, hdir]
    grind

/-- The search stays within the nodes. -/
theorem mem_nodes_of_walk (hroot : q.rootID ∈ q.view.nodes) {n : Nat} {id : String}
    (w : Walk q.Arc q.rootID n id) : id ∈ q.view.nodes := by
  cases w with
  | refl => exact hroot
  | snoc init arc =>
    obtain ⟨e, he, ⟨-, -, rfl⟩ | ⟨-, -, rfl⟩⟩ := arc
    · exact (hview.closed e he).2
    · exact (hview.closed e he).1

/-- The server reaches the same nodes, in each direction that it
has. -/
theorem server_reaches {s : MemoryStore} (hs : Represents s a) (hw : a.WellFiled)
    (range : MapOrder) (hroot : q.rootID ∈ q.view.nodes) (hpos : 1 ≤ depth) (hle : depth ≤ 10)
    {way : Way} (hway : q.serverWay = some way) :
    ∃ rs, s.listReachable range q.rootID ⟨way.direction, depth, []⟩ = .ok rs ∧
      ∀ id, (∃ n ≤ depth, Walk q.Arc q.rootID n id) ↔ id = q.rootID ∨ ∃ x ∈ rs, x.ID = id := by
  obtain ⟨rs, hrs, -, hmem⟩ := memory_listReachable hs range hw way q.rootID depth []
  have hdepth : traverseDepth depth = depth := by
    rw [traverseDepth_eq, depthBound, if_neg (by omega), if_neg (by omega), Int.toNat_natCast]
  have harc := arc_iff_hop hview hway
  refine ⟨rs, hrs, fun id => ⟨?_, ?_⟩⟩
  · rintro ⟨n, hn, w⟩
    by_cases hid : id = q.rootID
    · exact .inl hid
    · obtain ⟨x, hx⟩ := Option.isSome_iff_exists.mp
        ((hview.nodes id).mp (mem_nodes_of_walk hview hroot w))
      refine .inr ⟨x, (hmem x).mpr (within_iff_walk.mpr ?_), hw.filed id x hx⟩
      exact ⟨id, hx, hid, n, hn.trans hdepth.ge, w.mono fun u v => (harc u v).mp⟩
  · rintro (rfl | ⟨x, hx, rfl⟩)
    · exact ⟨0, Nat.zero_le _, .refl⟩
    · obtain ⟨id, hid, -, n, hn, w⟩ := within_iff_walk.mp ((hmem x).mp hx)
      rw [hw.filed id x hid]
      exact ⟨n, hn.trans hdepth.le, w.mono fun u v => (harc u v).mpr⟩

end Server

end Query

/-- The result is exact if and only if the search does not go on
from both ends of an edge in both directions. Such an edge is listed
twice; in all else the result is exact, and agrees with the server. -/
theorem blastRadius_exact_iff (range : MapOrder) (ops : List MemoryStore.Op) (q : Query)
    (hview : Shows q.view (GraphState.run ops)) (hroot : q.rootID ∈ q.view.nodes) (depth : Nat)
    (hpos : 1 ≤ depth) (hle : depth ≤ 10) :
    q.Exact range (MemoryStore.run range ops) depth
        (computeBlastRadius q.view q.rootID q.direction depth) ↔
      (q.direction = .both → ∀ e ∈ q.view.edges,
        ¬ (q.Expanded depth e.fromID ∧ q.Expanded depth e.toID)) := by
  obtain ⟨hmem, hnodup⟩ := Query.edges_resultAt (q := q) hview.nodup
  rw [Query.computeBlastRadius_eq]
  refine ⟨fun h => hnodup.mp h.once, fun h => ?_⟩
  have hreach : ∀ id, id ∈ (q.resultAt depth).reachable ↔
      ∃ n ≤ depth, Walk q.Arc q.rootID n id := by
    intro id
    rw [← funext₂ fun u v => propext (q.arc_followed_iff u v)]
    exact (Layers.layer _ q.rootID depth).visited_iff id
  have hhop : ∀ hop ids, (hop, ids) ∈ (q.resultAt depth).byHop ↔
      hop ≤ depth ∧ ids ≠ [] ∧ (q.layers hop).2 = ids := by
    intro hop ids
    simp only [Query.resultAt, List.mem_map, List.mem_filter, List.mem_range, Prod.mk.injEq]
    grind
  refine
    { server := fun way hway => ?_, reachable := hreach, hops := ?_
      bucket := fun hop ids hids => ?_, distance := fun hop id => ?_
      once := hnodup.mpr h, traversed := hmem }
  · simp only [hreach]
    exact Query.server_reaches hview (run_represents range ops) (GraphState.run_wellFiled ops)
      range hroot hpos hle hway
  · rw [Query.resultAt, List.map_map]
    exact (List.nodup_range.filter _).map fun _ _ h => h
  · obtain ⟨-, -, rfl⟩ := (hhop hop ids).mp hids
    exact Layers.nodup_frontier ..
  · rw [hreach, ← q.mem_frontier_iff]
    constructor
    · rintro ⟨ids, hids, hid⟩
      obtain ⟨hle, -, rfl⟩ := (hhop hop ids).mp hids
      exact ⟨⟨hop, hle, ((q.mem_frontier_iff ..).mp hid).1⟩, hid⟩
    · rintro ⟨⟨n, hn, w⟩, hid⟩
      have hle := ((q.mem_frontier_iff ..).mp hid).2 n w
      exact ⟨_, (hhop hop _).mpr ⟨by omega, List.ne_nil_of_mem hid, rfl⟩, hid⟩

/-- From a workload to the ConfigMap it uses. -/
def configUsed (direction : BlastDirection) : Query where
  view := ⟨["d/Deployment/w", "d/ConfigMap/c"],
    [{ fromID := "d/Deployment/w", toID := "d/ConfigMap/c" }]⟩
  rootID := "d/Deployment/w"
  direction := direction

theorem shows_configUsed (direction : BlastDirection) :
    Shows (configUsed direction).view (GraphState.run configUse) where
  nodes id := by
    show id ∈ ["d/Deployment/w", "d/ConfigMap/c"] ↔ (Function.update
      (Function.update (fun _ => none) "d/Deployment/w" _) "d/ConfigMap/c" _ id).isSome
    grind
  edges u v := by
    show _ ↔ ∃ k, (Function.update (fun _ => none)
      (⟨"d/Deployment/w", "d/ConfigMap/c", .usesConfigMap⟩ : EdgeKey) _ k).isSome ∧ _
    simp [configUsed, Function.update_apply]
  nodup := by simp [configUsed]
  closed := by simp [configUsed]

/-- Downstream the result is exact. In both directions it is exact
with one hop: the search goes on from the workload, and not from the
ConfigMap at the other end of the edge. -/
theorem exact_configUsed :
    (configUsed .downstream).Exact RangeOrder.inserted
        (MemoryStore.run RangeOrder.inserted configUse) 2
        (computeBlastRadius (configUsed .downstream).view "d/Deployment/w" .downstream 2) ∧
      (configUsed .both).Exact RangeOrder.inserted
        (MemoryStore.run RangeOrder.inserted configUse) 1
        (computeBlastRadius (configUsed .both).view "d/Deployment/w" .both 1) := by
  constructor
  · exact (blastRadius_exact_iff RangeOrder.inserted configUse (configUsed .downstream)
      (shows_configUsed _) (by decide) 2 (by decide) (by decide)).mpr nofun
  · refine (blastRadius_exact_iff RangeOrder.inserted configUse (configUsed .both)
      (shows_configUsed _) (by decide) 1 (by decide) (by decide)).mpr fun _ e he hboth => ?_
    obtain rfl := List.mem_singleton.mp he
    obtain ⟨n, hn, hwalk⟩ := hboth.2
    obtain rfl : n = 0 := by omega
    exact absurd (Walk.zero_iff.mp hwalk) (by decide)

/-- In both directions and with two hops, the edge is listed twice,
and the result is not exact. -/
theorem computeBlastRadius_twice :
    (computeBlastRadius (configUsed .both).view "d/Deployment/w" .both 2).edges
        = (configUsed .both).view.edges ++ (configUsed .both).view.edges ∧
      (configUsed .both).view.edges.length = 1 ∧
      ¬ (configUsed .both).Exact RangeOrder.inserted
        (MemoryStore.run RangeOrder.inserted configUse) 2
        (computeBlastRadius (configUsed .both).view "d/Deployment/w" .both 2) :=
  ⟨by decide, by decide, fun h => absurd h.once (by decide)⟩

end KubeAtlas.Proofs.Web
