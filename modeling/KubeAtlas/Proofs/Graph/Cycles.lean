import KubeAtlas.Analysis.Cycles

/-!
# `KubeAtlas.Proofs.Graph.Cycles`: cycle detection is sound and complete

A snapshot describes a directed graph on identifiers: its vertices
are the identifiers of the resources, its arcs the edges with both
ends among them. `detectCycles` works on dense indexes instead. The
map `indexByID` sends an identifier to the last index that has it,
so an index that another one shadows has no arc and is alone in its
component; everything else carries over. `detectCycles_spec` states
the result for the graph on identifiers.
-/

set_option autoImplicit false

namespace KubeAtlas.Proofs.Graph

open Analysis KubeAtlas.Graph Lib Relation

/-! ### The graph on identifiers -/

/-- The identifiers of a snapshot. -/
def ids (g : Graph) : List String := g.resources.map Resource.ID

/-- Some edge of the snapshot leads from `a` to `b`. -/
def HasEdge (g : Graph) (a b : String) : Prop := ∃ e ∈ g.edges, e.fromID = a ∧ e.toID = b

/-- An edge with both ends present. -/
def Arc (g : Graph) (a b : String) : Prop := a ∈ ids g ∧ b ∈ ids g ∧ HasEdge g a b

/-- Each of the two can be reached from the other. -/
def Connected (g : Graph) (a b : String) : Prop :=
  ReflTransGen (Arc g) a b ∧ ReflTransGen (Arc g) b a

/-- The identifiers, in order, of a strongly connected component
with at least two members. -/
structure IsCycle (g : Graph) (members : List String) : Prop where
  sorted : members.Pairwise (· < ·)
  two : 2 ≤ members.length
  stored : ∀ a ∈ members, a ∈ ids g
  component : ∀ a ∈ members, ∀ b, b ∈ members ↔ Connected g a b

/-- The identifiers of a report. -/
def memberIDs (report : CycleReport) : List String := report.members.map Resource.ID

/-- The resource that `indexByID` keeps for an identifier. -/
def lastWithID (g : Graph) (id : String) : Option Resource :=
  g.resources.reverse.find? fun r => r.ID = id

/-! ### Indexes and identifiers -/

section Indexes

variable {g : Graph}

theorem lookup_indexByID (id : String) :
    (indexByID g).lookup id
      = (List.finRange g.resources.length).reverse.find? fun i => (resourceAt g i).ID = id := by
  unfold indexByID
  rw [lookup_foldl_insert (fun i => (resourceAt g i).ID)]
  exact Option.or_none

variable {id : String} {i : Fin g.resources.length}

theorem ID_of_lookup (h : (indexByID g).lookup id = some i) : (resourceAt g i).ID = id := by
  rw [lookup_indexByID] at h
  simpa using List.find?_some h

theorem exists_lookup (h : id ∈ ids g) : ∃ i, (indexByID g).lookup id = some i := by
  obtain ⟨r, hr, rfl⟩ := List.mem_map.mp h
  obtain ⟨i, rfl⟩ := List.get_of_mem hr
  rw [← Option.isSome_iff_exists, lookup_indexByID, List.find?_isSome]
  exact ⟨i, by simp, decide_eq_true (show (resourceAt g i).ID = _ from rfl)⟩

theorem ID_mem_ids (i : Fin g.resources.length) : (resourceAt g i).ID ∈ ids g :=
  List.mem_map_of_mem (List.get_mem g.resources i)

/-- The resource at the index of an identifier is the last one that
has it. -/
theorem lastWithID_of_lookup (h : (indexByID g).lookup id = some i) :
    lastWithID g id = some (resourceAt g i) := by
  have hlist : g.resources = (List.finRange g.resources.length).map (resourceAt g) :=
    (List.map_get_finRange g.resources).symm
  unfold lastWithID
  rw [lookup_indexByID] at h
  rw [hlist, ← List.map_reverse, List.find?_map]
  have hcomp : ((fun r : Resource => decide (r.ID = id)) ∘ resourceAt g)
      = fun i => decide ((resourceAt g i).ID = id) := rfl
  rw [hcomp, h]
  rfl

/-- An index that no later one shadows. -/
def Kept (g : Graph) (i : Fin g.resources.length) : Prop :=
  (indexByID g).lookup (resourceAt g i).ID = some i

theorem kept_of_lookup (h : (indexByID g).lookup id = some i) : Kept g i := by
  unfold Kept
  rw [ID_of_lookup h]
  exact h

variable {i j : Fin g.resources.length}

theorem Kept.inj (hi : Kept g i) (hj : Kept g j)
    (h : (resourceAt g i).ID = (resourceAt g j).ID) : i = j := by
  unfold Kept at hi hj
  rw [h, hj] at hi
  exact (Option.some.inj hi).symm

/-- Arcs between indexes are arcs between the identifiers, and their
ends are kept. -/
theorem arc_of_adjacency (h : j ∈ adjacency g i) :
    Arc g (resourceAt g i).ID (resourceAt g j).ID ∧ Kept g i ∧ Kept g j := by
  obtain ⟨e, he, hfrom, hto⟩ := (mem_adjacency g i j).mp h
  refine ⟨⟨ID_mem_ids i, ID_mem_ids j, e, he, ?_, ?_⟩, kept_of_lookup hfrom, kept_of_lookup hto⟩
  · exact (ID_of_lookup hfrom).symm
  · exact (ID_of_lookup hto).symm

theorem adjacency_of_arc {a b : String} (h : Arc g a b) (hi : (indexByID g).lookup a = some i) :
    ∃ j, (indexByID g).lookup b = some j ∧ j ∈ adjacency g i := by
  obtain ⟨-, hb, e, he, rfl, rfl⟩ := h
  obtain ⟨j, hj⟩ := exists_lookup hb
  exact ⟨j, hj, (mem_adjacency g i j).mpr ⟨e, he, hi, hj⟩⟩

theorem reaches_of_reach (h : Tarjan.Reach (adjacency g) i j) :
    ReflTransGen (Arc g) (resourceAt g i).ID (resourceAt g j).ID := by
  induction h with
  | refl => exact ReflTransGen.refl
  | tail _ harc ih => exact ih.tail (arc_of_adjacency harc).1

theorem reach_of_reaches {a b : String} (h : ReflTransGen (Arc g) a b)
    (hi : (indexByID g).lookup a = some i) :
    ∃ j, (indexByID g).lookup b = some j ∧ Tarjan.Reach (adjacency g) i j := by
  induction h with
  | refl => exact ⟨i, hi, ReflTransGen.refl⟩
  | tail _ harc ih =>
    obtain ⟨j, hj, hreach⟩ := ih
    obtain ⟨k, hk, hadj⟩ := adjacency_of_arc harc hj
    exact ⟨k, hk, hreach.tail hadj⟩

/-- Linked indexes have connected identifiers. -/
theorem connected_of_linked (h : Tarjan.Linked (adjacency g) i j) :
    Connected g (resourceAt g i).ID (resourceAt g j).ID :=
  ⟨reaches_of_reach h.1, reaches_of_reach h.2⟩

/-- Whatever is connected to the identifier of a kept index has an
index linked to it. -/
theorem linked_of_connected (hi : Kept g i) {b : String} (h : Connected g (resourceAt g i).ID b) :
    ∃ j, Kept g j ∧ (resourceAt g j).ID = b ∧ Tarjan.Linked (adjacency g) i j := by
  obtain ⟨j, hj, hreach⟩ := reach_of_reaches h.1 hi
  obtain ⟨k, hk, hback⟩ := reach_of_reaches h.2 hj
  -- the way back ends at the index the identifier started from
  have hki : k = i := Option.some.inj (hk.symm.trans hi)
  rw [hki] at hback
  exact ⟨j, kept_of_lookup hj, ID_of_lookup hj, hreach, hback⟩

/-- An index that leads elsewhere and back is kept. -/
theorem kept_of_linked (h : Tarjan.Linked (adjacency g) i j) (hne : i ≠ j) : Kept g i := by
  rcases ReflTransGen.cases_head h.1 with heq | ⟨k, hadj, -⟩
  · exact absurd heq hne
  · exact (arc_of_adjacency hadj).2.1

end Indexes

/-! ### One component -/

section Component

variable {g : Graph} {C : List (Fin g.resources.length)}

theorem perm_memberIDs (C : List (Fin g.resources.length)) :
    (memberIDs (reportOf g C)).Perm (C.map fun i => (resourceAt g i).ID) := by
  have h := (sortByID_perm (C.map (resourceAt g))).map Resource.ID
  rw [List.map_map] at h
  exact h

theorem mem_memberIDs {a : String} :
    a ∈ memberIDs (reportOf g C) ↔ ∃ i ∈ C, (resourceAt g i).ID = a := by
  rw [(perm_memberIDs C).mem_iff, List.mem_map]

theorem length_memberIDs : (memberIDs (reportOf g C)).length = C.length := by
  rw [(perm_memberIDs C).length_eq, List.length_map]

/-- Kept indexes are told apart by their identifiers, so the sorted
list has no repetition. -/
theorem sorted_memberIDs (hnodup : C.Nodup) (hkept : ∀ i ∈ C, Kept g i) :
    (memberIDs (reportOf g C)).Pairwise (· < ·) := by
  have hle : (memberIDs (reportOf g C)).Pairwise (· ≤ ·) :=
    List.pairwise_map.mpr (sortByID_sorted (C.map (resourceAt g)))
  have hnodup' : (memberIDs (reportOf g C)).Nodup := by
    rw [(perm_memberIDs C).nodup_iff]
    exact hnodup.map_on fun i hi j hj h => (hkept i hi).inj (hkept j hj) h
  exact (hle.and hnodup').imp fun h => lt_of_le_of_ne h.1 h.2

variable (hC : ∀ u ∈ C, ∀ w, w ∈ C ↔ Tarjan.Linked (adjacency g) u w)
include hC

variable {i : Fin g.resources.length}

/-- In a component of a kept index, every index is kept. -/
theorem kept_of_mem (hi : i ∈ C) (hkept : Kept g i) :
    ∀ j ∈ C, Kept g j := by
  intro j hj
  by_cases hij : j = i
  · rw [hij]
    exact hkept
  · exact kept_of_linked ((hC j hj i).mp hi) hij

/-- With two members there is a kept index in a component. -/
theorem kept_of_two (hnodup : C.Nodup) (htwo : 2 ≤ C.length) : ∀ j ∈ C, Kept g j := by
  match C, htwo with
  | i :: i' :: rest, _ =>
    have hne : i ≠ i' := by
      rintro rfl
      exact (List.nodup_cons.mp hnodup).1 List.mem_cons_self
    have hlinked := (hC i List.mem_cons_self i').mp (List.mem_cons_of_mem _ List.mem_cons_self)
    exact kept_of_mem hC List.mem_cons_self (kept_of_linked hlinked hne)

/-- The component of a kept index, in identifiers. -/
theorem mem_memberIDs_iff (hi : i ∈ C) (hkept : Kept g i) (b : String) :
    b ∈ memberIDs (reportOf g C) ↔ Connected g (resourceAt g i).ID b := by
  rw [mem_memberIDs]
  constructor
  · rintro ⟨j, hj, rfl⟩
    exact connected_of_linked ((hC i hi j).mp hj)
  · intro h
    obtain ⟨j, -, hID, hlinked⟩ := linked_of_connected hkept h
    exact ⟨j, (hC i hi j).mpr hlinked, hID⟩

/-- What is reported is a cycle. -/
theorem isCycle_report (hnodup : C.Nodup) (htwo : 2 ≤ C.length) :
    IsCycle g (memberIDs (reportOf g C)) := by
  have hkept := kept_of_two hC hnodup htwo
  exact
    { sorted := sorted_memberIDs hnodup hkept
      two := by rw [length_memberIDs]; exact htwo
      stored := by
        intro a ha
        obtain ⟨i, -, rfl⟩ := mem_memberIDs.mp ha
        exact ID_mem_ids i
      component := by
        intro a ha b
        obtain ⟨i, hi, rfl⟩ := mem_memberIDs.mp ha
        exact mem_memberIDs_iff hC hi (hkept i hi) b }

/-- Two sorted lists with the same members are equal, so a cycle
that meets a component is what the component's report lists. -/
theorem eq_report_of_isCycle (hnodup : C.Nodup) {members : List String} (h : IsCycle g members)
    (hi : i ∈ C) (hkept : Kept g i) (hmem : (resourceAt g i).ID ∈ members) :
    members = memberIDs (reportOf g C) := by
  have hsorted := sorted_memberIDs hnodup (kept_of_mem hC hi hkept)
  have hperm : members.Perm (memberIDs (reportOf g C)) := by
    rw [List.perm_ext_iff_of_nodup (h.sorted.imp ne_of_lt) (hsorted.imp ne_of_lt)]
    intro b
    rw [h.component _ hmem b, mem_memberIDs_iff hC hi hkept b]
  exact hperm.eq_of_pairwise (fun a b _ _ hab hba => absurd hba (lt_asymm hab)) h.sorted hsorted

end Component

/-! ### The whole report -/

/-- What `detectCycles` is known to return for a snapshot. -/
structure Reported (g : Graph) (reports : List CycleReport) : Prop where
  cycles : ∀ members, members ∈ reports.map memberIDs ↔ IsCycle g members
  once : (reports.map memberIDs).Nodup
  stored : ∀ report ∈ reports, ∀ r ∈ report.members, lastWithID g r.ID = some r
  category : ∀ report ∈ reports, report.category = classifyCycle report.members

theorem detectCycles_reported (g : Graph) :
    ∃ reports, detectCycles g = some reports ∧ Reported g reports := by
  obtain ⟨comps, hrun, hnodup, hall, hcomps⟩ :=
    Tarjan.components_spec (adjacency g) (List.finRange _) List.mem_finRange
  rw [Fintype.card_fin] at hrun
  rw [List.nodup_flatten] at hnodup
  have hmem : ∀ C, C ∈ (comps.filter fun C => 2 ≤ C.length) ↔ C ∈ comps ∧ 2 ≤ C.length := by
    intro C
    rw [List.mem_filter, decide_eq_true_iff]
  refine ⟨_, by unfold detectCycles; rw [hrun]; rfl, ?_⟩
  exact
    { cycles := by
        intro members
        rw [List.map_map, List.mem_map]
        constructor
        · rintro ⟨C, hC, rfl⟩
          obtain ⟨hC, htwo⟩ := (hmem C).mp hC
          exact isCycle_report (hcomps C hC).2 (hnodup.1 C hC) htwo
        · intro h
          -- the first identifier has an index, and the index lies in some component
          have htwo := h.two
          obtain ⟨a, ha⟩ := List.exists_mem_of_length_pos (show 0 < members.length by omega)
          obtain ⟨i, hi⟩ := exists_lookup (h.stored a ha)
          obtain ⟨C, hC, hiC⟩ := List.mem_flatten.mp (hall i)
          have heq := eq_report_of_isCycle (hcomps C hC).2 (hnodup.1 C hC) h hiC (kept_of_lookup hi)
            (by rw [ID_of_lookup hi]; exact ha)
          refine ⟨C, (hmem C).mpr ⟨hC, ?_⟩, heq.symm⟩
          rw [← length_memberIDs, ← heq]
          exact htwo
      once := by
        rw [List.map_map]
        refine List.pairwise_map.mpr ((hnodup.2.filter _).imp_of_mem ?_)
        intro C C' hC hC' hdisjoint heq
        obtain ⟨hC, htwo⟩ := (hmem C).mp hC
        obtain ⟨hC', htwo'⟩ := (hmem C').mp hC'
        -- a common identifier would be that of a common index
        obtain ⟨i, hi⟩ := List.exists_mem_of_length_pos (show 0 < C.length by omega)
        have hID : (resourceAt g i).ID ∈ memberIDs (reportOf g C') := by
          rw [← show memberIDs (reportOf g C) = memberIDs (reportOf g C') from heq]
          exact mem_memberIDs.mpr ⟨i, hi, rfl⟩
        obtain ⟨j, hj, hij⟩ := mem_memberIDs.mp hID
        have hkept := kept_of_two (hcomps C hC).2 (hnodup.1 C hC) htwo i hi
        have hkept' := kept_of_two (hcomps C' hC').2 (hnodup.1 C' hC') htwo' j hj
        exact hdisjoint hi (hkept'.inj hkept hij ▸ hj)
      stored := by
        intro report hreport r hr
        obtain ⟨C, hC, rfl⟩ := List.mem_map.mp hreport
        obtain ⟨hC, htwo⟩ := (hmem C).mp hC
        have hr' := (sortByID_perm (C.map (resourceAt g))).mem_iff.mp hr
        obtain ⟨i, hi, rfl⟩ := List.mem_map.mp hr'
        exact lastWithID_of_lookup (kept_of_two (hcomps C hC).2 (hnodup.1 C hC) htwo i hi)
      category := by
        intro report hreport
        obtain ⟨C, -, rfl⟩ := List.mem_map.mp hreport
        rfl }

/-- A report is determined by the identifiers of its members. -/
theorem Reported.rebuild {g : Graph} {reports : List CycleReport} (h : Reported g reports) :
    reports = (reports.map memberIDs).map fun members =>
      ⟨members.filterMap (lastWithID g), classifyCycle (members.filterMap (lastWithID g))⟩ := by
  rw [List.map_map]
  refine (List.map_id _).symm.trans (List.map_congr_left fun report hreport => ?_)
  have hmembers : (memberIDs report).filterMap (lastWithID g) = report.members := by
    unfold memberIDs
    rw [List.filterMap_map]
    exact (List.filterMap_congr (h.stored report hreport)).trans List.filterMap_some
  show report = ⟨(memberIDs report).filterMap _, classifyCycle ((memberIDs report).filterMap _)⟩
  rw [hmembers, ← h.category report hreport]

/-! ### Order and repetition -/

section Order

variable {g g' : Graph}

/-- The cycles depend on the set of identifiers and the set of edges
only. -/
theorem isCycle_congr (hids : ∀ id, id ∈ ids g' ↔ id ∈ ids g)
    (hedges : ∀ a b, HasEdge g' a b ↔ HasEdge g a b) (members : List String) :
    IsCycle g' members ↔ IsCycle g members := by
  have harc : Arc g' = Arc g := by
    funext a b
    unfold Arc
    rw [hids a, hids b, hedges a b]
  have hconnected : Connected g' = Connected g := by
    funext a b
    unfold Connected
    rw [harc]
  constructor
  · intro h
    exact ⟨h.sorted, h.two, fun a ha => (hids a).mp (h.stored a ha),
      fun a ha b => hconnected ▸ h.component a ha b⟩
  · intro h
    exact ⟨h.sorted, h.two, fun a ha => (hids a).mpr (h.stored a ha),
      fun a ha b => hconnected ▸ h.component a ha b⟩

/-- Where identifiers are not repeated, the last resource with one
is the only one. -/
theorem lastWithID_eq_some_iff (hnodup : (ids g).Nodup) {id : String} {r : Resource} :
    lastWithID g id = some r ↔ r ∈ g.resources ∧ r.ID = id := by
  unfold lastWithID
  constructor
  · intro h
    exact ⟨List.mem_reverse.mp (List.mem_of_find?_eq_some h), by simpa using List.find?_some h⟩
  · rintro ⟨hr, rfl⟩
    cases hfind : g.resources.reverse.find? fun r' => r'.ID = r.ID with
    | none =>
      rw [List.find?_eq_none] at hfind
      exact absurd (decide_eq_true rfl) (hfind r (List.mem_reverse.mpr hr))
    | some r' =>
      have hr' := List.mem_reverse.mp (List.mem_of_find?_eq_some hfind)
      have hID : r'.ID = r.ID := by simpa using List.find?_some hfind
      rw [List.inj_on_of_nodup_map hnodup hr' hr hID]

theorem lastWithID_congr (hnodup : (ids g).Nodup) (hperm : g'.resources.Perm g.resources) :
    lastWithID g' = lastWithID g := by
  have hnodup' : (ids g').Nodup := (hperm.map Resource.ID).nodup_iff.mpr hnodup
  funext id
  apply Option.ext
  intro r
  rw [lastWithID_eq_some_iff hnodup', lastWithID_eq_some_iff hnodup, hperm.mem_iff]

end Order

/-- `detectCycles` always returns. Its reports are the strongly
connected components with at least two members of the graph on
identifiers, each once, with the members in the order of their
identifiers. A snapshot with the same identifiers and the same
edges, in whatever order and however often, has the same cycles; if
moreover it has the same resources, one for each identifier, the
reports are the same. -/
theorem detectCycles_spec (g : Graph) :
    ∃ reports, detectCycles g = some reports ∧ Reported g reports ∧
      ∀ g' : Graph, (∀ id, id ∈ ids g' ↔ id ∈ ids g) →
        (∀ a b, HasEdge g' a b ↔ HasEdge g a b) →
        ∃ reports', detectCycles g' = some reports' ∧
          (reports'.map memberIDs).Perm (reports.map memberIDs) ∧
          ((ids g).Nodup → g'.resources.Perm g.resources → reports'.Perm reports) := by
  obtain ⟨reports, hrun, h⟩ := detectCycles_reported g
  refine ⟨reports, hrun, h, fun g' hids hedges => ?_⟩
  obtain ⟨reports', hrun', h'⟩ := detectCycles_reported g'
  have hperm : (reports'.map memberIDs).Perm (reports.map memberIDs) := by
    rw [List.perm_ext_iff_of_nodup h'.once h.once]
    intro members
    rw [h'.cycles, h.cycles, isCycle_congr hids hedges]
  refine ⟨reports', hrun', hperm, fun hnodup hresources => ?_⟩
  rw [h'.rebuild, h.rebuild, lastWithID_congr hnodup hresources]
  exact hperm.map _

/-- Two ConfigMaps that refer to each other, with an edge written
twice, a self-loop and an edge to a resource that is not there. -/
def mutualConfig : Graph where
  resources := [{ kind := "ConfigMap", name := "b", ns := "d" },
    { kind := "ConfigMap", name := "a", ns := "d" }]
  edges := [⟨"d/ConfigMap/a", "d/ConfigMap/b", "REFERS", []⟩,
    ⟨"d/ConfigMap/a", "d/ConfigMap/b", "REFERS", []⟩,
    ⟨"d/ConfigMap/b", "d/ConfigMap/a", "REFERS", []⟩,
    ⟨"d/ConfigMap/b", "d/ConfigMap/b", "REFERS", []⟩,
    ⟨"d/ConfigMap/b", "d/ConfigMap/gone", "REFERS", []⟩]

/-- The two are reported as one cycle. -/
theorem detectCycles_spec_mutualConfig :
    (detectCycles mutualConfig).map (·.map memberIDs)
        = some [["d/ConfigMap/a", "d/ConfigMap/b"]] ∧
      IsCycle mutualConfig ["d/ConfigMap/a", "d/ConfigMap/b"] := by
  have hrun : (detectCycles mutualConfig).map (·.map memberIDs)
      = some [["d/ConfigMap/a", "d/ConfigMap/b"]] := by decide +kernel
  refine ⟨hrun, ?_⟩
  obtain ⟨reports, hreports, hspec, -⟩ := detectCycles_spec mutualConfig
  rw [hreports] at hrun
  rw [← hspec.cycles, show reports.map memberIDs = _ from Option.some.inj hrun]
  exact List.mem_singleton_self _

end KubeAtlas.Proofs.Graph
