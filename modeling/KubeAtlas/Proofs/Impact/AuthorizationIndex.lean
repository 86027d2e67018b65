import KubeAtlas.Analysis.Authorization
import Mathlib.Data.List.Induction

/-!
# `KubeAtlas.Proofs.Impact.AuthorizationIndex`: what the authorization facet keeps

The facet's first loop collects the distinct relevant edges and
counts the role and account references; the second ranges over the
collected edges in an open order and fills the heaps.
`collectAuthorizationEdges_spec` says what the first loop leaves
behind, with the counts read off the collected edges, and
`indexAuthorizationEdges_holds` what the second one holds, whatever
the order.

`authorizationEntries_injective` is why that order cannot show: the
motif never allows one edge type in both directions at one resource,
so no two steps of a resource tie in `impactArcHeap.Less`.
-/

set_option autoImplicit false

namespace KubeAtlas.Proofs.Impact

open KubeAtlas.Graph Lib Analysis

/-! ### The first loop -/

/-- The edges the facet keeps. -/
def RelevantEdge (resources : ResourceTable) (edge : EdgeKey) : Prop :=
  isAuthorizationEdge edge.type = true ∧
    ((resources edge.fromID).isSome ∨ (resources edge.toID).isSome)

/-- The references of one type that leave an identifier. -/
def leaving (type : EdgeType) (id : String) (keys : List EdgeKey) : Nat :=
  keys.countP fun edge => edge.type = type && edge.fromID = id

theorem leaving_cons (type : EdgeType) (id : String) (edge : EdgeKey) (keys : List EdgeKey) :
    leaving type id (edge :: keys)
      = leaving type id keys + if edge.type = type ∧ edge.fromID = id then 1 else 0 := by
  unfold leaving
  rw [List.countP_cons]
  simp only [Bool.and_eq_true, decide_eq_true_eq]

/-- A reference has no rival in the counts exactly when it is the
only one of its type at its source. -/
theorem leaving_le_one_iff {keys : List EdgeKey} (hnodup : keys.Nodup) {k : EdgeKey}
    (hk : k ∈ keys) :
    leaving k.type k.fromID keys ≤ 1 ↔
      ∀ k' ∈ keys, k'.type = k.type → k'.fromID = k.fromID → k' = k := by
  have hmem : ∀ k', k' ∈ keys.filter (fun e => e.type = k.type && e.fromID = k.fromID) ↔
      k' ∈ keys ∧ k'.type = k.type ∧ k'.fromID = k.fromID := by
    intro k'
    rw [List.mem_filter, Bool.and_eq_true, decide_eq_true_eq, decide_eq_true_eq]
  unfold leaving
  rw [List.countP_eq_length_filter]
  constructor
  · intro hlen k' hk' htype hfrom
    have hself := (hmem k).mpr ⟨hk, rfl, rfl⟩
    have hother := (hmem k').mpr ⟨hk', htype, hfrom⟩
    obtain ⟨x, hx⟩ : ∃ x, keys.filter (fun e => e.type = k.type && e.fromID = k.fromID) = [x] :=
      List.length_eq_one_iff.mp (Nat.le_antisymm hlen (List.length_pos_of_mem hself))
    rw [hx, List.mem_singleton] at hself hother
    rw [hself, hother]
  · intro honly
    have hsub : keys.filter (fun e => e.type = k.type && e.fromID = k.fromID) ⊆ [k] := by
      intro k' hk'
      obtain ⟨hk', htype, hfrom⟩ := (hmem k').mp hk'
      exact List.mem_singleton.mpr (honly k' hk' htype hfrom)
    exact (List.subperm_of_subset (hnodup.filter _) hsub).length_le

/-- What the first loop has kept of the edges so far. -/
structure Collected (resources : ResourceTable) (edges : List Edge)
    (refs : AuthorizationRefs) : Prop where
  nodup : refs.unique.Nodup
  mem_unique : ∀ edge, edge ∈ refs.unique ↔
    edge ∈ edges.map Edge.key ∧ RelevantEdge resources edge
  roleRefs : ∀ id, refs.roleRefs id = leaving .bindsRole id refs.unique
  accountRefs : ∀ id, refs.accountRefs id = leaving .usesServiceAccount id refs.unique

/-- Counting one more reference at `id`. -/
theorem update_count (count : ByID Nat) (id v : String) :
    Function.update count id (count id + 1) v = count v + if id = v then 1 else 0 := by
  by_cases h : id = v
  · subst h
    simp
  · rw [Function.update_of_ne (Ne.symm h), if_neg h, Nat.add_zero]

variable {resources : ResourceTable} {refs : AuthorizationRefs}

/-- A new relevant edge joins the set and its own counter. -/
theorem collect_new {e : Edge} (hrel : RelevantEdge resources e.key) (hnew : e.key ∉ refs.unique) :
    (collectAuthorizationEdge resources refs e).unique = e.key :: refs.unique ∧
      (∀ id, (collectAuthorizationEdge resources refs e).roleRefs id
        = refs.roleRefs id + if e.type = .bindsRole ∧ e.fromID = id then 1 else 0) ∧
      (∀ id, (collectAuthorizationEdge resources refs e).accountRefs id
        = refs.accountRefs id
          + if e.type = .usesServiceAccount ∧ e.fromID = id then 1 else 0) := by
  obtain ⟨htype, hpresent⟩ := hrel
  have htype' : isAuthorizationEdge e.type = true := htype
  have hsome : ((resources e.fromID).isNone && (resources e.toID).isNone) = false := by
    rw [Bool.and_eq_false_iff, Option.isNone_eq_false_iff, Option.isNone_eq_false_iff]
    exact hpresent
  unfold collectAuthorizationEdge
  simp only [htype', hsome, hnew, Bool.not_true, Bool.false_eq_true, if_false,
    List.insert_of_not_mem hnew]
  -- The two counted types differ, so at most one counter moves.
  have hdiff : EdgeType.bindsRole ≠ EdgeType.usesServiceAccount := by decide
  by_cases hrole : e.type = .bindsRole
  · simp only [hrole, if_true, true_and, hdiff, false_and, if_false]
    exact ⟨fun id => update_count refs.roleRefs e.fromID id, fun _ => rfl⟩
  · by_cases hacc : e.type = .usesServiceAccount
    · simp only [hacc, hdiff.symm, if_true, true_and, false_and, if_false]
      exact ⟨fun _ => rfl, fun id => update_count refs.accountRefs e.fromID id⟩
    · simp only [hrole, hacc, if_false, false_and]
      exact ⟨trivial, fun _ => rfl, fun _ => rfl⟩

/-- An edge that is not relevant, or is known already, changes
nothing. -/
theorem collect_skip {e : Edge} (h : RelevantEdge resources e.key → e.key ∈ refs.unique) :
    collectAuthorizationEdge resources refs e = refs := by
  unfold collectAuthorizationEdge
  by_cases htype : isAuthorizationEdge e.type = true
  · by_cases hpresent : ((resources e.fromID).isNone && (resources e.toID).isNone) = true
    · simp [htype, hpresent]
    · have hsome : (resources e.fromID).isSome ∨ (resources e.toID).isSome := by
        rw [Bool.not_eq_true, Bool.and_eq_false_iff, Option.isNone_eq_false_iff,
          Option.isNone_eq_false_iff] at hpresent
        exact hpresent
      have hmem := h ⟨htype, hsome⟩
      simp [htype, hpresent, hmem]
  · simp [htype]

/-- The first loop keeps every distinct relevant edge once, and
counts them. -/
theorem collectAuthorizationEdges_spec (resources : ResourceTable) (edges : List Edge) :
    Collected resources edges (collectAuthorizationEdges resources edges) := by
  induction edges using List.reverseRecOn with
  | nil =>
    exact ⟨List.nodup_nil, by simp [collectAuthorizationEdges], fun _ => rfl, fun _ => rfl⟩
  | append_singleton edges e ih =>
    have hstep : collectAuthorizationEdges resources (edges ++ [e])
        = collectAuthorizationEdge resources (collectAuthorizationEdges resources edges) e := by
      simp [collectAuthorizationEdges]
    have hkeys : ∀ k, k ∈ (edges ++ [e]).map Edge.key ↔
        k ∈ edges.map Edge.key ∨ k = e.key := by
      intro k
      rw [List.map_append, List.mem_append, List.map_singleton, List.mem_singleton]
    rw [hstep]
    by_cases hrel : RelevantEdge resources e.key
    · by_cases hseen : e.key ∈ (collectAuthorizationEdges resources edges).unique
      · rw [collect_skip fun _ => hseen]
        refine ⟨ih.nodup, fun k => ?_, ih.roleRefs, ih.accountRefs⟩
        rw [ih.mem_unique, hkeys]
        refine ⟨fun h => ⟨Or.inl h.1, h.2⟩, fun h => ⟨?_, h.2⟩⟩
        cases h.1 with
        | inl hk => exact hk
        | inr hk => exact hk ▸ ((ih.mem_unique _).mp hseen).1
      · obtain ⟨hunique, hrole, hacc⟩ := collect_new hrel hseen
        refine ⟨?_, fun k => ?_, fun id => ?_, fun id => ?_⟩
        · rw [hunique]
          exact List.nodup_cons.mpr ⟨hseen, ih.nodup⟩
        · rw [hunique, List.mem_cons, ih.mem_unique, hkeys]
          refine ⟨fun h => ?_, fun h => ?_⟩
          · cases h with
            | inl hk => exact ⟨Or.inr hk, hk ▸ hrel⟩
            | inr hk => exact ⟨Or.inl hk.1, hk.2⟩
          · cases h.1 with
            | inl hk => exact Or.inr ⟨hk, h.2⟩
            | inr hk => exact Or.inl hk
        · rw [hrole, hunique, leaving_cons, ih.roleRefs]
          rfl
        · rw [hacc, hunique, leaving_cons, ih.accountRefs]
          rfl
    · rw [collect_skip fun h => absurd h hrel]
      refine ⟨ih.nodup, fun k => ?_, ih.roleRefs, ih.accountRefs⟩
      rw [ih.mem_unique, hkeys]
      refine ⟨fun h => ⟨Or.inl h.1, h.2⟩, fun h => ⟨?_, h.2⟩⟩
      cases h.1 with
      | inl hk => exact hk
      | inr hk => exact absurd (hk ▸ h.2) hrel

variable {edge : EdgeKey}

/-- The counters of a reference, read off the stored edges. Its
source is loaded, so all of its rivals were counted. -/
theorem Collected.not_ambiguous_iff {edges : List Edge} (h : Collected resources edges refs)
    (hmem : edge ∈ refs.unique) (hsource : (resources edge.fromID).isSome) :
    ((edge.type = .bindsRole && refs.roleRefs edge.fromID > 1) ||
        (edge.type = .usesServiceAccount && refs.accountRefs edge.fromID > 1)) = false ↔
      (edge.type = .bindsRole ∨ edge.type = .usesServiceAccount →
        ∀ e ∈ edges, e.fromID = edge.fromID → e.type = edge.type → e.toID = edge.toID) := by
  have hrivals : leaving edge.type edge.fromID refs.unique ≤ 1 ↔
      ∀ e ∈ edges, e.fromID = edge.fromID → e.type = edge.type → e.toID = edge.toID := by
    rw [leaving_le_one_iff h.nodup hmem]
    constructor
    · intro honly e he hfrom htype
      have hrel : RelevantEdge resources e.key := by
        refine ⟨?_, Or.inl ?_⟩
        · show isAuthorizationEdge e.type = true
          rw [htype]
          exact ((h.mem_unique edge).mp hmem).2.1
        · show (resources e.fromID).isSome
          rwa [hfrom]
      have hkey := honly e.key ((h.mem_unique e.key).mpr ⟨List.mem_map_of_mem he, hrel⟩)
        htype hfrom
      exact congrArg EdgeKey.toID hkey
    · intro honly k hk htype hfrom
      obtain ⟨e, he, rfl⟩ := List.mem_map.mp ((h.mem_unique k).mp hk).1
      have hto : e.key.toID = edge.toID := honly e he hfrom htype
      exact EdgeKey.mk.injEq .. ▸ ⟨hfrom, hto, htype⟩
  have hdiff : EdgeType.bindsRole ≠ EdgeType.usesServiceAccount := by decide
  by_cases hrole : edge.type = .bindsRole
  · rw [hrole] at hrivals ⊢
    rw [h.roleRefs]
    simp only [decide_true, Bool.true_and, hdiff, decide_false, Bool.false_and, Bool.or_false,
      decide_eq_false_iff_not, gt_iff_lt, not_lt, true_or, true_implies]
    exact hrivals
  · by_cases hacc : edge.type = .usesServiceAccount
    · rw [hacc] at hrivals ⊢
      rw [h.accountRefs]
      simp only [decide_true, Bool.true_and, hdiff.symm, decide_false, Bool.false_and,
        Bool.false_or, decide_eq_false_iff_not, gt_iff_lt, not_lt, or_true, true_implies]
      exact hrivals
    · simp [hrole, hacc]

/-! ### The second loop -/

section Index

variable (rootClass : AuthorizationClass) (resources : ResourceTable) (cluster : String)
  (refs : AuthorizationRefs)

/-- The entries of one edge, for both directions. -/
def authorizationEntriesOf (edge : EdgeKey) : List (String × IndexEntry) :=
  [false, true].flatMap fun reverse =>
    (authorizationEntries rootClass resources cluster refs edge reverse).map fun entry =>
      ((authorizationEnds edge reverse).1, entry)

theorem mem_authorizationEntriesOf {edge : EdgeKey} {v : String} {entry : IndexEntry} :
    (v, entry) ∈ authorizationEntriesOf rootClass resources cluster refs edge ↔
      ∃ reverse, (authorizationEnds edge reverse).1 = v ∧
        entry ∈ authorizationEntries rootClass resources cluster refs edge reverse := by
  unfold authorizationEntriesOf
  simp only [List.mem_flatMap, List.mem_map, Prod.mk.injEq]
  constructor
  · rintro ⟨reverse, -, entry', hentry, hv, rfl⟩
    exact ⟨reverse, hv, hentry⟩
  · rintro ⟨reverse, hv, hentry⟩
    exact ⟨reverse, by cases reverse <;> simp, entry, hentry, hv, rfl⟩

variable {entries : List (String × IndexEntry)} {ix : ArcIndex}

theorem indexAuthorizationEdge_holds (h : ix.Holds entries) (edge : EdgeKey) :
    (indexAuthorizationEdge rootClass resources cluster refs ix edge).Holds
      (authorizationEntriesOf rootClass resources cluster refs edge ++ entries) := by
  unfold indexAuthorizationEdge authorizationEntriesOf
  simp only [List.foldl_cons, List.foldl_nil, List.flatMap_cons, List.flatMap_nil,
    List.append_nil]
  refine ((h.addAll _ _).addAll _ _).perm ?_
  rw [← List.append_assoc]
  exact List.perm_append_comm.append_right _

theorem foldl_indexAuthorizationEdge_holds (keys : List EdgeKey) (h : ix.Holds entries) :
    (keys.foldl (indexAuthorizationEdge rootClass resources cluster refs) ix).Holds
      (keys.flatMap (authorizationEntriesOf rootClass resources cluster refs) ++ entries) := by
  induction keys generalizing ix entries with
  | nil => exact h
  | cons edge keys ih =>
    refine (ih (indexAuthorizationEdge_holds rootClass resources cluster refs h edge)).perm ?_
    rw [List.flatMap_cons, List.append_assoc]
    exact List.perm_append_comm_assoc _ _ _

/-- Whatever the order of the range, the index holds the entries of
every collected edge. -/
theorem indexAuthorizationEdges_holds (range : RangeOrder EdgeKey) :
    (indexAuthorizationEdges range rootClass resources cluster refs).Holds
      (refs.unique.flatMap (authorizationEntriesOf rootClass resources cluster refs)) := by
  have h := foldl_indexAuthorizationEdge_holds rootClass resources cluster refs
    (range.order refs.unique) .empty
  rw [List.append_nil] at h
  exact h.perm ((range.perm refs.unique).flatMap_right _)

end Index

variable {reverse : Bool}

/-- The class of a resource fixes the direction in which the motif
leaves it: edges are followed backwards from roles and accounts,
forwards from bindings and workloads. -/
theorem transition_direction {root : AuthorizationClass} {cls : Option AuthorizationClass}
    {type : EdgeType} (h : impactAuthorizationTransition root cls type reverse = true) :
    reverse = (cls = some .role || cls = some .account) := by
  cases cls with
  | none => exact absurd h (by simp [impactAuthorizationTransition])
  | some cls =>
    cases cls with
    | role | workload => simp_all [impactAuthorizationTransition]
    | binding | account =>
        -- Two edge types, both in the same direction.
        simp only [impactAuthorizationTransition, Bool.or_eq_true, Bool.and_eq_true] at h
        rcases h with ⟨⟨-, hdir⟩, -⟩ | ⟨⟨-, hdir⟩, -⟩
        · simpa using hdir
        · simpa using hdir

variable {cluster : String} {rootClass : AuthorizationClass}

/-- An arc among the entries of an edge: its ends are those of the
walk, its label is the edge, and the motif allows its direction. -/
theorem arc_mem_authorizationEntries {step : ImpactStep}
    (h : .arc step ∈ authorizationEntries rootClass resources cluster refs edge reverse) :
    impactAuthorizationTransition rootClass
        (impactAuthorizationClass (resources.get (authorizationEnds edge reverse).1))
        edge.type reverse = true ∧
      impactAuthorizationEdgeReason edge resources cluster refs = none ∧
      step = { fromID := edge.fromID, toID := edge.toID, type := edge.type,
               traversalFrom := (authorizationEnds edge reverse).1,
               traversalTo := (authorizationEnds edge reverse).2 } := by
  unfold authorizationEntries at h
  by_cases ht : impactAuthorizationTransition rootClass
      (impactAuthorizationClass (resources.get (authorizationEnds edge reverse).1))
      edge.type reverse = true
  · simp only [ht, Bool.not_true, Bool.false_eq_true, if_false] at h
    cases hreason : impactAuthorizationEdgeReason edge resources cluster refs with
    | some reason =>
      rw [hreason] at h
      exact absurd h (by simp)
    | none =>
      rw [hreason] at h
      simp only [List.mem_singleton, IndexEntry.arc.injEq] at h
      exact ⟨ht, rfl, h⟩
  · simp only [ht, Bool.not_false, if_true] at h
    exact absurd h (by simp)

/-- And every edge that the motif allows, with no reason against it,
has its arc. -/
theorem authorizationEntries_eq_arc
    (hmotif : impactAuthorizationTransition rootClass (impactAuthorizationClass (resources.get
      (authorizationEnds edge reverse).1)) edge.type reverse = true)
    (hreason : impactAuthorizationEdgeReason edge resources cluster refs = none) :
    authorizationEntries rootClass resources cluster refs edge reverse =
      [.arc { fromID := edge.fromID, toID := edge.toID, type := edge.type,
              traversalFrom := (authorizationEnds edge reverse).1,
              traversalTo := (authorizationEnds edge reverse).2 }] := by
  unfold authorizationEntries
  simp only [hmotif, Bool.not_true, Bool.false_eq_true, if_false, hreason]

/-- No resource has two steps to one neighbour by one edge type. -/
theorem authorizationEntries_injective {keys : List EdgeKey} (v : String) (s t : ImpactStep)
    (hs : (v, .arc s) ∈ keys.flatMap (authorizationEntriesOf rootClass resources cluster refs))
    (ht : (v, .arc t) ∈ keys.flatMap (authorizationEntriesOf rootClass resources cluster refs))
    (hto : s.traversalTo = t.traversalTo) (htype : s.type = t.type) : s = t := by
  obtain ⟨edge, -, hs⟩ := List.mem_flatMap.mp hs
  obtain ⟨edge', -, ht⟩ := List.mem_flatMap.mp ht
  obtain ⟨reverse, hv, hs⟩ :=
    (mem_authorizationEntriesOf rootClass resources cluster refs).mp hs
  obtain ⟨reverse', hv', ht⟩ :=
    (mem_authorizationEntriesOf rootClass resources cluster refs).mp ht
  obtain ⟨hmotif, -, hs⟩ := arc_mem_authorizationEntries hs
  obtain ⟨hmotif', -, ht⟩ := arc_mem_authorizationEntries ht
  have hedgeType : edge.type = edge'.type := by
    rw [hs, ht] at htype
    exact htype
  rw [hv] at hmotif
  rw [hv', ← hedgeType] at hmotif'
  have hdir : reverse = reverse' :=
    (transition_direction hmotif).trans (transition_direction hmotif').symm
  subst hdir
  -- Both walks start at `v`, end at one neighbour and run in one direction.
  have hto' : (authorizationEnds edge reverse).2 = (authorizationEnds edge' reverse).2 := by
    rw [hs, ht] at hto
    exact hto
  have hedge : edge = edge' := by
    have hfst := hv.trans hv'.symm
    obtain ⟨f, t, ty⟩ := edge
    cases reverse with
    | false =>
      simp only [authorizationEnds, Bool.false_eq_true, if_false] at hfst hto'
      simp only at hedgeType
      rw [hfst, hto', hedgeType]
    | true =>
      simp only [authorizationEnds, if_true] at hfst hto'
      simp only at hedgeType
      rw [hfst, hto', hedgeType]
  rw [hs, ht, hedge]

end KubeAtlas.Proofs.Impact
