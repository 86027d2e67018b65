import KubeAtlas.Proofs.Impact.Traversal
import Mathlib.Algebra.BigOperators.Group.Finset.Basic

/-!
# `KubeAtlas.Proofs.Impact.Notices`: the counts and notices of `AnalyzeImpact`

The walk counts the resources it returns, and it counts the edges
that it leaves out. `Noticed` gives the reasons for the latter over
the projection alone, without the index: the type of the edge, a
far end that is not loaded, or the UID of an owner.

The index tallies the notices of each resource, and the walk adds up
the tallies as it takes resources from its queue. Every resource it
returns is taken once (`Search.search_carries`), so the totals are
those of the root and the returned resources (`totals_eq_card`).
`analyzeImpact_noticeSpec` states this for the result, with what it
means for `ModeledTraversalComplete`.
-/

set_option autoImplicit false

namespace KubeAtlas.Proofs.Impact

open KubeAtlas.Graph Lib Analysis

/-! ### Reasons -/

/-- No selected resource has the identifier. -/
def Absent (g : Graph) (o : ImpactOptions) (id : String) : Prop :=
  ∀ r ∈ selected o.clusterID g.resources, r.ID ≠ id

/-- The edge is an `OWNS` edge between two selected resources, with
this status. -/
def OwnerStatus (g : Graph) (o : ImpactOptions) (edge : EdgeKey) (status : OwnerUIDStatus) :
    Prop :=
  edge.type = .owns ∧ ∃ child ∈ selected o.clusterID g.resources,
    ∃ owner ∈ selected o.clusterID g.resources,
      child.ID = edge.fromID ∧ owner.ID = edge.toID ∧ impactOwnerUIDStatus child owner = status

/-- Why an edge is left out. An edge to an owner whose UID is
unknown is walked, but flagged. -/
inductive Noticed (g : Graph) (o : ImpactOptions) (edge : EdgeKey) : ImpactNoticeReason → Prop
  | authorization (binding : edge.type = .bindsRole ∨ edge.type = .bindsSubject) :
      Noticed g o edge .authorizationSeparate
  | runtime (call : edge.type = .callsAtRuntime) : Noticed g o edge .runtimeExcluded
  | unmodeled (type : edge.type ∉ modeledTypes)
      (other : edge.type ∉ [.bindsRole, .bindsSubject, .callsAtRuntime]) :
      Noticed g o edge .unmodeledRelationship
  | crossCluster (modeled : edge.type ∈ modeledTypes)
      (absent : Absent g o (traversalEnds o.relation edge).2)
      (cluster : impactIDCluster (traversalEnds o.relation edge).2 ≠ o.clusterID) :
      Noticed g o edge .crossClusterExcluded
  | missing (modeled : edge.type ∈ modeledTypes)
      (absent : Absent g o (traversalEnds o.relation edge).2)
      (cluster : impactIDCluster (traversalEnds o.relation edge).2 = o.clusterID) :
      Noticed g o edge .missingResource
  | mismatch (owner : OwnerStatus g o edge .mismatch) : Noticed g o edge .ownerUIDMismatch
  | unknown (owner : OwnerStatus g o edge .unknown) : Noticed g o edge .ownerUIDUnknown

/-- The root or a returned resource. -/
def Walked (rootID : String) (result : ImpactResult) (id : String) : Prop :=
  id = rootID ∨ ∃ m ∈ result.resources, m.resource.id = id

/-- The distinct edges of a projection. -/
def edgeTuples (g : Graph) : Finset EdgeKey := (g.edges.map Edge.key).toFinset

/-- The count that the result reports for a reason. -/
def reported (result : ImpactResult) (reason : ImpactNoticeReason) : Nat :=
  ((result.notices.filter fun notice => notice.reason = reason).map ImpactNotice.count).sum

open scoped Classical in
/-- What the counts and notices of a result say about the
projection, for the normalized options. -/
structure NoticeSpec (g : Graph) (rootID : String) (o : ImpactOptions) (result : ImpactResult) :
    Prop where
  /-- The counts are of the returned resources. -/
  total : result.counts.total = result.resources.length
  depths : result.counts.direct + result.counts.indirect = result.counts.total
  kinds : result.counts.workloads + result.counts.pods + result.counts.other
    = result.counts.total
  /-- A reason is reported with the number of edges that have it, among those that start at
  the root or at a returned resource. -/
  notices : ∀ reason, reported result reason = ((edgeTuples g).filter fun edge =>
    Walked rootID result (traversalEnds o.relation edge).1 ∧ Noticed g o edge reason).card
  /-- Each of them has at most one reason, and exactly one if it is no arc. -/
  unique : ∀ edge ∈ edgeTuples g, Walked rootID result (traversalEnds o.relation edge).1 →
    ∀ reason reason', Noticed g o edge reason → Noticed g o edge reason' → reason = reason'
  excluded : ∀ edge ∈ edgeTuples g, Walked rootID result (traversalEnds o.relation edge).1 →
    (∀ v, ¬ ImpactArc g o edge (traversalEnds o.relation edge).1 v) →
      ∃ reason, Noticed g o edge reason
  /-- The traversal is complete if nothing reachable is missing, and no edge of a modeled type
  that starts at the root or at a returned resource was left out for a missing resource or the
  UID of an owner. -/
  complete_iff : result.modeledTraversalComplete = true ↔
    (∀ v, Relation.ReflTransGen (ImpactAdj g o) rootID v → Walked rootID result v) ∧
      ∀ edge ∈ edgeTuples g, edge.type ∈ modeledTypes →
        Walked rootID result (traversalEnds o.relation edge).1 →
          ¬ (Absent g o (traversalEnds o.relation edge).2 ∧
              impactIDCluster (traversalEnds o.relation edge).2 = o.clusterID) ∧
            ¬ OwnerStatus g o edge .mismatch

/-! ### The reason that the index records -/

/-- The notice that an edge adds at its start. -/
def noticeOf (resources : ResourceTable) (opts : ImpactOptions) (edge : EdgeKey) :
    Option ImpactNoticeReason :=
  match impactExcludedType edge.type with
  | some reason => some reason
  | none =>
    if (resources (traversalEnds opts.relation edge).2).isNone then
      if impactIDCluster (traversalEnds opts.relation edge).2 ≠ opts.clusterID then
        some .crossClusterExcluded
      else some .missingResource
    else if edge.type = .owns then
      match impactOwnerUIDStatus (resources.get edge.fromID) (resources.get edge.toID) with
      | .mismatch => some .ownerUIDMismatch
      | .unknown => some .ownerUIDUnknown
      | .matched => none
    else none

section

variable (resources : ResourceTable) (opts : ImpactOptions)

/-- An edge adds its notice once, and no other. -/
theorem count_notice_edgeEntries (edge : EdgeKey) (reason : ImpactNoticeReason) :
    (edgeEntries resources opts edge).count (.notice reason)
      = if noticeOf resources opts edge = some reason then 1 else 0 := by
  unfold edgeEntries noticeOf
  cases impactExcludedType edge.type with
  | some excluded => simp [List.count_singleton]
  | none =>
    by_cases hfar : (resources (traversalEnds opts.relation edge).2).isNone = true
    · by_cases hcluster : impactIDCluster (traversalEnds opts.relation edge).2 = opts.clusterID
      · simp [hfar, hcluster, List.count_singleton]
      · simp [hfar, hcluster, List.count_singleton]
    · by_cases howns : edge.type = .owns
      · cases impactOwnerUIDStatus (resources.get edge.fromID) (resources.get edge.toID) with
        | mismatch => simp [hfar, howns, List.count_singleton]
        | unknown => simp [hfar, howns, List.count_cons]
        | matched => simp [hfar, howns]
      · simp [hfar, howns]

/-- The tally of a resource counts the edges that start there. -/
theorem count_notice_entriesOf (keys : List EdgeKey) (v : String) (reason : ImpactNoticeReason) :
    (entriesOf resources opts keys).count (v, .notice reason)
      = (keys.filter fun edge => (traversalEnds opts.relation edge).1 = v ∧
          noticeOf resources opts edge = some reason).length := by
  induction keys with
  | nil => rfl
  | cons edge keys ih =>
    have hentries : entriesOf resources opts (edge :: keys)
        = (edgeEntries resources opts edge).map
            (fun entry => ((traversalEnds opts.relation edge).1, entry))
          ++ entriesOf resources opts keys := rfl
    rw [hentries, List.count_append, ih, List.filter_cons]
    by_cases hv : (traversalEnds opts.relation edge).1 = v
    · have hcount : ((edgeEntries resources opts edge).map
          (fun entry => ((traversalEnds opts.relation edge).1, entry))).count
            (v, .notice reason) = (edgeEntries resources opts edge).count (.notice reason) := by
        rw [← hv]
        exact List.count_map_of_injective _ _ (Prod.mk_right_injective _) _
      rw [hcount, count_notice_edgeEntries]
      by_cases hreason : noticeOf resources opts edge = some reason
      · simp [hv, hreason, Nat.add_comm]
      · simp [hreason]
    · rw [List.count_eq_zero_of_not_mem]
      · simp [hv]
      · intro hmem
        obtain ⟨entry, -, hentry⟩ := List.mem_map.mp hmem
        exact hv (congrArg Prod.fst hentry)

end

section Reasons

variable {g : Graph} {o : ImpactOptions} {table : ResourceTable}

theorem absent_iff (htab : Tabulates table (selected o.clusterID g.resources)) (id : String) :
    Absent g o id ↔ (table id).isNone = true := by
  have hsome : (table id).isSome ↔ id ∈ (selected o.clusterID g.resources).map Resource.ID :=
    htab.isSome_iff
  rw [← Option.not_isSome, Bool.not_eq_true', ← Bool.not_eq_true, hsome, List.mem_map]
  push Not
  rfl

variable {edge : EdgeKey}

/-- The status of an edge, read off the table. -/
theorem ownerStatus_iff (htab : Tabulates table (selected o.clusterID g.resources))
    (hfrom : (table edge.fromID).isSome) (hto : (table edge.toID).isSome)
    (status : OwnerUIDStatus) :
    OwnerStatus g o edge status ↔ edge.type = .owns ∧
      impactOwnerUIDStatus (table.get edge.fromID) (table.get edge.toID) = status := by
  refine and_congr_right fun _ => ?_
  constructor
  · rintro ⟨child, hchild, owner, howner, hchildID, hownerID, hstatus⟩
    rw [← hchildID, ← hownerID, htab.get_eq hchild, htab.get_eq howner]
    exact hstatus
  · intro hstatus
    obtain ⟨hchild, hchildID⟩ := htab.get_spec hfrom
    obtain ⟨howner, hownerID⟩ := htab.get_spec hto
    exact ⟨_, hchild, _, howner, hchildID, hownerID, hstatus⟩

/-- The types that are not walked, and why. -/
theorem impactExcludedType_eq_some_iff (type : EdgeType) (reason : ImpactNoticeReason) :
    impactExcludedType type = some reason ↔
      ((type = .bindsRole ∨ type = .bindsSubject) ∧ reason = .authorizationSeparate) ∨
      (type = .callsAtRuntime ∧ reason = .runtimeExcluded) ∨
      (type ∉ modeledTypes ∧ type ∉ [.bindsRole, .bindsSubject, .callsAtRuntime] ∧
        reason = .unmodeledRelationship) := by
  by_cases hmodeled : type ∈ modeledTypes
  · have hother : type ∉ [EdgeType.bindsRole, .bindsSubject, .callsAtRuntime] := by
      revert type
      decide
    rw [(impactExcludedType_eq_none_iff type).mpr hmodeled]
    simp only [List.mem_cons, List.not_mem_nil, or_false, not_or] at hother
    simp [hmodeled, hother]
  · have hif : impactExcludedType type = if type = .bindsRole || type = .bindsSubject then
        some .authorizationSeparate
      else if type = .callsAtRuntime then some .runtimeExcluded
      else some .unmodeledRelationship := by
      unfold impactExcludedType
      rw [if_neg (by simpa [modeledTypes, or_assoc] using hmodeled)]
    rw [hif]
    split_ifs with hbinding hruntime
    · simp only [Bool.or_eq_true, decide_eq_true_eq] at hbinding
      rw [Option.some.injEq]
      constructor
      · rintro rfl
        exact Or.inl ⟨hbinding, rfl⟩
      · rintro (⟨-, rfl⟩ | ⟨rfl, -⟩ | ⟨-, hother, -⟩)
        · rfl
        · exact absurd hbinding (by decide)
        · exact absurd (by simpa using hbinding.imp_right Or.inl) hother
    · rw [Option.some.injEq]
      constructor
      · rintro rfl
        exact Or.inr (Or.inl ⟨hruntime, rfl⟩)
      · rintro (⟨hbinding', -⟩ | ⟨-, rfl⟩ | ⟨-, hother, -⟩)
        · exact absurd (by simpa using hbinding') hbinding
        · rfl
        · exact absurd (by simp [hruntime]) hother
    · have hother : type ∉ [EdgeType.bindsRole, .bindsSubject, .callsAtRuntime] := by
        simp only [Bool.or_eq_true, decide_eq_true_eq, not_or] at hbinding
        simp [hbinding, hruntime]
      rw [Option.some.injEq]
      constructor
      · rintro rfl
        exact Or.inr (Or.inr ⟨hmodeled, hother, rfl⟩)
      · rintro (⟨hbinding', -⟩ | ⟨hruntime', -⟩ | ⟨-, -, rfl⟩)
        · exact absurd (by simpa using hbinding') hbinding
        · exact absurd hruntime' hruntime
        · rfl

/-- Both ends of an edge are loaded if both ends of its walk are. -/
theorem isSome_ends (relation : ImpactRelation)
    (hstart : (table (traversalEnds relation edge).1).isSome)
    (hfar : (table (traversalEnds relation edge).2).isSome) :
    (table edge.fromID).isSome ∧ (table edge.toID).isSome := by
  unfold traversalEnds at hstart hfar
  split_ifs at hstart hfar
  · exact ⟨hfar, hstart⟩
  · exact ⟨hstart, hfar⟩

/-- An edge of another type has the reason of its type. -/
theorem noticed_iff_of_excluded (h : edge.type ∉ modeledTypes) (reason : ImpactNoticeReason) :
    Noticed g o edge reason ↔ impactExcludedType edge.type = some reason := by
  have howns : edge.type ≠ .owns := by
    intro howns
    exact h (howns ▸ by decide)
  rw [impactExcludedType_eq_some_iff]
  constructor
  · intro hnoticed
    cases hnoticed with
    | authorization binding => exact Or.inl ⟨binding, rfl⟩
    | runtime call => exact Or.inr (Or.inl ⟨call, rfl⟩)
    | unmodeled type other => exact Or.inr (Or.inr ⟨type, other, rfl⟩)
    | crossCluster modeled | missing modeled => exact absurd modeled h
    | mismatch owner | unknown owner => exact absurd owner.1 howns
  · rintro (⟨hbinding, rfl⟩ | ⟨hcall, rfl⟩ | ⟨htype, hother, rfl⟩)
    · exact .authorization hbinding
    · exact .runtime hcall
    · exact .unmodeled htype hother

/-- An edge of a modeled type has the reason of its far end or its
owner. -/
theorem noticed_iff_of_modeled (h : edge.type ∈ modeledTypes) (reason : ImpactNoticeReason) :
    Noticed g o edge reason ↔
      (Absent g o (traversalEnds o.relation edge).2 ∧
        impactIDCluster (traversalEnds o.relation edge).2 ≠ o.clusterID ∧
        reason = .crossClusterExcluded) ∨
      (Absent g o (traversalEnds o.relation edge).2 ∧
        impactIDCluster (traversalEnds o.relation edge).2 = o.clusterID ∧
        reason = .missingResource) ∨
      (OwnerStatus g o edge .mismatch ∧ reason = .ownerUIDMismatch) ∨
      (OwnerStatus g o edge .unknown ∧ reason = .ownerUIDUnknown) := by
  have hexcluded : ∀ reason, impactExcludedType edge.type ≠ some reason := by
    intro reason
    rw [(impactExcludedType_eq_none_iff _).mpr h]
    exact (Option.some_ne_none reason).symm
  constructor
  · intro hnoticed
    cases hnoticed with
    | authorization binding =>
      exact absurd ((impactExcludedType_eq_some_iff _ _).mpr (Or.inl ⟨binding, rfl⟩))
        (hexcluded _)
    | runtime call =>
      exact absurd ((impactExcludedType_eq_some_iff _ _).mpr (Or.inr (Or.inl ⟨call, rfl⟩)))
        (hexcluded _)
    | unmodeled type => exact absurd h type
    | crossCluster _ absent cluster => exact Or.inl ⟨absent, cluster, rfl⟩
    | missing _ absent cluster => exact Or.inr (Or.inl ⟨absent, cluster, rfl⟩)
    | mismatch owner => exact Or.inr (Or.inr (Or.inl ⟨owner, rfl⟩))
    | unknown owner => exact Or.inr (Or.inr (Or.inr ⟨owner, rfl⟩))
  · rintro (⟨habsent, hcluster, rfl⟩ | ⟨habsent, hcluster, rfl⟩ | ⟨howner, rfl⟩ | ⟨howner, rfl⟩)
    · exact .crossCluster h habsent hcluster
    · exact .missing h habsent hcluster
    · exact .mismatch howner
    · exact .unknown howner

/-- A status is that of an edge whose far end is loaded. -/
theorem OwnerStatus.present {status : OwnerUIDStatus} (h : OwnerStatus g o edge status) :
    ¬ Absent g o (traversalEnds o.relation edge).2 := by
  obtain ⟨-, child, hchild, owner, howner, hchildID, hownerID, -⟩ := h
  intro habsent
  unfold traversalEnds at habsent
  split_ifs at habsent
  · exact habsent child hchild hchildID
  · exact habsent owner howner hownerID

/-- The notice of an edge is its reason, if the edge starts at a
loaded resource. -/
theorem noticed_iff (htab : Tabulates table (selected o.clusterID g.resources))
    (hstart : (table (traversalEnds o.relation edge).1).isSome) (reason : ImpactNoticeReason) :
    Noticed g o edge reason ↔ noticeOf table o edge = some reason := by
  unfold noticeOf
  by_cases hmodeled : edge.type ∈ modeledTypes
  · rw [noticed_iff_of_modeled hmodeled, (impactExcludedType_eq_none_iff _).mpr hmodeled]
    by_cases habsent : Absent g o (traversalEnds o.relation edge).2
    · have hno : ∀ status, ¬ OwnerStatus g o edge status := fun _ h => h.present habsent
      simp only [(absent_iff htab _).mp habsent, if_true]
      split_ifs with hcluster
      · simp [habsent, hno, hcluster, eq_comm]
      · simp [habsent, hno, not_not.mp hcluster, eq_comm]
    · have hfar := mt (absent_iff htab _).mpr habsent
      obtain ⟨hfrom, hto⟩ := isSome_ends o.relation hstart
        (Option.isSome_iff_ne_none.mpr (by simpa using hfar))
      simp only [habsent, hfar, false_and, false_or, ownerStatus_iff htab hfrom hto]
      by_cases howns : edge.type = .owns
      · cases impactOwnerUIDStatus (table.get edge.fromID) (table.get edge.toID) with
        | mismatch | unknown => simp [howns, eq_comm]
        | matched => simp [howns]
      · simp [howns]
  · rw [noticed_iff_of_excluded hmodeled]
    obtain ⟨excluded, htype⟩ := Option.ne_none_iff_exists'.mp
      (mt (impactExcludedType_eq_none_iff _).mp hmodeled)
    rw [htype]

/-- An edge without a notice is walked. -/
theorem walkable_of_noticeOf_eq_none (h : noticeOf table o edge = none) :
    Walkable table o edge := by
  unfold noticeOf at h
  split at h
  · cases h
  · rename_i htype
    split_ifs at h with hfar hcluster howns
    · refine ⟨(impactExcludedType_eq_none_iff _).mp htype, ?_, fun _ hmismatch => ?_⟩
      · exact Option.isSome_iff_ne_none.mpr (by simpa using hfar)
      · rw [hmismatch] at h
        cases h
    · refine ⟨(impactExcludedType_eq_none_iff _).mp htype, ?_, fun h => absurd h howns⟩
      exact Option.isSome_iff_ne_none.mpr (by simpa using hfar)

/-- An edge of the walk that is no arc has a reason. -/
theorem noticed_of_not_arc (htab : Tabulates table (selected o.clusterID g.resources))
    (hrel : o.relation = .dependents ∨ o.relation = .dependencies)
    (hstored : edge ∈ g.edges.map Edge.key)
    (hstart : (table (traversalEnds o.relation edge).1).isSome)
    (hno : ∀ v, ¬ ImpactArc g o edge (traversalEnds o.relation edge).1 v) :
    ∃ reason, Noticed g o edge reason := by
  cases hnotice : noticeOf table o edge with
  | some reason => exact ⟨reason, (noticed_iff htab hstart reason).mpr hnotice⟩
  | none =>
    have hstep := mem_scanEdges_arcs.mpr
      ⟨edge, hstored, rfl, hstart, walkable_of_noticeOf_eq_none hnotice, rfl⟩
    exact absurd (step_spec htab hrel hstep).2.2 (hno _)

end Reasons

/-! ### The totals of a walk -/

/-- What visiting a match does to the counts and totals. -/
theorem impactSearch_visit_ok {g : Graph} {o : ImpactOptions} {table : ResourceTable}
    {m m' : ImpactMatch} {step : ImpactStep} {work work' : ImpactWork}
    (h : (problem g o table).visit m step m' work = .ok work') :
    work'.totals = work.totals ∧ work'.counts = work.counts.add m' := by
  have hexplain : ∀ {w : ImpactWork}, explainStep table step work = .ok w →
      w.totals = work.totals ∧ w.counts = work.counts := by
    intro w hw
    unfold explainStep at hw
    split_ifs at hw
    · split at hw
      · cases hw
      · cases hw
        exact ⟨rfl, rfl⟩
    · cases hw
      exact ⟨rfl, rfl⟩
  simp only [problem, impactSearch] at h
  split at h
  · cases h
  · rename_i w hw
    cases h
    obtain ⟨htotals, hcounts⟩ := hexplain hw
    exact ⟨htotals, by rw [← hcounts]⟩

/-- The counts add up to the number of matches. -/
structure Counted (found : List ImpactMatch) (c : ImpactCounts) : Prop where
  total : c.total = found.length
  depths : c.direct + c.indirect = c.total
  kinds : c.workloads + c.pods + c.other = c.total

theorem Counted.add {found : List ImpactMatch} {c : ImpactCounts} (h : Counted found c)
    (m : ImpactMatch) : Counted (found ++ [m]) (c.add m) := by
  obtain ⟨htotal, hdepths, hkinds⟩ := h
  unfold ImpactCounts.add
  constructor
  · simp only [List.length_append, List.length_singleton]
    split_ifs <;> simp [htotal]
  · simp only
    split_ifs <;> simp <;> omega
  · simp only
    split_ifs <;> simp <;> omega

section Totals

variable {g : Graph} {rootID : String} {o opts : ImpactOptions} {table : ResourceTable}
  {root : Resource} {s : Search.State String ImpactMatch ImpactWork}

/-- The counts of a walk are of its matches, and the totals are the
tallies of the resources it took from its queue. -/
theorem totals_eq_sum (hP : Search.Lawful (problem g o table) { resource := impactIdentity root })
    (hs : Search.search (problem g o table) { resource := impactIdentity root } {} = .ok s) :
    Counted s.found s.extra.counts ∧ ∀ reason, s.extra.totals reason
      = (((({ resource := impactIdentity root } : ImpactMatch) :: s.found).map
        fun m => m.resource.id).map fun id =>
          (scanEdges table o g.edges).index.notices id reason).sum := by
  refine Search.search_carries (J := fun taken found (work : ImpactWork) =>
    Counted found work.counts ∧ ∀ reason, work.totals reason
      = ((taken.map fun m => m.resource.id).map fun id =>
          (scanEdges table o g.edges).index.notices id reason).sum)
    ?_ ?_ hP ⟨⟨rfl, rfl, rfl⟩, fun _ => rfl⟩ hs
  · intro m taken found work h
    refine ⟨h.1, fun reason => ?_⟩
    show work.totals reason + _ = _
    rw [h.2]
    simp
  · intro m step taken found work work' h hvisit
    obtain ⟨htotals, hcounts⟩ := impactSearch_visit_ok hvisit
    rw [htotals, hcounts]
    exact ⟨h.1.add _, h.2⟩

open scoped Classical in
/-- The totals count the edges that start at a resource of the walk,
each once. -/
theorem totals_eq_card (hprepared : Prepared g rootID opts o table root)
    (hs : Search.search (problem g o table) { resource := impactIdentity root } {} = .ok s)
    (reason : ImpactNoticeReason) :
    s.extra.totals reason = ((edgeTuples g).filter fun edge =>
      ((traversalEnds o.relation edge).1 = rootID ∨
        ∃ m ∈ s.found, m.resource.id = (traversalEnds o.relation edge).1) ∧
      Noticed g o edge reason).card := by
  have htab := hprepared.tabulates
  obtain ⟨hrel, -, -⟩ := normalizeImpactOptions_ok hprepared.options
  have hlaw := impactSearch_lawful htab hrel root
  have hfinal := Search.search_final hlaw hs
  have hscan := scanEdges_spec table o g.edges
  have hrootID : (impactIdentity root).id = rootID := by
    rw [impactIdentity_id]
    exact ((htab.lookup rootID root).mp hprepared.root_eq).2
  -- the resources of the walk, in the order in which they were taken
  let walked := ((({ resource := impactIdentity root } : ImpactMatch) :: s.found).map
    fun m => m.resource.id)
  have hnodup : walked.Nodup := by
    obtain ⟨exam, hinv, -⟩ := hfinal.inv
    exact hinv.nodup
  have hmem : ∀ id, id ∈ walked ↔ id = rootID ∨ ∃ m ∈ s.found, m.resource.id = id := by
    intro id
    show id ∈ List.map _ (_ :: s.found) ↔ _
    rw [List.map_cons, List.mem_cons, hrootID, List.mem_map]
  have hloaded : ∀ id ∈ walked, (table id).isSome := by
    intro id hid
    rw [htab.isSome_iff]
    rcases (hmem id).mp hid with rfl | ⟨m, hm, rfl⟩
    · exact htab.isSome_iff.mp (Option.isSome_of_eq_some hprepared.root_eq)
    · obtain ⟨r, hr, hidentity⟩ := match_identity htab hrel hfinal hm
      rw [hidentity, impactIdentity_id]
      exact List.mem_map_of_mem hr
  -- the tally of one resource
  have htally : ∀ id, (scanEdges table o g.edges).index.notices id reason
      = ((scanEdges table o g.edges).seenEdges.toFinset.filter fun edge =>
          (traversalEnds o.relation edge).1 = id ∧
            noticeOf table o edge = some reason).card := by
    intro id
    rw [hscan.holds.tally, count_notice_entriesOf,
      ← List.toFinset_card_of_nodup (hscan.nodup.filter _), List.toFinset_filter]
    simp only [decide_eq_true_eq]
  have hedges : ((edgeTuples g).filter fun edge =>
      ((traversalEnds o.relation edge).1 = rootID ∨
        ∃ m ∈ s.found, m.resource.id = (traversalEnds o.relation edge).1) ∧
      Noticed g o edge reason)
      = (scanEdges table o g.edges).seenEdges.toFinset.filter fun edge =>
          (traversalEnds o.relation edge).1 ∈ walked.toFinset ∧
            noticeOf table o edge = some reason := by
    ext edge
    simp only [Finset.mem_filter, edgeTuples, List.mem_toFinset, hscan.mem_seen, hmem]
    constructor
    · rintro ⟨hstored, hwalked, hnoticed⟩
      have hsome := hloaded _ ((hmem _).mpr hwalked)
      exact ⟨⟨hstored, hsome⟩, hwalked, (noticed_iff htab hsome reason).mp hnoticed⟩
    · rintro ⟨⟨hstored, hsome⟩, hwalked, hnotice⟩
      exact ⟨hstored, hwalked, (noticed_iff htab hsome reason).mpr hnotice⟩
  rw [(totals_eq_sum hlaw hs).2, ← List.sum_toFinset _ hnodup, hedges,
    Finset.card_eq_sum_card_fiberwise (t := walked.toFinset)
      (f := fun edge => (traversalEnds o.relation edge).1)]
  · refine Finset.sum_congr rfl fun id hid => ?_
    rw [htally, Finset.filter_filter]
    congr 1
    ext edge
    simp only [Finset.mem_filter]
    constructor
    · rintro ⟨hseen, rfl, hnotice⟩
      exact ⟨hseen, ⟨hid, hnotice⟩, rfl⟩
    · rintro ⟨hseen, ⟨-, hnotice⟩, rfl⟩
      exact ⟨hseen, rfl, hnotice⟩
  · intro edge hedge
    exact (Finset.mem_filter.mp hedge).2.1

end Totals

/-! ### The result -/

/-- A reason of the order is listed with its total. -/
theorem reported_listNotices {order : List ImpactNoticeReason} (hnodup : order.Nodup)
    (totals : NoticeTally) (reason : ImpactNoticeReason) :
    (((listNotices order totals).filter fun notice => notice.reason = reason).map
      ImpactNotice.count).sum = if reason ∈ order then totals reason else 0 := by
  induction order with
  | nil => rfl
  | cons first order ih =>
    obtain ⟨hfirst, hnodup⟩ := List.nodup_cons.mp hnodup
    have hrest := ih hnodup
    unfold listNotices at hrest ⊢
    by_cases hzero : totals first = 0
    · rw [List.filter_cons_of_neg (by simpa using hzero), hrest]
      by_cases hreason : reason = first
      · simp [hreason, hfirst, hzero]
      · simp [hreason]
    · rw [List.filter_cons_of_pos (by simpa using hzero), List.map_cons, List.filter_cons]
      by_cases hreason : first = reason
      · simp only [hreason, decide_true, if_true, List.map_cons, List.sum_cons, hrest]
        simp [← hreason, hfirst]
      · simp only [hreason, decide_false, Bool.false_eq_true, if_false, hrest]
        simp [Ne.symm hreason]

/-- The reasons are those of the walk; the others belong to the
authorization facet. -/
theorem Noticed.mem_order {g : Graph} {o : ImpactOptions} {edge : EdgeKey}
    {reason : ImpactNoticeReason} (h : Noticed g o edge reason) : reason ∈ impactNoticeOrder := by
  cases h <;> decide

/-- The counts and notices of every successful analysis are those of
`NoticeSpec`: every edge that the walk leaves out is counted under
one reason, and a traversal is called complete if nothing within
reach is missing. -/
theorem analyzeImpact_noticeSpec (range : RangeOrder EdgeKey) (g : Graph) (rootID : String)
    (opts : ImpactOptions) (result : ImpactResult)
    (h : analyzeImpact range (some g) rootID opts = .ok result) :
    ∃ o, normalizeImpactOptions rootID opts = .ok o ∧ NoticeSpec g rootID o result := by
  classical
  obtain ⟨o, table, root, s, authorization, hprepared, hs, -, rfl⟩ := analyzeImpact_ok h
  have htab := hprepared.tabulates
  obtain ⟨hrel, -, -⟩ := normalizeImpactOptions_ok hprepared.options
  have hfinal := Search.search_final (impactSearch_lawful htab hrel root) hs
  have hkey : (impactIdentity root).id = rootID := by
    rw [impactIdentity_id]
    exact ((htab.lookup rootID root).mp hprepared.root_eq).2
  have hcounted := (totals_eq_sum (impactSearch_lawful htab hrel root) hs).1
  have htotals := totals_eq_card hprepared hs
  refine ⟨o, hprepared.options, ?_⟩
  -- the resources of the walk are loaded
  have hloaded : ∀ id, Walked rootID (impactResult o root s authorization) id →
      (table id).isSome := by
    rintro id (rfl | ⟨m, hm, rfl⟩)
    · exact Option.isSome_of_eq_some hprepared.root_eq
    · obtain ⟨r, hr, hidentity⟩ := match_identity htab hrel hfinal hm
      rw [hidentity, impactIdentity_id, htab.isSome_iff]
      exact List.mem_map_of_mem hr
  -- a total is positive if some edge of the walk has the reason
  have hpositive : ∀ reason, s.extra.totals reason > 0 ↔ ∃ edge ∈ edgeTuples g,
      Walked rootID (impactResult o root s authorization) (traversalEnds o.relation edge).1 ∧
        Noticed g o edge reason := by
    intro reason
    rw [htotals, gt_iff_lt, Finset.card_pos]
    simp only [Finset.Nonempty, Finset.mem_filter]
    rfl
  refine
    { total := hcounted.total, depths := hcounted.depths, kinds := hcounted.kinds, notices := ?_,
      unique := ?_, excluded := ?_, complete_iff := ?_ }
  · intro reason
    show (((listNotices impactNoticeOrder s.extra.totals).filter _).map _).sum = _
    rw [reported_listNotices (by decide)]
    split_ifs with horder
    · rw [htotals reason]
      congr 1
      ext edge
      simp only [Finset.mem_filter]
      rfl
    · symm
      rw [Finset.card_eq_zero, Finset.filter_eq_empty_iff]
      exact fun _ _ hedge => horder hedge.2.mem_order
  · intro edge _ hwalked reason reason' hnoticed hnoticed'
    rw [noticed_iff htab (hloaded _ hwalked)] at hnoticed hnoticed'
    exact Option.some.inj (hnoticed.symm.trans hnoticed')
  · intro edge hedge hwalked hno
    exact noticed_of_not_arc htab hrel (List.mem_toFinset.mp hedge) (hloaded _ hwalked) hno
  · have htruncated := truncated_iff_missing htab hrel hfinal hkey
    show (!((s.depthLimited || s.resultLimited) || decide (s.extra.totals .missingResource > 0) ||
      decide (s.extra.totals .ownerUIDMismatch > 0))) = true ↔ _
    rw [Bool.not_eq_true', ← Bool.not_eq_true, Bool.or_eq_true, Bool.or_eq_true, htruncated,
      decide_eq_true_eq, decide_eq_true_eq, hpositive, hpositive]
    constructor
    · intro hnone
      refine ⟨fun v hreach => ?_, fun edge hedge hmodeled hwalked => ⟨?_, fun howner => ?_⟩⟩
      · by_contra hmissing
        exact hnone (Or.inl (Or.inl ⟨v, fun hv => hmissing (Or.inl hv), hreach,
          fun m hm hid => hmissing (Or.inr ⟨m, hm, hid⟩)⟩))
      · rintro ⟨habsent, hcluster⟩
        exact hnone (Or.inl (Or.inr ⟨edge, hedge, hwalked, .missing hmodeled habsent hcluster⟩))
      · exact hnone (Or.inr ⟨edge, hedge, hwalked, .mismatch howner⟩)
    · rintro ⟨hreached, hedges⟩
      rintro ((⟨v, hv, hreach, hmiss⟩ | ⟨edge, hedge, hwalked, hnoticed⟩) |
        ⟨edge, hedge, hwalked, hnoticed⟩)
      · rcases hreached v hreach with hroot | ⟨m, hm, hid⟩
        · exact hv hroot
        · exact hmiss m hm hid
      · cases hnoticed with
        | missing modeled absent cluster =>
          exact (hedges edge hedge modeled hwalked).1 ⟨absent, cluster⟩
      · cases hnoticed with
        | mismatch owner =>
          exact (hedges edge hedge (owner.1 ▸ by decide) hwalked).2 owner

/-- A Deployment with two ReplicaSets, a Service and an Ingress. One
ReplicaSet names an owner with another UID and the other one no UID;
the Service is not stored, and a policy enforces something on the
Deployment. -/
def leakyGraph : Graph where
  resources :=
    [{ kind := "Deployment", name := "web", ns := "d", uid := "u1" },
     { kind := "ReplicaSet", name := "a", ns := "d", uid := "u2",
       ownerReferences := [⟨"Deployment", "web", "u0"⟩] },
     { kind := "ReplicaSet", name := "b", ns := "d", uid := "u3",
       ownerReferences := [⟨"Deployment", "web", ""⟩] }]
  edges :=
    [⟨"d/ReplicaSet/a", "d/Deployment/web", .owns, []⟩,
     ⟨"d/ReplicaSet/b", "d/Deployment/web", .owns, []⟩,
     ⟨"d/ReplicaSet/b", "d/Deployment/web", .owns, []⟩,
     ⟨"d/Service/web", "d/Deployment/web", .selects, []⟩,
     ⟨"/ClusterPolicy/p", "d/Deployment/web", .enforces, []⟩]

/-- One resource is returned, four edges are noticed, and the
traversal is not complete. -/
theorem analyzeImpact_noticeSpec_leaky :
    ∃ result, analyzeImpact (.inserted _) (some leakyGraph) "d/Deployment/web" {} = .ok result ∧
      result.notices = [⟨.unmodeledRelationship, 1⟩, ⟨.missingResource, 1⟩,
        ⟨.ownerUIDMismatch, 1⟩, ⟨.ownerUIDUnknown, 1⟩] ∧
      result.modeledTraversalComplete = false ∧
      ∃ o, normalizeImpactOptions "d/Deployment/web" {} = .ok o ∧
        NoticeSpec leakyGraph "d/Deployment/web" o result := by
  have hrun : (do
      let result ← (analyzeImpact (.inserted _) (some leakyGraph) "d/Deployment/web" {}).toOption
      pure (result.notices, result.modeledTraversalComplete))
      = some ([⟨.unmodeledRelationship, 1⟩, ⟨.missingResource, 1⟩, ⟨.ownerUIDMismatch, 1⟩,
        ⟨.ownerUIDUnknown, 1⟩], false) := by
    decide +kernel
  obtain ⟨result, h, hrun⟩ := exists_ok_of_bind hrun
  obtain ⟨hnotices, hcomplete⟩ := Prod.mk.inj (Option.some.inj hrun)
  exact ⟨result, h, hnotices, hcomplete, analyzeImpact_noticeSpec _ _ _ _ _ h⟩

end KubeAtlas.Proofs.Impact
