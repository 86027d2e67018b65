import KubeAtlas.Proofs.Coverage.Continuity
import KubeAtlas.Proofs.Coverage.ValidRows
import KubeAtlas.Proofs.Impact.AuthorizationMotif

/-!
# `KubeAtlas.Proofs.Impact.NegativeConclusions`: what "none found" rests on

An observed analysis says `none_found_in_analyzed_scope` about an
empty facet if the walk was complete and the coverage of the types
it is about was without a gap, before and after the graph was read.
`noneFound_sound` says what that means for the authorization facet:
not one stored edge leaves the root along the motif, not even one
that the walk would have turned down, and every type was observed
throughout. The ordinary facet never says it.

Two facts about the walk carry the first half. What the index has
noted at the root is in the totals of the result, since the root is
entered first; and the number of matches is the total that the
assessment looks at (`totals_spec`).
-/

set_option autoImplicit false

namespace KubeAtlas.Proofs.Impact

open KubeAtlas.Graph Lib Operations
open Operations.CoverageTracker (Op)
open Analysis KubeAtlas.Proofs.Coverage

/-! ### The totals of the facet -/

section Totals

variable {g : Graph} {rootID : String} {opts o : ImpactOptions} {table : ResourceTable}
  {root : Resource} {range : RangeOrder EdgeKey} {cls : AuthorizationClass}
  {s : Search.State String ImpactAuthorizationMatch AuthorizationWork}

theorem le_bump (totals : NoticeTally) (reason r : ImpactNoticeReason) :
    totals r ≤ totals.bump reason r := by
  unfold NoticeTally.bump
  by_cases h : r = reason
  · rw [h, Function.update_self]
    exact Nat.le_succ _
  · rw [Function.update_of_ne h]

/-- Entering a resource adds its notices, and takes nothing away. -/
theorem totals_enter (resources : ResourceTable) (refs : AuthorizationRefs)
    (notices : ByID NoticeTally) (m : ImpactAuthorizationMatch) (work : AuthorizationWork)
    (r : ImpactNoticeReason) :
    work.totals r + notices m.resource.id r
      ≤ (enterAuthorization resources refs notices m work).totals r := by
  have hif : ∀ (c : Bool) (totals : NoticeTally) (reason : ImpactNoticeReason),
      totals r ≤ (if c = true then totals.bump reason else totals) r := by
    intro c totals reason
    cases c with
    | false => exact Nat.le_refl _
    | true => exact le_bump totals reason r
  exact Nat.le_trans (hif _ (addTotals work.totals (notices m.resource.id)) _) (hif _ _ _)

theorem visit_ok {m m' : ImpactAuthorizationMatch} {step : ImpactStep}
    {work work' : AuthorizationWork}
    (h : (authorizationProblem range cls g o table).visit m step m' work = .ok work') :
    work'.totals = work.totals ∧ work'.counts = work.counts.add m' := by
  simp only [authorizationProblem, authorizationSearch] at h
  split at h
  · cases h
  · cases h
    exact ⟨rfl, rfl⟩

theorem total_add (c : ImpactAuthorizationCounts) (m : ImpactAuthorizationMatch) :
    (c.add m).total = c.total + 1 := by
  unfold ImpactAuthorizationCounts.add
  simp only
  split_ifs <;> rfl

/-- The notices of the root are in the totals, and the total counts
the matches. -/
theorem totals_spec (hprepared : Prepared g rootID opts o table root)
    (hs : Search.search (authorizationProblem range cls g o table)
      { resource := impactIdentity root } {} = .ok s) :
    (∀ r, (indexAuthorizationEdges range cls table o.clusterID
        (collectAuthorizationEdges table g.edges)).notices root.ID r ≤ s.extra.totals r) ∧
      s.extra.counts.total = s.found.length := by
  have hcarried := Search.search_carries (P := authorizationProblem range cls g o table)
    (J := fun taken found (work : AuthorizationWork) =>
      (∀ m ∈ taken, ∀ r, (indexAuthorizationEdges range cls table o.clusterID
        (collectAuthorizationEdges table g.edges)).notices m.resource.id r ≤ work.totals r) ∧
      work.counts.total = found.length)
    (fun m taken _ work h => ⟨List.forall_mem_append.mpr
      ⟨fun p hp r =>
          (h.1 p hp r).trans ((Nat.le_add_right _ _).trans (totals_enter _ _ _ m work r)),
        List.forall_mem_singleton.mpr fun r =>
          (Nat.le_add_left _ _).trans (totals_enter _ _ _ m work r)⟩, h.2⟩)
    (fun m step taken found work work' h hvisit => by
      obtain ⟨htotals, hcounts⟩ := visit_ok hvisit
      rw [htotals, hcounts, total_add, h.2, List.length_append]
      exact ⟨h.1, rfl⟩)
    hprepared.authorizationSearch_lawful ⟨nofun, rfl⟩ hs
  exact ⟨fun r => impactIdentity_id root ▸ hcarried.1 _ List.mem_cons_self r, hcarried.2⟩

end Totals

/-! ### Edges at the root -/

/-- The edge is one that the motif of a root of class `cls` starts
with. Its other end may be missing, of another class or in another
cluster. -/
def FirstStep (cls : AuthorizationClass) (rootID : String) (e : Edge) : Prop :=
  match cls with
  | .role => e.type = .bindsRole ∧ e.toID = rootID
  | .binding => (e.type = .bindsRole ∨ e.type = .bindsSubject) ∧ e.fromID = rootID
  | .account => (e.type = .bindsSubject ∨ e.type = .usesServiceAccount) ∧ e.toID = rootID
  | .workload => e.type = .usesServiceAccount ∧ e.fromID = rootID

variable {rootID : String} {cls : AuthorizationClass}

/-- The traversal looks at such an edge when it is at the root. -/
theorem FirstStep.transition {e : Edge} (h : FirstStep cls rootID e) :
    isAuthorizationEdge e.type = true ∧
      ∃ reverse, (authorizationEnds e.key reverse).1 = rootID ∧
        impactAuthorizationTransition cls (some cls) e.type reverse = true := by
  cases cls with
  | role =>
    obtain ⟨htype, hto⟩ := h
    exact ⟨by rw [htype]; rfl, true, hto, by rw [htype]; rfl⟩
  | binding =>
    obtain ⟨htype, hfrom⟩ := h
    rcases htype with htype | htype
    · exact ⟨by rw [htype]; rfl, false, hfrom, by rw [htype]; rfl⟩
    · exact ⟨by rw [htype]; rfl, false, hfrom, by rw [htype]; rfl⟩
  | account =>
    obtain ⟨htype, hto⟩ := h
    rcases htype with htype | htype
    · exact ⟨by rw [htype]; rfl, true, hto, by rw [htype]; rfl⟩
    · exact ⟨by rw [htype]; rfl, true, hto, by rw [htype]; rfl⟩
  | workload =>
    obtain ⟨htype, hfrom⟩ := h
    exact ⟨by rw [htype]; rfl, false, hfrom, by rw [htype]; rfl⟩

/-- Every reason against an edge has its place in the notices. -/
theorem edgeReason_mem_order {edge : EdgeKey} {resources : ResourceTable} {cluster : String}
    {refs : AuthorizationRefs} {reason : ImpactNoticeReason}
    (h : impactAuthorizationEdgeReason edge resources cluster refs = some reason) :
    reason ∈ impactAuthorizationNoticeOrder := by
  unfold impactAuthorizationEdgeReason at h
  split_ifs at h <;> cases h <;> decide

/-- A facet with no match and no notice, and without a cut-off, has
no edge to start with: an edge that is followed leads to a match,
and one that is not leaves a notice. -/
theorem no_firstStep {range : RangeOrder EdgeKey} {g : Graph} {opts o : ImpactOptions}
    {table : ResourceTable} {root : Resource} {result : ImpactAuthorizationResult}
    (hprepared : Prepared g rootID opts o table root)
    (hclass : impactAuthorizationClass root = some cls)
    (hrun : analyzeImpactAuthorization range g.edges table root o = .ok result)
    (hempty : result.resources = []) (hnotices : result.notices = [])
    (htruncated : result.truncated = false) :
    ∀ e ∈ g.edges, ¬ FirstStep cls rootID e := by
  intro e he hfirst
  have hspec := motifSpec_of_run hprepared hclass hrun
  obtain ⟨s, hs, rfl⟩ := analyzeImpactAuthorization_ok hclass hrun
  obtain ⟨hrootmem, hrootID⟩ := (hprepared.tabulates.lookup _ _).mp hprepared.root_eq
  obtain ⟨htype, reverse, hend, hmotif⟩ := hfirst.transition
  -- the root is loaded, so the edge was collected
  have hend' : e.key.fromID = rootID ∨ e.key.toID = rootID := by
    cases reverse with
    | false => exact Or.inl hend
    | true => exact Or.inr hend
  have hmem : e.key ∈ (collectAuthorizationEdges table g.edges).unique := by
    rw [(collectAuthorizationEdges_spec table g.edges).mem_unique]
    refine ⟨List.mem_map_of_mem he, htype, ?_⟩
    rcases hend' with hfrom | hto
    · left
      rw [hfrom, hprepared.root_eq]
      rfl
    · right
      rw [hto, hprepared.root_eq]
      rfl
  have hmotif' : impactAuthorizationTransition cls
      (impactAuthorizationClass (table.get (authorizationEnds e.key reverse).1)) e.key.type
      reverse = true := by
    rw [hend, get_of_eq_some hprepared.root_eq, hclass]
    exact hmotif
  have hindex := indexAuthorizationEdges_holds cls table o.clusterID
    (collectAuthorizationEdges table g.edges) range
  cases hreason : impactAuthorizationEdgeReason e.key table o.clusterID
      (collectAuthorizationEdges table g.edges) with
  | some reason =>
    have hentry : (root.ID, IndexEntry.notice reason) ∈
        (collectAuthorizationEdges table g.edges).unique.flatMap
          (authorizationEntriesOf cls table o.clusterID
            (collectAuthorizationEdges table g.edges)) := by
      refine List.mem_flatMap.mpr ⟨e.key, hmem, ?_⟩
      refine (mem_authorizationEntriesOf cls table o.clusterID _).mpr
        ⟨reverse, hend.trans hrootID.symm, ?_⟩
      unfold authorizationEntries
      simp only [hmotif', Bool.not_true, Bool.false_eq_true, if_false, hreason]
      exact List.mem_singleton_self _
    have hpos := List.count_pos_iff.mpr hentry
    rw [← hindex.tally] at hpos
    have htotal : s.extra.totals reason ≠ 0 := by
      have := (totals_spec hprepared hs).1 reason
      omega
    have hlisted : (⟨reason, s.extra.totals reason⟩ : ImpactNotice) ∈
        listNotices impactAuthorizationNoticeOrder s.extra.totals :=
      List.mem_map_of_mem (List.mem_filter.mpr
        ⟨edgeReason_mem_order hreason, decide_eq_true htotal⟩)
    rw [show listNotices impactAuthorizationNoticeOrder s.extra.totals = [] from hnotices]
      at hlisted
    exact absurd hlisted List.not_mem_nil
  | none =>
    obtain ⟨source, target, hsource, htarget, hassoc⟩ :=
      (hprepared.edgeReason_eq_none_iff hmem).mp hreason
    have hstep : ∃ r, MotifStep g o.clusterID cls root r := by
      cases reverse with
      | false =>
        obtain rfl : source = root := by
          have hfrom : e.key.fromID = rootID := hend
          rw [hfrom, hprepared.root_eq] at hsource
          exact (Option.some.inj hsource).symm
        exact ⟨target, .forward (by rw [hclass]; exact hmotif) hassoc⟩
      | true =>
        obtain rfl : target = root := by
          have hto : e.key.toID = rootID := hend
          rw [hto, hprepared.root_eq] at htarget
          exact (Option.some.inj htarget).symm
        exact ⟨source, .backward (by rw [hclass]; exact hmotif) hassoc⟩
    obtain ⟨r, hstep⟩ := hstep
    have hmissing := hspec.truncated_iff.mpr ⟨1, r, .first hclass hstep, by
      rw [hempty]
      exact fun m hm => absurd hm List.not_mem_nil⟩
    rw [htruncated] at hmissing
    exact Bool.false_ne_true hmissing

/-! ### The assessment -/

/-- An empty facet is only assessed as such under four conditions. -/
theorem impactEmptyAssessment_noneFound {count : Nat} {complete : Bool}
    {coverage : ImpactCoverageFacet}
    (h : impactEmptyAssessment count complete coverage = "none_found_in_analyzed_scope") :
    count = 0 ∧ complete = true ∧ coverage.typeScopeClosed = true ∧
      coverage.stableWindow = true ∧ coverage.state = .observed := by
  unfold impactEmptyAssessment at h
  split_ifs at h with hcount hall
  · exact absurd h (by decide)
  · simp only [Bool.and_eq_true, decide_eq_true_eq] at hall
    exact ⟨by simpa using hcount, hall.1.1.1, hall.1.1.2, hall.1.2, hall.2⟩
  · exact absurd h (by decide)

/-- The ordinary facet does not close its types, so it is never
assessed that way. -/
theorem ordinaryObservation_ne (result : ImpactResult) (before after : CoverageSnapshot)
    (available : Bool) :
    (ordinaryObservation result before after available).emptyResultAssessment
      ≠ "none_found_in_analyzed_scope" := by
  intro h
  unfold ordinaryObservation at h
  extract_lets coverage out₁ out₂ out₃ out₄ assessment at h
  obtain ⟨-, -, hclosed, -⟩ := impactEmptyAssessment_noneFound h
  have h₃ : out₃.typeScopeClosed = false := by
    show (if (_ && _) = true then out₂.addReason _ else out₂).typeScopeClosed = false
    split <;> rfl
  have h₄ : out₄.typeScopeClosed = false := by
    show (if out₃.state = .observed then { out₃ with state := .partially }
      else out₃).typeScopeClosed = false
    split <;> exact h₃
  rw [h₄] at hclosed
  exact Bool.false_ne_true hclosed

variable {before after : CoverageSnapshot}

/-- What the authorization facet needs for it. -/
theorem authorizationObservation_noneFound {result : ImpactResult} {available : Bool}
    (h : (authorizationObservation result before after available).emptyResultAssessment =
      "none_found_in_analyzed_scope") :
    result.authorization.applicable = true ∧ result.authorization.counts.total = 0 ∧
      result.authorization.modeledTraversalComplete = true ∧
      (evaluateRequired before after true available).stableWindow = true ∧
      (evaluateRequired before after true available).state = .observed := by
  unfold authorizationObservation at h
  extract_lets coverage out rejected known doubted opened out' assessment at h
  split at h
  · -- the assessment of a facet that does not apply is another one
    exact absurd h (show "not_applicable" ≠ "none_found_in_analyzed_scope" by decide)
  · rename_i happlicable
    obtain ⟨hcount, hcomplete, hclosed, hstable, hstate⟩ := impactEmptyAssessment_noneFound h
    -- with an unknown schema the scope is not closed
    have hout : out' = out := by
      by_cases hknown : known = true
      · exact if_pos hknown
      · exfalso
        have hopen : out'.typeScopeClosed = false := by
          show (if known = true then out else _).typeScopeClosed = false
          rw [if_neg hknown]
          split <;> rfl
        rw [hopen] at hclosed
        exact Bool.false_ne_true hclosed
    rw [hout] at hstable hstate
    exact ⟨by simpa using happlicable, hcount, hcomplete, hstable, hstate⟩

/-! ### The coverage behind it -/

theorem coverageOrder_worse (a b : CoverageState) :
    coverageOrder (worseImpactCoverage a b) = max (coverageOrder a) (coverageOrder b) := by
  unfold worseImpactCoverage
  split
  · omega
  · omega

theorem eq_observed_of_order {state : CoverageState} (h : coverageOrder state = 0) :
    state = .observed := by
  cases state with
  | observed => rfl
  | unknown | initializing | partially | stale | other => simp [coverageOrder] at h

/-- The state of several rows is at least as bad as that of each. -/
theorem le_foldl_worse (rows : List ResourceCoverage) (init : CoverageState) :
    coverageOrder init ≤ coverageOrder
        (rows.foldl (fun state row => worseImpactCoverage state row.state) init) ∧
      ∀ row ∈ rows, coverageOrder row.state ≤ coverageOrder
        (rows.foldl (fun state row => worseImpactCoverage state row.state) init) := by
  induction rows generalizing init with
  | nil => exact ⟨Int.le_refl _, fun row hrow => absurd hrow List.not_mem_nil⟩
  | cons first rows ih =>
    obtain ⟨hinit, hrows⟩ := ih (worseImpactCoverage init first.state)
    rw [coverageOrder_worse] at hinit
    refine ⟨by rw [List.foldl_cons]; omega, fun row hrow => ?_⟩
    rw [List.foldl_cons]
    cases List.mem_cons.mp hrow with
    | inl hfirst =>
      rw [hfirst]
      omega
    | inr hrest => exact hrows row hrest

/-- The state of the required types is at least as bad as that of
each, and never better than observed. -/
theorem le_subsetImpactCoverage (snapshot : CoverageSnapshot)
    (required : List GroupVersionResource) :
    0 ≤ coverageOrder (subsetImpactCoverage snapshot required).state ∧
      ∀ gvr ∈ required, coverageOrder (requiredCoverage snapshot gvr).state
        ≤ coverageOrder (subsetImpactCoverage snapshot required).state := by
  obtain ⟨hinit, hrows⟩ := le_foldl_worse (required.map (requiredCoverage snapshot)) .observed
  have hstate : coverageOrder ((required.map (requiredCoverage snapshot)).foldl
      (fun state row => worseImpactCoverage state row.state) .observed)
        ≤ coverageOrder (subsetImpactCoverage snapshot required).state := by
    unfold subsetImpactCoverage
    dsimp only
    split
    · -- some types are unknown, and the whole is called partial
      rename_i hsome
      rw [of_decide_eq_true ((Bool.and_eq_true _ _).mp hsome).1]
      decide
    · exact Int.le_refl _
  exact ⟨Int.le_trans hinit hstate, fun gvr hgvr =>
    Int.le_trans (hrows _ (List.mem_map_of_mem hgvr)) hstate⟩

/-- A facet is only observed if both sides of it are. -/
theorem observed_evaluateRequired {authorization available : Bool}
    (h : (evaluateRequired before after authorization available).state = .observed) :
    (subsetImpactCoverage before (impactCoverageRequirements authorization)).state = .observed := by
  obtain ⟨hbefore, -⟩ := le_subsetImpactCoverage before (impactCoverageRequirements authorization)
  unfold evaluateRequired at h
  extract_lets required out verified out₁ stable out₂ out₃ out₄ out₅ at h
  have hfacets : out₃.before = subsetImpactCoverage before required ∧
      out₃.after = subsetImpactCoverage after required := by
    have h₁ : out₁.before = subsetImpactCoverage before required ∧
        out₁.after = subsetImpactCoverage after required := by
      show (if verified = true then out else out.addReason _).before = _ ∧
        (if verified = true then out else out.addReason _).after = _
      split <;> exact ⟨rfl, rfl⟩
    show (if stable = true then out₂ else out₂.addReason _).before = _ ∧
      (if stable = true then out₂ else out₂.addReason _).after = _
    split <;> exact h₁
  have hstate : out₅.state = worseImpactCoverage out₃.before.state out₃.after.state := by
    show (if (_ || _) = true then out₄.addReason _ else out₄).state = _
    split <;> rfl
  have hobserved : out₅.state = .observed := by
    split at h
    · cases h
    · split at h
      · cases h
      · exact h
  have horder := coverageOrder_worse out₃.before.state out₃.after.state
  rw [← hstate, hobserved, hfacets.1] at horder
  refine eq_observed_of_order ?_
  have hzero : coverageOrder .observed = 0 := rfl
  change 0 ≤ coverageOrder (subsetImpactCoverage before required).state at hbefore
  show coverageOrder (subsetImpactCoverage before required).state = 0
  omega

/-- An observed row: its type was listed and watched, and nothing
was lost since. -/
structure Initialized (row : ResourceCoverage) : Prop where
  state : row.state = .observed
  delivered : row.initialDeliveryDone = true
  watching : row.watchEstablished = true
  reasons : row.reasons = []
  gaps : row.watchGapSince = 0 ∧ row.processingGapSince = 0 ∧ row.extractionGapSince = 0 ∧
    row.persistenceGapSince = 0

/-- A row of a tracker is in one of the known states, and an
observed one is initialized. -/
theorem initialized_of_tracked {ext : Externals} {staleAfter : Duration} {ops : List Op}
    {range : MapOrder} {cluster : String} {required : List GroupVersionResource} {now : Time}
    {snap : CoverageSnapshot}
    (hsnap : (CoverageTracker.run ext staleAfter ops).snapshot range cluster required now
      = .ok snap)
    {row : ResourceCoverage} (hrow : row ∈ snap.resources) (horder : coverageOrder row.state ≤ 0) :
    Initialized row := by
  obtain ⟨gvr, -, ⟨r, hr, rfl⟩ | ⟨-, rfl⟩⟩ := mem_snapshot_resources hsnap hrow
  · have hknown := knownCoverageState_snapshot r now
      (CoverageTracker.run ext staleAfter ops).staleAfter
    have hobserved : r.snapshotState now (CoverageTracker.run ext staleAfter ops).staleAfter
        = .observed := by
      change coverageOrder (r.snapshotState now _) ≤ 0 at horder
      revert hknown horder
      cases r.snapshotState now (CoverageTracker.run ext staleAfter ops).staleAfter with
      | observed => exact fun _ _ => rfl
      | unknown | initializing | partially | stale =>
          exact fun _ horder => absurd horder (by decide)
      | other text => exact fun hknown => absurd hknown Bool.false_ne_true
    obtain ⟨hdone, -, -, hwatch, hgaps⟩ := fields_of_observed hobserved
    have htrace := trace_run ext staleAfter ⟨cluster, .core, gvr⟩ ops
    rw [hr] at htrace
    have hgap := (rowShape_of_trace htrace).connected hwatch
    obtain ⟨hprocessing, hextraction, hpersistence⟩ : r.processingGapSince = 0 ∧
        r.extractionGapSince = 0 ∧ r.persistenceGapSince = 0 := by
      unfold gapFields at hgaps
      simpa using hgaps
    exact ⟨hobserved, hdone, hwatch, snapshotReasons_of_observed hobserved, hgap, hprocessing,
      hextraction, hpersistence⟩
  · exact absurd horder (show ¬ (1 : Int) ≤ 0 by decide)

/-! ### Soundness -/

/-- A finished facet is complete only without a cut-off and without
a notice. -/
theorem complete_authorizationResult {o : ImpactOptions}
    {s : Search.State String ImpactAuthorizationMatch AuthorizationWork}
    (h : (authorizationResult o s).modeledTraversalComplete = true) :
    (authorizationResult o s).truncated = false ∧ (authorizationResult o s).notices = [] := by
  change (!((s.depthLimited || s.resultLimited) ||
    decide ((listNotices impactAuthorizationNoticeOrder s.extra.totals).length > 0))) = true at h
  rw [Bool.not_eq_true', Bool.or_eq_false_iff, decide_eq_false_iff_not, gt_iff_lt,
    Nat.not_lt, Nat.le_zero, List.length_eq_zero_iff] at h
  exact h

/-- The assessment "none found" is sound for the authorization
facet, and never given to the ordinary one. The two snapshots are
those of one tracker, at two points of a run. -/
theorem noneFound_sound (range : RangeOrder EdgeKey) (g : Graph) (rootID : String)
    (opts : ImpactOptions) (result : ImpactResult)
    (hrun : analyzeImpact range (some g) rootID opts = .ok result)
    (ext : Externals) (staleAfter : Duration) (ops between : List Op) (order order' : MapOrder)
    (now now' : Time) (before after : CoverageSnapshot)
    (hbefore : (CoverageTracker.run ext staleAfter ops).snapshot order opts.clusterID
      (impactCoverageRequirements false) now = .ok before)
    (hafter : (CoverageTracker.run ext staleAfter (ops ++ between)).snapshot order' opts.clusterID
      (impactCoverageRequirements false) now' = .ok after)
    (available : Bool) :
    ((attachImpactObservation result before after available).2.authorization.emptyResultAssessment
        = "none_found_in_analyzed_scope" →
      (result.authorization.applicable = true ∧ result.authorization.resources = [] ∧
        result.authorization.notices = [] ∧ result.authorization.truncated = false) ∧
      (∃ root ∈ selected opts.clusterID g.resources, root.ID = rootID ∧
        ∃ cls, impactAuthorizationClass root = some cls ∧
          ∀ e ∈ g.edges, ¬ FirstStep cls rootID e) ∧
      before.generation ≠ 0 ∧ after.generation = before.generation ∧
      ∀ gvr ∈ impactCoverageRequirements true, ∃ row,
        requiredCoverage before gvr = row ∧ requiredCoverage after gvr = row ∧
        row ∈ before.resources ∧ row ∈ after.resources ∧ row.gvr = gvr ∧
        row.continuityRevision ≠ 0 ∧ Initialized row ∧
        ((ops ++ between).length < 2 ^ 64 →
          Quiet ext staleAfter ops between ⟨opts.clusterID, .core, gvr⟩)) ∧
    (attachImpactObservation result before after available).2.ordinary.emptyResultAssessment
      ≠ "none_found_in_analyzed_scope" := by
  refine ⟨fun h => ?_, ordinaryObservation_ne result before after available⟩
  obtain ⟨happlicable, htotal, hcomplete, hstable, hobserved⟩ :=
    authorizationObservation_noneFound h
  obtain ⟨o, table, root, s, authorization, hprepared, -, hauthorization, rfl⟩ :=
    analyzeImpact_ok hrun
  change authorization.applicable = true at happlicable
  change authorization.counts.total = 0 at htotal
  change authorization.modeledTraversalComplete = true at hcomplete
  have hcluster : o.clusterID = opts.clusterID := normalizeImpactOptions_clusterID hprepared.options
  obtain ⟨hrootmem, hrootID⟩ := (hprepared.tabulates.lookup _ _).mp hprepared.root_eq
  obtain ⟨cls, hclass⟩ : ∃ cls, impactAuthorizationClass root = some cls := by
    rw [← Option.ne_none_iff_exists']
    intro hnone
    unfold analyzeImpactAuthorization at hauthorization
    rw [hnone] at hauthorization
    cases hauthorization
    exact Bool.false_ne_true happlicable
  -- the walk: nothing was found, noted or cut off
  obtain ⟨s', hs', rfl⟩ := analyzeImpactAuthorization_ok hclass hauthorization
  obtain ⟨htruncated, hnotices⟩ := complete_authorizationResult hcomplete
  have hempty : (authorizationResult o s').resources = [] := by
    show s'.found = []
    rw [← List.length_eq_zero_iff, ← (totals_spec hprepared hs').2]
    exact htotal
  -- the window: both snapshots have the same observed rows
  obtain ⟨hgen, hgen', hrows⟩ := stable_evaluateRequired hstable
  have hstate := observed_evaluateRequired hobserved
  refine ⟨⟨happlicable, hempty, hnotices, htruncated⟩,
    ⟨root, hcluster ▸ hrootmem, hrootID, cls, hclass,
      no_firstStep hprepared hclass hauthorization hempty hnotices htruncated⟩,
    hgen, hgen'.symm, fun gvr hgvr => ?_⟩
  obtain ⟨hrev, hsame⟩ := hrows gvr hgvr
  obtain ⟨hmem, hgvr'⟩ := mem_of_requiredCoverage hrev
  obtain ⟨hmem', -⟩ := mem_of_requiredCoverage (hsame ▸ hrev)
  rw [← hsame] at hmem'
  refine ⟨requiredCoverage before gvr, rfl, hsame.symm, hmem, hmem', hgvr', hrev,
    initialized_of_tracked hbefore hmem ?_, fun hlen => ?_⟩
  · have horder := (le_subsetImpactCoverage before (impactCoverageRequirements true)).2 gvr hgvr
    rw [hstate] at horder
    exact horder
  · obtain ⟨r, hr, -, hignored⟩ :=
      quiet_of_row hlen hbefore hafter hgen hgen'.symm hmem hmem' (Or.inr hrev)
    rw [hgvr'] at hr hignored
    exact fun e he => ⟨r, hr, hignored e he⟩

/-- The tracker has observed every type that the authorization facet
is about. -/
def observedRun : List Op :=
  .begin "c" (impactCoverageRequirements true) 1 ::
    (impactCoverageRequirements true).flatMap fun gvr =>
      [.initialDeliveryComplete 0 gvr, .watchStarted 0 gvr, .listResult 0 gvr true false 2]

/-- A role that nothing is bound to. -/
def loneRole : Graph where
  resources := [{ kind := "Role", name := "reader", ns := "d", clusterID := "c"
                  groupVersion := "rbac.authorization.k8s.io/v1" }]
  edges := [⟨"c:d/RoleBinding/first", "c:d/Role/writer", .bindsRole, []⟩]

/-- For the lone role in an observed cluster, the analysis does say
"none found". -/
theorem noneFound_sound_loneRole :
    ∃ result before after,
      analyzeImpact (.inserted _) (some loneRole) "c:d/Role/reader" { clusterID := "c" }
        = .ok result ∧
      (CoverageTracker.run plainExternals 0 observedRun).snapshot RangeOrder.inserted "c"
        (impactCoverageRequirements false) 9 = .ok before ∧
      (CoverageTracker.run plainExternals 0 (observedRun ++ [])).snapshot RangeOrder.inserted "c"
        (impactCoverageRequirements false) 10 = .ok after ∧
      (attachImpactObservation result before after true).2.authorization.emptyResultAssessment
        = "none_found_in_analyzed_scope" ∧
      ∀ e ∈ loneRole.edges, ¬ FirstStep .role "c:d/Role/reader" e := by
  have hrun : (do
      let result ← (analyzeImpact (.inserted _) (some loneRole) "c:d/Role/reader"
        { clusterID := "c" }).toOption
      let before ← ((CoverageTracker.run plainExternals 0 observedRun).snapshot
        RangeOrder.inserted "c" (impactCoverageRequirements false) 9).toOption
      let after ← ((CoverageTracker.run plainExternals 0 (observedRun ++ [])).snapshot
        RangeOrder.inserted "c" (impactCoverageRequirements false) 10).toOption
      pure (attachImpactObservation result before after true).2.authorization.emptyResultAssessment)
      = some "none_found_in_analyzed_scope" := by
    decide +kernel
  obtain ⟨result, hresult, hrun⟩ := exists_ok_of_bind hrun
  obtain ⟨before, hbefore, hrun⟩ := exists_ok_of_bind hrun
  obtain ⟨after, hafter, hrun⟩ := exists_ok_of_bind hrun
  have hassessment := Option.some.inj hrun
  obtain ⟨hsound, -⟩ := noneFound_sound (.inserted _) loneRole "c:d/Role/reader"
    { clusterID := "c" } result hresult plainExternals 0 observedRun [] RangeOrder.inserted
    RangeOrder.inserted 9 10 before after hbefore hafter true
  obtain ⟨-, ⟨root, hroot, -, cls, hclass, hfirst⟩, -⟩ := hsound hassessment
  have hrole : cls = .role := by
    rw [List.mem_singleton.mp (show root ∈ [_] from hroot)] at hclass
    exact (Option.some.inj hclass).symm
  exact ⟨result, before, after, hresult, hbefore, hafter, hassessment, hrole ▸ hfirst⟩

end KubeAtlas.Proofs.Impact
