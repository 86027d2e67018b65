import KubeAtlas.Analysis.Observation
import KubeAtlas.Proofs.Coverage.Generations
import KubeAtlas.Proofs.Coverage.Isolation

/-!
# `KubeAtlas.Proofs.Coverage.Continuity`: a window in which nothing happened

The analysis takes one snapshot before it reads the graph and one
after. If a row is the same in both and so is the generation, then
every event of its type in between was ignored (`ignored_between`):
the generation says that the session is the same one, and the
revision that the row is. A stable window says this of every type it
requires, and for the ordinary profile also of every type of the two
sources.
-/

set_option autoImplicit false

namespace KubeAtlas.Proofs.Coverage

open Lib Lib.EventLog Operations
open Operations.CoverageTracker (Op)
open Analysis

section Window

variable {ext : Externals} {staleAfter : Duration} {ops between : List Op} {κ : TypeKey}

/-! ### Rows that are seen twice -/

/-- The events between the two snapshots are a trace from one row to
the other. -/
theorem trace_between (ext : Externals) (staleAfter : Duration) (ops between : List Op)
    (κ : TypeKey) :
    RowTrace κ.gvr (rowAt (.run ext staleAfter ops) κ)
      (history ext κ (.run ext staleAfter ops) between)
      (rowAt (.run ext staleAfter (ops ++ between)) κ) := by
  rw [run_append]
  exact (follows ext κ).trace_run (wellFormed_run ext staleAfter ops) between

/-- A row that has one revision in two snapshots of one session
ignored every event in between. -/
theorem ignored_between (hlen : (ops ++ between).length < 2 ^ 64) {g : UInt64}
    (hg : genAt (.run ext staleAfter ops) κ.cluster κ.source = some g)
    (hg' : genAt (.run ext staleAfter (ops ++ between)) κ.cluster κ.source = some g)
    {r r' : CoverageResource} (hr : rowAt (.run ext staleAfter ops) κ = some r)
    (hr' : rowAt (.run ext staleAfter (ops ++ between)) κ = some r')
    (hrev : r'.continuityRevision = r.continuityRevision) :
    ∀ e ∈ history ext κ (.run ext staleAfter ops) between, Ignored r e := by
  have htrace := trace_between ext staleAfter ops between κ
  rw [hr, hr'] at htrace
  have hrun := trace_run ext staleAfter κ ops
  rw [hr] at hrun
  have hops := length_history_le ext κ (.new staleAfter) ops
  have hbetween := length_history_le ext κ (.run ext staleAfter ops) between
  have hbound : r.continuityRevision.toNat
      + (history ext κ (.run ext staleAfter ops) between).length < 2 ^ 64 := by
    rw [List.length_append] at hlen
    have hfew := (revision_bounds hrun (by omega) r rfl).2
    omega
  obtain ⟨r₁, hr₁, -, -, hsame⟩ :=
    revision_of_trace htrace (same_session hlen hg hg' κ.gvr) hbound
  cases hr₁
  exact (hsame hrev).2

/-- Nothing happened to a type between two snapshots: each event
found a row that ignored it. -/
def Quiet (ext : Externals) (staleAfter : Duration) (ops between : List Op) (κ : TypeKey) : Prop :=
  ∀ e ∈ history ext κ (.run ext staleAfter ops) between,
    ∃ r, rowAt (.run ext staleAfter ops) κ = some r ∧ Ignored r e

/-! ### Generations of snapshots -/

/-- The generation of a snapshot is that of the current session. -/
theorem generation_snapshot {t : CoverageTracker} {range : MapOrder} {cluster : String}
    {required : List GroupVersionResource} {now : Time} {snap : CoverageSnapshot}
    (hsnap : t.snapshot range cluster required now = .ok snap) (hgen : snap.generation ≠ 0) :
    genAt t cluster .core = some snap.generation := by
  unfold CoverageTracker.snapshot at hsnap
  split_ifs at hsnap
  cases hsnap
  have hcur : current t cluster .core = (t.clusters.lookup cluster).bind fun ref =>
      t.sessions[ref]? := rfl
  simp only [← hcur] at hgen ⊢
  unfold genAt
  cases hs : current t cluster .core with
  | none =>
    rw [hs] at hgen
    exact absurd rfl hgen
  | some s => rfl

variable {range range' : MapOrder} {cluster : String}
  {required required' : List GroupVersionResource} {now now' : Time}
  {snap snap' : CoverageSnapshot}

/-- A tracked row of a required type that is in both snapshots has
been quiet. -/
theorem quiet_of_row (hlen : (ops ++ between).length < 2 ^ 64)
    (hsnap : (CoverageTracker.run ext staleAfter ops).snapshot range cluster required now
      = .ok snap)
    (hsnap' : (CoverageTracker.run ext staleAfter (ops ++ between)).snapshot range' cluster
      required' now' = .ok snap')
    (hgen : snap.generation ≠ 0) (hgen' : snap'.generation = snap.generation)
    {row : ResourceCoverage} (hrow : row ∈ snap.resources) (hrow' : row ∈ snap'.resources)
    (htracked : row.state ≠ .unknown ∨ row.continuityRevision ≠ 0) :
    ∃ r, rowAt (.run ext staleAfter ops) ⟨cluster, .core, row.gvr⟩ = some r ∧
      row = r.snapshot now (CoverageTracker.run ext staleAfter ops).staleAfter ∧
      ∀ e ∈ history ext ⟨cluster, .core, row.gvr⟩ (.run ext staleAfter ops) between,
        Ignored r e := by
  have huntracked : ∀ gvr : GroupVersionResource,
      row ≠ { group := gvr.group, version := gvr.version, resource := gvr.resource
              state := .unknown, reasons := [.notWatched] } := by
    rintro gvr rfl
    simp at htracked
  obtain ⟨gvr, -, ⟨r, hr, hrowr⟩ | ⟨-, hnone⟩⟩ := mem_snapshot_resources hsnap hrow
  · obtain ⟨gvr', -, ⟨r', hr', hrowr'⟩ | ⟨-, hnone⟩⟩ := mem_snapshot_resources hsnap' hrow'
    · -- the two rows are about the type of the row that was seen
      have hgvr : row.gvr = gvr := by
        rw [hrowr]
        exact gvr_of_rowAt hr
      have hgvr' : row.gvr = gvr' := by
        rw [hrowr']
        exact gvr_of_rowAt hr'
      rw [← hgvr] at hr
      rw [← hgvr'] at hr'
      have hrev : r'.continuityRevision = r.continuityRevision := by
        have hsame :
            (r'.snapshot now' _).continuityRevision = (r.snapshot now _).continuityRevision :=
          congrArg ResourceCoverage.continuityRevision (hrowr'.symm.trans hrowr)
        exact hsame
      have hg := generation_snapshot hsnap hgen
      have hg' := generation_snapshot hsnap' (by rw [hgen']; exact hgen)
      rw [hgen'] at hg'
      exact ⟨r, hr, hrowr, ignored_between hlen hg hg' hr hr' hrev⟩
    · exact absurd hnone (huntracked gvr')
  · exact absurd hnone (huntracked gvr)

/-- A source that is the same in both snapshots has been quiet, in
all its types. -/
theorem quiet_of_source (hlen : (ops ++ between).length < 2 ^ 64) {source : CoverageSource}
    {s s' : CoverageSession} (hs : current (.run ext staleAfter ops) cluster source = some s)
    (hs' : current (.run ext staleAfter (ops ++ between)) cluster source = some s')
    (hsame : (CoverageTracker.run ext staleAfter ops).snapshotSource range s now
      = (CoverageTracker.run ext staleAfter (ops ++ between)).snapshotSource range' s' now')
    (gvr : GroupVersionResource) :
    Quiet ext staleAfter ops between ⟨cluster, source, gvr⟩ := by
  have hgen : s.generation = s'.generation := congrArg CoverageSourceSnapshot.generation hsame
  have hrows := congrArg CoverageSourceSnapshot.resources hsame
  have hg : genAt (.run ext staleAfter ops) cluster source = some s.generation := by
    rw [genAt, hs]
    rfl
  have hg' : genAt (.run ext staleAfter (ops ++ between)) cluster source
      = some s.generation := by
    rw [genAt, hs', hgen]
    rfl
  -- a row of one snapshot is in the other, where only its own type can have it
  have hfind : ∀ {ops₁ ops₂ : List Op} {r₁ : CoverageResource} {gvr₂ : GroupVersionResource}
      {r₂ : CoverageResource} {now₁ now₂ : Time} {stale₁ stale₂ : Duration},
      rowAt (.run ext staleAfter ops₁) ⟨cluster, source, gvr⟩ = some r₁ →
      rowAt (.run ext staleAfter ops₂) ⟨cluster, source, gvr₂⟩ = some r₂ →
      r₁.snapshot now₁ stale₁ = r₂.snapshot now₂ stale₂ →
      gvr₂ = gvr ∧ r₂.continuityRevision = r₁.continuityRevision := by
    intro ops₁ ops₂ r₁ gvr₂ r₂ now₁ now₂ stale₁ stale₂ hr₁ hr₂ heq
    have hgvr : r₁.gvr = r₂.gvr := by
      have hrows := congrArg ResourceCoverage.gvr heq
      exact hrows
    rw [gvr_of_rowAt hr₁, gvr_of_rowAt hr₂] at hgvr
    exact ⟨hgvr.symm, (congrArg ResourceCoverage.continuityRevision heq).symm⟩
  cases hr : rowAt (.run ext staleAfter ops) ⟨cluster, source, gvr⟩ with
  | some r =>
    have hmem := (mem_snapshotSource_resources range now hs).mpr ⟨gvr, r, hr, rfl⟩
    rw [hrows] at hmem
    obtain ⟨gvr', r', hr', hrow⟩ := (mem_snapshotSource_resources range' now' hs').mp hmem
    obtain ⟨rfl, hrev⟩ := hfind hr hr' hrow
    intro e he
    exact ⟨r, hr, ignored_between hlen hg hg' hr hr' hrev e he⟩
  | none =>
    -- and without a row before there is none after, so there was no event
    have hnone : rowAt (.run ext staleAfter (ops ++ between)) ⟨cluster, source, gvr⟩ = none := by
      cases hr' : rowAt (.run ext staleAfter (ops ++ between)) ⟨cluster, source, gvr⟩ with
      | none => rfl
      | some r' =>
        have hmem := (mem_snapshotSource_resources range' now' hs').mpr ⟨gvr, r', hr', rfl⟩
        rw [← hrows] at hmem
        obtain ⟨gvr₀, r₀, hr₀, hrow⟩ := (mem_snapshotSource_resources range now hs).mp hmem
        obtain ⟨rfl, -⟩ := hfind hr' hr₀ hrow
        rw [hr] at hr₀
        contradiction
    have htrace := trace_between ext staleAfter ops between ⟨cluster, source, gvr⟩
    rw [hr, hnone] at htrace
    intro e he
    rw [eq_nil_of_trace htrace] at he
    exact absurd he List.not_mem_nil

end Window

/-! ### Stable windows -/

section Stable

variable {before after : CoverageSnapshot}

/-- What a stable window says about the required types. -/
theorem stable_evaluateRequired {authorization available : Bool}
    (h : (evaluateRequired before after authorization available).stableWindow = true) :
    before.generation ≠ 0 ∧ before.generation = after.generation ∧
      ∀ gvr ∈ impactCoverageRequirements authorization,
        (requiredCoverage before gvr).continuityRevision ≠ 0 ∧
          requiredCoverage before gvr = requiredCoverage after gvr := by
  unfold evaluateRequired at h
  extract_lets required out verified out₁ stable out₂ out₃ out₄ out₅ at h
  -- the window is the one that was computed from the rows: the rest adds reasons
  have h₃ : out₃.stableWindow = stable := by
    show (if stable = true then out₂ else out₂.addReason _).stableWindow = stable
    split <;> rfl
  have h₅ : out₅.stableWindow = stable := by
    show (if _ then out₄.addReason _ else out₄).stableWindow = stable
    split <;> exact h₃
  have hstable : stable = true := by
    rw [← h₅]
    split at h
    · contradiction
    · split at h <;> exact h
  have hrows : out₁.before.resources.zip out₁.after.resources
      = required.map fun gvr => (requiredCoverage before gvr, requiredCoverage after gvr) := by
    have hout : out₁.before = subsetImpactCoverage before required ∧
        out₁.after = subsetImpactCoverage after required := by
      show (if _ then out else out.addReason _).before = _ ∧
        (if _ then out else out.addReason _).after = _
      split <;> exact ⟨rfl, rfl⟩
    rw [hout.1, hout.2]
    exact List.zip_map'
  obtain ⟨hverified, hall⟩ := (Bool.and_eq_true _ _).mp hstable
  obtain ⟨hzero, hgen⟩ := (Bool.and_eq_true _ _).mp hverified
  refine ⟨of_decide_eq_true hzero, of_decide_eq_true hgen, ?_⟩
  intro gvr hgvr
  rw [hrows, List.all_map, List.all_eq_true] at hall
  have hrow := hall gvr hgvr
  simpa using hrow

variable {name : CoverageSource} {out : ImpactCoverageFacet}
  {pre post : List CoverageSourceSnapshot}

/-- A source keeps the window stable only if it is there twice and
the same. -/
theorem stable_attachImpactSource (h : (attachImpactSource pre post out name).stableWindow = true) :
    out.stableWindow = true ∧ ∃ src, pre.find? (fun s => s.source = name) = some src ∧
      post.find? (fun s => s.source = name) = some src := by
  unfold attachImpactSource at h
  extract_lets label missing at h
  cases hpre : pre.find? (fun s => s.source = name) with
  | none =>
    rw [hpre] at h
    contradiction
  | some src =>
    cases hpost : post.find? (fun s => s.source = name) with
    | none =>
      rw [hpre, hpost] at h
      contradiction
    | some src' =>
      rw [hpre, hpost] at h
      dsimp -zeta only at h
      extract_lets out₁ out₂ limited out₃ out₄ at h
      have h₃ : out₃.stableWindow = out₁.stableWindow := by
        simp only [out₃]
        split <;> rfl
      have h₄ : out₄.stableWindow = out₁.stableWindow := by
        rw [← h₃]
        simp only [out₄]
        split
        · split
          · split_ifs <;> rfl
          · rfl
        · rfl
      have h₁ : out₁.stableWindow = true := by
        rw [← h₄]
        split at h <;> exact h
      simp only [out₁] at h₁
      split at h₁
      · rename_i hsame
        exact ⟨h₁, src, rfl, congrArg some hsame.symm⟩
      · contradiction

theorem stable_attachImpactSourceCoverage
    (h : (attachImpactSourceCoverage out pre post).stableWindow = true) :
    out.stableWindow = true ∧ ∀ name, name = .crd ∨ name = .gatekeeper →
      ∃ src, pre.find? (fun s => s.source = name) = some src ∧
        post.find? (fun s => s.source = name) = some src := by
  unfold attachImpactSourceCoverage at h
  extract_lets oldBefore oldAfter start last at h
  have hlast : last.stableWindow = true := by
    split at h <;> exact h
  obtain ⟨hcrd, hgatekeeper⟩ := stable_attachImpactSource hlast
  obtain ⟨hout, hfirst⟩ := stable_attachImpactSource hcrd
  refine ⟨hout, ?_⟩
  rintro name (rfl | rfl)
  · exact hfirst
  · exact hgatekeeper

theorem stable_attachImpactInventory
    (h : (attachImpactInventory out before after).stableWindow = true) :
    out.stableWindow = true := by
  unfold attachImpactInventory at h
  extract_lets pre post oldBefore oldAfter out₁ out₂ optional out₃ at h
  clear_value pre post
  have h₂ : out₂.stableWindow = true := by
    split at h
    · exact h
    · split at h
      · extract_lets missing out₄ at h
        split at h <;> exact h
      · exact h
  simp only [out₂] at h₂
  split at h₂
  · exact ((Bool.and_eq_true _ _).mp h₂).1
  · exact h₂

/-- A required row with a revision is a row of the snapshot. -/
theorem mem_of_requiredCoverage {snap : CoverageSnapshot} {gvr : GroupVersionResource}
    (hrev : (requiredCoverage snap gvr).continuityRevision ≠ 0) :
    requiredCoverage snap gvr ∈ snap.resources ∧ (requiredCoverage snap gvr).gvr = gvr := by
  unfold requiredCoverage at hrev ⊢
  cases hfind : snap.resources.find? (fun candidate => candidate.gvr = gvr) with
  | none =>
    rw [hfind] at hrev
    exact absurd rfl hrev
  | some row =>
    have hgvr : row.gvr = gvr := by simpa using List.find?_some hfind
    exact ⟨List.mem_of_find?_eq_some hfind, hgvr⟩

/-- The source of a name in a snapshot is the one of the current
session. -/
theorem source_of_find {ext : Externals} {staleAfter : Duration} {ops : List Op} {range : MapOrder}
    {cluster : String} {required : List GroupVersionResource} {now : Time} {snap : CoverageSnapshot}
    (hsnap : (CoverageTracker.run ext staleAfter ops).snapshot range cluster required now = .ok
      snap) {src : CoverageSourceSnapshot}
    (hfind : snap.sources.find? (fun s => s.source = name) = some src) :
    ∃ s, current (.run ext staleAfter ops) cluster name = some s ∧
      src = (CoverageTracker.run ext staleAfter ops).snapshotSource range s now := by
  have hname : src.source = name := by simpa using List.find?_some hfind
  obtain ⟨source, s, -, hs, rfl⟩ :=
    mem_snapshot_sources hsnap (List.mem_of_find?_eq_some hfind)
  have hsource : s.source = source := source_of_current (wellFormed_run ext staleAfter ops) hs
  have hsame : source = name := hsource.symm.trans hname
  rw [← hsame]
  exact ⟨s, hs, rfl⟩

end Stable

/-- There is no ABA in the observation window, in a run of fewer
than `2 ^ 64` operations. An observed row that is the same in two
snapshots of one generation was at most delivered again or told of
the end of an old stream. And a stable window means that nothing
happened in it: to the types it requires, and for the ordinary
profile also to the types of the sources. -/
theorem observation_window (ext : Externals) (staleAfter : Duration) (ops between : List Op)
    (hlen : (ops ++ between).length < 2 ^ 64) (range range' : MapOrder) (cluster : String)
    (required required' : List GroupVersionResource) (now now' : Time)
    (before after : CoverageSnapshot)
    (hbefore : (CoverageTracker.run ext staleAfter ops).snapshot range cluster required now
      = .ok before)
    (hafter : (CoverageTracker.run ext staleAfter (ops ++ between)).snapshot range' cluster
      required' now' = .ok after) :
    (before.generation ≠ 0 → after.generation = before.generation →
      ∀ row ∈ before.resources, row ∈ after.resources → row.state = .observed →
        ∃ r, rowAt (.run ext staleAfter ops) ⟨cluster, .core, row.gvr⟩ = some r ∧
          ∀ e ∈ history ext ⟨cluster, .core, row.gvr⟩ (.run ext staleAfter ops) between,
            e = .delivered ∨ ∃ epoch reason at', e = .watchEnded epoch reason at' ∧
              epoch ≠ 0 ∧ epoch ≠ r.watchEpoch) ∧
    ∀ authorization available,
      (evaluateImpactCoverage before after authorization available).stableWindow = true →
        (∀ gvr ∈ impactCoverageRequirements authorization,
          Quiet ext staleAfter ops between ⟨cluster, .core, gvr⟩) ∧
        (authorization = false → ∀ source, source = .crd ∨ source = .gatekeeper →
          ∀ gvr, Quiet ext staleAfter ops between ⟨cluster, source, gvr⟩) := by
  constructor
  · intro hgen hgen' row hrow hrow' hobs
    obtain ⟨r, hr, hsnapped, hignored⟩ := quiet_of_row hlen hbefore hafter hgen hgen' hrow hrow'
      (Or.inl (by rw [hobs]; nofun))
    refine ⟨r, hr, ?_⟩
    intro e he
    have hthis := hignored e he
    cases e with
    | delivered => exact Or.inl rfl
    | watchEnded epoch reason at' => exact Or.inr ⟨epoch, reason, at', rfl, hthis⟩
    | gap reason at' =>
      -- an observed row has no gap that could have hidden this one
      rw [hsnapped] at hobs
      exact absurd hthis (not_gapOn (fields_of_observed hobs).2.2.2.2)
    | _ => exact absurd hthis id
  · intro authorization available hstable
    have hparts : (evaluateRequired before after authorization available).stableWindow = true ∧
        (authorization = false → ∀ name, name = .crd ∨ name = .gatekeeper →
          ∃ src, before.sources.find? (fun s => s.source = name) = some src ∧
            after.sources.find? (fun s => s.source = name) = some src) := by
      unfold evaluateImpactCoverage at hstable
      extract_lets out at hstable
      split at hstable
      · rename_i hearly
        refine ⟨hstable, ?_⟩
        rintro rfl
        -- the provider is not available, and then the window is not stable
        have hunavailable : available = false := by simpa using hearly
        subst hunavailable
        contradiction
      · have hsources := stable_attachImpactInventory hstable
        obtain ⟨hout, hfound⟩ := stable_attachImpactSourceCoverage hsources
        exact ⟨hout, fun _ => hfound⟩
    obtain ⟨hgen, hgen', hrows⟩ := stable_evaluateRequired hparts.1
    refine ⟨?_, ?_⟩
    · intro gvr hgvr e he
      obtain ⟨hrev, hsame⟩ := hrows gvr hgvr
      obtain ⟨hmem, htype⟩ := mem_of_requiredCoverage hrev
      have hmem' : requiredCoverage before gvr ∈ after.resources := by
        rw [hsame] at hrev ⊢
        exact (mem_of_requiredCoverage hrev).1
      obtain ⟨r, hr, -, hignored⟩ := quiet_of_row hlen hbefore hafter hgen hgen'.symm hmem hmem'
        (Or.inr hrev)
      rw [htype] at hr hignored
      exact ⟨r, hr, hignored e he⟩
    · intro hordinary source hsource gvr
      obtain ⟨src, hpre, hpost⟩ := hparts.2 hordinary source hsource
      obtain ⟨s, hs, hsrc⟩ := source_of_find hbefore hpre
      obtain ⟨s', hs', hsrc'⟩ := source_of_find hafter hpost
      exact quiet_of_source hlen hs hs' (hsrc.symm.trans hsrc') gvr

/-! ### A window, and a counter that wraps -/

def pods : GroupVersionResource := ⟨"", "v1", "pods"⟩

/-- The core collector of the authorization types, with an observed
one. -/
def podRun : List Op :=
  [.begin "c" (impactCoverageRequirements true) 1, .initialDeliveryComplete 0 pods,
    .watchStarted 0 pods, .listResult 0 pods true false 2]

/-- An old stream ends, and the delivery is reported again. -/
def podBetween : List Op :=
  [.watchEnded 0 pods 7 .watchClosed 3, .initialDeliveryComplete 0 pods]

/-- The row of that type. -/
def podRow : ResourceCoverage :=
  { continuityRevision := 4, group := "", version := "v1", resource := "pods"
    state := .observed, since := 1, initialDeliveryDone := true, watchEstablished := true
    lastListSuccess := 2 }

/-- The snapshot of the authorization types after a run. -/
def podSnapshot (ops : List Op) (now : Time) : CoverageSnapshot :=
  ((CoverageTracker.run plainExternals 0 ops).snapshot RangeOrder.inserted "c"
    (impactCoverageRequirements true) now).toOption.getD
      { clusterID := "c", capturedAt := 0, state := .unknown }

/-- A stable window with an observed row, in which two events were
ignored. -/
theorem observation_window_pods :
    (podRow ∈ (podSnapshot podRun 9).resources ∧
      ∃ r, rowAt (.run plainExternals 0 podRun) ⟨"c", .core, pods⟩ = some r ∧
        ∀ e ∈ history plainExternals ⟨"c", .core, pods⟩ (.run plainExternals 0 podRun) podBetween,
          e = .delivered ∨ ∃ epoch reason at', e = .watchEnded epoch reason at' ∧
            epoch ≠ 0 ∧ epoch ≠ r.watchEpoch) ∧
      (evaluateImpactCoverage (podSnapshot podRun 9) (podSnapshot (podRun ++ podBetween) 10)
        true true).stableWindow = true ∧
      Quiet plainExternals 0 podRun podBetween ⟨"c", .core, pods⟩ := by
  obtain ⟨hbefore, hgen, hrow⟩ :
      (CoverageTracker.run plainExternals 0 podRun).snapshot RangeOrder.inserted "c"
          (impactCoverageRequirements true) 9 = .ok (podSnapshot podRun 9) ∧
        (podSnapshot podRun 9).generation = 1 ∧ podRow ∈ (podSnapshot podRun 9).resources := by
    decide +kernel
  obtain ⟨hafter, hgen', hrow', hstable⟩ :
      (CoverageTracker.run plainExternals 0 (podRun ++ podBetween)).snapshot RangeOrder.inserted "c"
          (impactCoverageRequirements true) 10 = .ok (podSnapshot (podRun ++ podBetween) 10) ∧
        (podSnapshot (podRun ++ podBetween) 10).generation = 1 ∧
        podRow ∈ (podSnapshot (podRun ++ podBetween) 10).resources ∧
        (evaluateImpactCoverage (podSnapshot podRun 9) (podSnapshot (podRun ++ podBetween) 10)
          true true).stableWindow = true := by
    decide +kernel
  obtain ⟨hobserved, hwindow⟩ := observation_window plainExternals 0 podRun podBetween (by decide)
    RangeOrder.inserted RangeOrder.inserted "c" _ _ 9 10 _ _ hbefore hafter
  refine ⟨⟨hrow, ?_⟩, hstable, ?_⟩
  · exact hobserved (by rw [hgen]; decide) (hgen'.trans hgen.symm) podRow hrow hrow' rfl
  · exact (hwindow true true hstable).1 pods (by decide)

/-- The core collector of one type. -/
def relistRun : List Op :=
  [.begin "c" [pods] 1, .initialDeliveryComplete 0 pods, .watchStarted 0 pods,
    .listResult 0 pods true false 2]

/-- The list succeeds once more, at the same time. -/
def relist : Op := .listResult 0 pods true false 2

/-- The tracker of `relistRun`, with another revision of the row. -/
def relisted (revision : UInt64) : CoverageTracker :=
  { CoverageTracker.run plainExternals 0 relistRun with
    rows := [{ podRow with continuityRevision := revision, state := .other "", watchEpoch := 1 }] }

/-- Step: a list that is repeated counts the revision up. -/
theorem relisted_step (revision : UInt64) :
    (relisted revision).step plainExternals relist = relisted (revision + 1) := rfl

theorem relisted_replicate (n : Nat) (revision : UInt64) :
    (List.replicate n relist).foldl (fun t op => t.step plainExternals op) (relisted revision)
      = relisted (revision + UInt64.ofNat n) := by
  induction n generalizing revision with
  | zero => simp
  | succ n ih =>
    rw [List.replicate_succ, List.foldl_cons, relisted_step, ih, UInt64.ofNat_add,
      UInt64.add_assoc, UInt64.add_comm 1]
    rfl

/-- After `2 ^ 64` list results the revision is back where it was,
and so is the whole snapshot. -/
theorem revision_wraps :
    ∃ snap, (CoverageTracker.run plainExternals 0 relistRun).snapshot RangeOrder.inserted "c"
          [pods] 9 = .ok snap ∧
      (CoverageTracker.run plainExternals 0 (relistRun ++ List.replicate (2 ^ 64) relist)).snapshot
          RangeOrder.inserted "c" [pods] 9 = .ok snap ∧
      snap.generation ≠ 0 ∧ podRow ∈ snap.resources ∧ podRow.state = .observed ∧
      .listed true false 2 ∈ history plainExternals ⟨"c", .core, pods⟩
        (.run plainExternals 0 relistRun) (List.replicate (2 ^ 64) relist) := by
  have hback : CoverageTracker.run plainExternals 0 (relistRun ++ List.replicate (2 ^ 64) relist)
      = .run plainExternals 0 relistRun := by
    have hstart : CoverageTracker.run plainExternals 0 relistRun = relisted 4 := rfl
    rw [run_append, hstart, relisted_replicate]
    rfl
  rw [hback]
  refine ⟨{ generation := 1, clusterID := "c", capturedAt := 9, state := .observed
            resources := [podRow] }, rfl, rfl, by decide, List.mem_singleton_self _, rfl, ?_⟩
  -- the first of the list results is an event
  rw [show (2 ^ 64 : Nat) = (2 ^ 64 - 1) + 1 from rfl, List.replicate_succ, history, log,
    List.mem_append]
  exact Or.inr (List.mem_singleton_self _)

end KubeAtlas.Proofs.Coverage
