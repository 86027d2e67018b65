import KubeAtlas.Proofs.Coverage.History
import Mathlib.Data.List.Dedup

/-!
# `KubeAtlas.Proofs.Coverage.Soundness`: an observed row was observed

A snapshot calls a row observed (`initialized_no_known_gap`) from a
few fields of the row. `snapshot_sound` is what that says about the
whole run that led to the snapshot, over any mix of current,
replaced and stopped sessions: the type is registered, its initial
delivery and its watch belong to this registration, the last list
succeeded, and no gap was recorded for the type under this or any
earlier session.
-/

set_option autoImplicit false

namespace KubeAtlas.Proofs.Coverage

open Lib Operations
open Operations.CoverageTracker (Op)

/-! ### Observed rows -/

variable {r : CoverageResource}

/-- The watch and the list speak for a row. -/
theorem fields_of_watchState (h : r.watchState = .observed) :
    r.initialDeliveryDone = true ∧ r.listReason = .unset ∧ r.stopped = false ∧
      r.watchEstablished = true := by
  unfold CoverageResource.watchState at h
  simp only at h
  split at h
  · contradiction
  · rename_i hstop
    split at h
    · rename_i hwatch
      split at h
      · contradiction
      · rename_i hlist
        split at h
        · rename_i hdone
          exact ⟨hdone, by simpa using hlist, by simpa using hstop, hwatch⟩
        · contradiction
    · -- without a watch, observed is turned into initializing
      have hturned : ∀ state : CoverageState,
          (if state = .observed then .initializing else state) ≠ CoverageState.observed := by
        intro state
        split
        · nofun
        · assumption
      exact absurd h (hturned _)

variable {staleAfter : Duration} {now : Time}

/-- A row is only observed if no field speaks against it. -/
theorem fields_of_observed (h : r.snapshotState now staleAfter = .observed) :
    r.initialDeliveryDone = true ∧ r.listReason = .unset ∧ r.stopped = false ∧
      r.watchEstablished = true ∧ gapFields r = (0, 0, 0) := by
  unfold CoverageResource.snapshotState at h
  simp only at h
  split at h
  · contradiction
  · split at h
    · rename_i hgaps
      simp only [Bool.and_eq_true, decide_eq_true_eq] at hgaps
      obtain ⟨hdone, hlist, hstop, hwatch⟩ := fields_of_watchState h
      refine ⟨hdone, hlist, hstop, hwatch, ?_⟩
      unfold gapFields
      rw [hgaps.1.1, hgaps.1.2, hgaps.2]
    · contradiction

/-- A gap on a row is visible in its fields. -/
theorem not_gapOn {reason : CoverageReason} (h : gapFields r = (0, 0, 0)) : ¬ GapOn reason r := by
  unfold gapFields at h
  simp only [Prod.mk.injEq] at h
  unfold GapOn
  cases reason <;> simp [h.1, h.2.1, h.2.2]

/-- What an observed row promises about the events of its type, the
latest first. -/
structure Sound (h : List RowEvent) : Prop where
  /-- The last registration has not ended, and everything below belongs to it. -/
  registered : ∃ recent reg older, h = recent ++ reg :: older ∧ reg.registers = true ∧
    (∀ e ∈ recent, e.registers = false ∧ e.ends = false) ∧
    .delivered ∈ recent ∧
    (∃ later epoch earlier, recent = later ++ .watchStarted epoch :: earlier ∧
      ∀ e ∈ later, e.isWatchStarted = false ∧
        ∀ epoch' reason now, e = .watchEnded epoch' reason now → epoch' ≠ 0 ∧ epoch' ≠ epoch) ∧
    ∀ success denied now, recent.find? RowEvent.isListed = some (.listed success denied now) →
      success = true
  /-- No gap was recorded, under any registration. -/
  ungapped : ∀ e ∈ h, e.isGap = false

theorem sound_of_explained {h : List RowEvent} (hr : Explained h r)
    (hobs : r.snapshotState now staleAfter = .observed) :
    Sound h := by
  obtain ⟨hdone, hlist, hlive, hwatch, hgaps⟩ := fields_of_observed hobs
  obtain ⟨recent, reg, older, hsplit, hreg, hsince⟩ := hr.live hlive
  obtain ⟨later, earlier, hrecent, hlater⟩ := hsince.watch hwatch
  refine ⟨⟨recent, reg, older, hsplit, hreg, hsince.quiet, hsince.delivered hdone,
    ⟨later, _, earlier, hrecent, hlater⟩, hsince.listed hlist⟩, ?_⟩
  intro e he
  cases e with
  | gap reason now => exact absurd (hr.gaps reason now he) (not_gapOn hgaps)
  | _ => rfl

/-! ### Rows of snapshots -/

section Snapshot

variable {t : CoverageTracker} {range : MapOrder} {cluster : String}
  {required : List GroupVersionResource} {now : Time} {snap : CoverageSnapshot}

theorem sortRows_perm (rows : List ResourceCoverage) : (sortRows rows).Perm rows :=
  List.perm_insertionSort _ rows

variable {row : ResourceCoverage}

theorem mem_sortRows {rows : List ResourceCoverage} :
    row ∈ sortRows rows ↔ row ∈ rows :=
  (sortRows_perm rows).mem_iff

/-- A row of a required type is the tracked row, or says that there
is none. -/
theorem requiredRow_cases (t : CoverageTracker) (cluster : String) (now : Time)
    (gvr : GroupVersionResource) :
    let row := t.requiredRow ((t.clusters.lookup cluster).bind fun ref => t.sessions[ref]?) now gvr
    (∃ r, rowAt t ⟨cluster, .core, gvr⟩ = some r ∧ row = r.snapshot now t.staleAfter) ∨
      (rowAt t ⟨cluster, .core, gvr⟩ = none ∧
        row = { group := gvr.group, version := gvr.version, resource := gvr.resource
                state := .unknown, reasons := [.notWatched] }) := by
  have hread : (((t.clusters.lookup cluster).bind fun ref => t.sessions[ref]?).bind fun s =>
      (s.resources.lookup gvr).bind fun row => t.rows[row]?) = rowAt t ⟨cluster, .core, gvr⟩ := by
    have hcore : t.sessionLocked cluster .core = t.clusters.lookup cluster := if_pos rfl
    simp only [rowAt, rowRef, current, hcore, Option.bind_assoc]
  unfold CoverageTracker.requiredRow
  rw [hread]
  cases rowAt t ⟨cluster, .core, gvr⟩ with
  | none => exact Or.inr ⟨rfl, rfl⟩
  | some r => exact Or.inl ⟨r, rfl, rfl⟩

/-- A row of a snapshot is that of a required type, or says that
there is none. -/
theorem mem_snapshot_resources (hsnap : t.snapshot range cluster required now = .ok snap)
    (hrow : row ∈ snap.resources) :
    ∃ gvr ∈ required,
      (∃ r, rowAt t ⟨cluster, .core, gvr⟩ = some r ∧ row = r.snapshot now t.staleAfter) ∨
      (rowAt t ⟨cluster, .core, gvr⟩ = none ∧
        row = { group := gvr.group, version := gvr.version, resource := gvr.resource
                state := .unknown, reasons := [.notWatched] }) := by
  unfold CoverageTracker.snapshot at hsnap
  split_ifs at hsnap
  cases hsnap
  simp only [mem_sortRows, List.mem_map, List.mem_dedup] at hrow
  obtain ⟨gvr, hgvr, rfl⟩ := hrow
  exact ⟨gvr, hgvr, requiredRow_cases t cluster now gvr⟩

/-- The sources of a snapshot are the current source sessions. -/
theorem mem_snapshot_sources (hsnap : t.snapshot range cluster required now = .ok snap)
    {src : CoverageSourceSnapshot} (hsrc : src ∈ snap.sources) :
    ∃ source s, (source = .crd ∨ source = .gatekeeper) ∧ current t cluster source = some s ∧
      src = t.snapshotSource range s now := by
  unfold CoverageTracker.snapshot at hsnap
  split_ifs at hsnap
  cases hsnap
  obtain ⟨source, hsource, hmap⟩ := List.mem_filterMap.mp hsrc
  obtain ⟨s, hs, rfl⟩ := Option.map_eq_some_iff.mp hmap
  exact ⟨source, s, by simpa using hsource, hs, rfl⟩

variable {source : CoverageSource} {s : CoverageSession}

/-- A current session is of the source it is filed under. -/
theorem source_of_current (hwf : WellFormed t) (hs : current t cluster source = some s) :
    s.source = source := by
  obtain ⟨ref, href, hget⟩ := Option.bind_eq_some_iff.mp hs
  obtain ⟨s', hs', -, hsource, -⟩ := hwf.filed cluster source ref href
  rw [hget] at hs'
  cases hs'
  exact hsource

/-- The rows of a source are the tracked rows of its types. -/
theorem mem_snapshotSource_resources (range : MapOrder) (now : Time)
    (hs : current t cluster source = some s) :
    row ∈ (t.snapshotSource range s now).resources ↔
      ∃ gvr r, rowAt t ⟨cluster, source, gvr⟩ = some r ∧ row = r.snapshot now t.staleAfter := by
  have hread : ∀ gvr, AList.lookup gvr (s.resources.deref t.rows)
      = rowAt t ⟨cluster, source, gvr⟩ := by
    intro gvr
    rw [GoMap.lookup_deref, rowAt, rowRef, hs]
    rfl
  unfold CoverageTracker.snapshotSource
  simp only [mem_sortRows, List.mem_map, GoMap.mem_values, hread]
  constructor
  · rintro ⟨r, ⟨gvr, hr⟩, rfl⟩
    exact ⟨gvr, r, hr, rfl⟩
  · rintro ⟨gvr, r, hr, rfl⟩
    exact ⟨r, ⟨gvr, hr⟩, rfl⟩

end Snapshot

/-! ### Soundness -/

/-- The row is the current one of its type, has not stopped, and its
whole history agrees with it. -/
def SoundRow (ext : Externals) (staleAfter : Duration) (ops : List Op) (κ : TypeKey)
    (row : ResourceCoverage) (now : Time) : Prop :=
  (∃ r, rowAt (.run ext staleAfter ops) κ = some r ∧ r.stopped = false ∧
      row = r.snapshot now (CoverageTracker.run ext staleAfter ops).staleAfter) ∧
    Sound (history ext κ (.new staleAfter) ops)

/-- A row that is observed has a history that bears it out. -/
theorem soundRow_of_observed (ext : Externals) (staleAfter : Duration) {ops : List Op}
    (hstamps : ∀ op ∈ ops, opStamp op ≠ some 0) {κ : TypeKey}
    (hr : rowAt (.run ext staleAfter ops) κ = some r)
    (hobs :
      (r.snapshot now (CoverageTracker.run ext staleAfter ops).staleAfter).state = .observed) :
    SoundRow ext staleAfter ops ⟨κ.cluster, κ.source,
      (r.snapshot now (CoverageTracker.run ext staleAfter ops).staleAfter).gvr⟩
      (r.snapshot now (CoverageTracker.run ext staleAfter ops).staleAfter) now := by
  have htrace := trace_run ext staleAfter κ ops
  rw [hr] at htrace
  have hgvr : (r.snapshot now (CoverageTracker.run ext staleAfter ops).staleAfter).gvr = κ.gvr :=
    gvr_of_trace htrace
  rw [hgvr]
  refine ⟨⟨r, hr, (fields_of_observed hobs).2.2.1, rfl⟩, ?_⟩
  have hnonzero : ∀ op ∈ ops, ∀ at', opStamp op = some at' → at' ≠ 0 := by
    rintro op hop at' hat rfl
    exact hstamps op hop hat
  have hexplained := explained htrace (fun e he at' hat =>
    stamps_history hnonzero he hat) r rfl
  exact sound_of_explained hexplained hobs

/-- Every row that a snapshot calls observed is sound: rows of
required types, and rows of the two sources. The state of a row is
read off its history (`explained`), which is what makes this hold in
all runs. -/
theorem snapshot_sound (ext : Externals) (range : MapOrder) (staleAfter : Duration)
    (ops : List Op) (hstamps : ∀ op ∈ ops, opStamp op ≠ some 0)
    (cluster : String) (required : List GroupVersionResource) (now : Time)
    (snap : CoverageSnapshot)
    (hsnap : (CoverageTracker.run ext staleAfter ops).snapshot range cluster required now
      = .ok snap) :
    (∀ row ∈ snap.resources, row.state = .observed →
      SoundRow ext staleAfter ops ⟨cluster, .core, row.gvr⟩ row now) ∧
    ∀ src ∈ snap.sources, ∀ row ∈ src.resources, row.state = .observed →
      SoundRow ext staleAfter ops ⟨cluster, src.source, row.gvr⟩ row now := by
  constructor
  · intro row hrow hobs
    obtain ⟨gvr, -, ⟨r, hr, rfl⟩ | ⟨-, rfl⟩⟩ := mem_snapshot_resources hsnap hrow
    · exact soundRow_of_observed ext staleAfter hstamps hr hobs
    · contradiction
  · intro src hsrc row hrow hobs
    obtain ⟨source, s, -, hs, rfl⟩ := mem_snapshot_sources hsnap hsrc
    obtain ⟨gvr, r, hr, rfl⟩ := (mem_snapshotSource_resources range now hs).mp hrow
    have hsource := source_of_current (wellFormed_run ext staleAfter ops) hs
    show SoundRow ext staleAfter ops ⟨cluster, s.source, _⟩ _ now
    rw [hsource]
    exact soundRow_of_observed ext staleAfter hstamps hr hobs

/-- Externals that accept every name. -/
def plainExternals : Externals where
  isDNS1123Subdomain _ := true
  isDNS1035Label _ := true
  isSpaceOrControl _ := false
  gvrString g := g.group ++ "/" ++ g.version ++ "/" ++ g.resource

/-- A custom type. -/
def widgets : GroupVersionResource := ⟨"example.com", "v1", "widgets"⟩

/-- The type is registered, stopped and registered again. The first
token still reports the end of its stream. -/
def widgetRun : List Op :=
  [.beginSource "c" .crd 1, .beginType 0 widgets 2, .watchStarted 1 widgets, .stop 1 3,
    .beginType 0 widgets 4, .initialDeliveryComplete 2 widgets, .watchStarted 2 widgets,
    .watchEnded 1 widgets 1 .watchClosed 5, .listResult 2 widgets true false 6]

/-- The row that a snapshot shows for it. -/
def widgetRow : ResourceCoverage :=
  { continuityRevision := 7, group := "example.com", version := "v1", resource := "widgets"
    state := .observed, since := 4, initialDeliveryDone := true, watchEstablished := true
    lastListSuccess := 6 }

/-- The second registration of the type is observed, and sound. -/
theorem snapshot_sound_widgets :
    (∃ snap, (CoverageTracker.run plainExternals 0 widgetRun).snapshot RangeOrder.inserted "c" [] 9
        = .ok snap ∧ ∃ src ∈ snap.sources, widgetRow ∈ src.resources) ∧
      widgetRow.state = .observed ∧
      SoundRow plainExternals 0 widgetRun ⟨"c", .crd, widgets⟩ widgetRow 9 := by
  have hstamps : ∀ op ∈ widgetRun, opStamp op ≠ some 0 := by decide
  let src : CoverageSourceSnapshot :=
    { clusterID := "c", source := .crd, generation := 1, state := .observed
      inventoryLimited := false, resources := [widgetRow] }
  have hsnap : (CoverageTracker.run plainExternals 0 widgetRun).snapshot RangeOrder.inserted "c"
      [] 9 = .ok { clusterID := "c", capturedAt := 9, state := .unknown, sources := [src] } := by
    rfl
  have hsrc : src ∈ [src] := List.mem_singleton_self src
  have hrow : widgetRow ∈ src.resources := List.mem_singleton_self widgetRow
  refine ⟨⟨_, hsnap, src, hsrc, hrow⟩, rfl, ?_⟩
  exact (snapshot_sound plainExternals RangeOrder.inserted 0 widgetRun hstamps "c" [] 9 _
    hsnap).2 src hsrc widgetRow hrow rfl

end KubeAtlas.Proofs.Coverage
