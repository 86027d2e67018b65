import KubeAtlas.Proofs.Coverage.Continuity
import KubeAtlas.Proofs.Coverage.ValidSources

/-!
# `KubeAtlas.Proofs.Coverage.Validation`: honest evidence is accepted

`readImpactCoverage` checks everything a provider shows.
`readImpactCoverage_run` says that a tracker never fails these
checks: whatever honest operations were made, its snapshot of the
required types is accepted, and returned as it is. The one condition
is that no 64-bit counter has wrapped; `wrapped_revision_rejected`
shows what happens when one has.
-/

set_option autoImplicit false

namespace KubeAtlas.Proofs.Coverage

open Lib Operations
open Operations.CoverageTracker (Op)
open Analysis

/-! ### The state of a source -/

/-- The worst state is at least as bad as every row, and it is the
state of a row unless it is the best one. -/
theorem worstState_spec (rows : List ResourceCoverage) :
    (∀ row ∈ rows, coverageRank row.state ≤ coverageRank (worstState rows)) ∧
      (worstState rows = .observed ∨ ∃ row ∈ rows, row.state = worstState rows) := by
  -- the fold never goes back, and stops at its start or at a row
  have hfold : ∀ (rows : List ResourceCoverage) (start : CoverageState),
      let worst := rows.foldl (fun state row =>
        if coverageRank row.state > coverageRank state then row.state else state) start
      coverageRank start ≤ coverageRank worst ∧
        (∀ row ∈ rows, coverageRank row.state ≤ coverageRank worst) ∧
        (worst = start ∨ ∃ row ∈ rows, row.state = worst) := by
    intro rows
    induction rows with
    | nil => exact fun start => ⟨Nat.le_refl _, by simp, Or.inl rfl⟩
    | cons row rows ih =>
      intro start
      simp only [List.foldl_cons]
      by_cases hworse : coverageRank row.state > coverageRank start
      · rw [if_pos hworse]
        obtain ⟨hstart, hrows, hcases⟩ := ih row.state
        refine ⟨by omega, ?_, ?_⟩
        · rintro r (_ | ⟨_, hr⟩)
          · exact hstart
          · exact hrows r hr
        · rcases hcases with heq | ⟨r, hr, heq⟩
          · exact Or.inr ⟨row, List.mem_cons_self, heq.symm⟩
          · exact Or.inr ⟨r, List.mem_cons_of_mem _ hr, heq⟩
      · rw [if_neg hworse]
        obtain ⟨hstart, hrows, hcases⟩ := ih start
        refine ⟨hstart, ?_, ?_⟩
        · rintro r (_ | ⟨_, hr⟩)
          · omega
          · exact hrows r hr
        · rcases hcases with heq | ⟨r, hr, heq⟩
          · exact Or.inl heq
          · exact Or.inr ⟨r, List.mem_cons_of_mem _ hr, heq⟩
  obtain ⟨-, hrows, hcases⟩ := hfold rows .observed
  exact ⟨hrows, hcases⟩

variable {state : CoverageState}

/-- A state that is known and of rank zero is the best one. -/
theorem eq_observed_of_rank (hknown : knownCoverageState state = true)
    (hrank : coverageRank state ≤ 0) : state = .observed := by
  cases state with
  | observed => rfl
  | other text => contradiction
  | _ => exact absurd hrank (by decide)

/-- One reason to lower a state to partial. -/
theorem demoted_known {worse : Bool} (hknown : knownCoverageState state = true) :
    knownCoverageState (if worse && coverageRank state < coverageRank .partially then .partially
      else state) = true := by
  split
  · rfl
  · exact hknown

theorem of_demoted_observed {worse : Bool}
    (h : (if worse && coverageRank state < coverageRank .partially then .partially else state) =
      CoverageState.observed) : worse = false ∧ state = .observed := by
  split at h
  · contradiction
  · rename_i hkept
    subst h
    cases worse with
    | false => exact ⟨rfl, rfl⟩
    | true => exact absurd (by decide) hkept

section Source

variable {t : CoverageTracker} {range : MapOrder} {s : CoverageSession} {now : Time}

theorem state_snapshotSource_known (t : CoverageTracker) (range : MapOrder) (s : CoverageSession)
    (now : Time) : knownCoverageState (t.snapshotSource range s now).state = true := by
  refine demoted_known (demoted_known ?_)
  split
  · rfl
  · rcases (worstState_spec ((GoMap.values range (s.resources.deref t.rows)).map fun r =>
        r.snapshot now t.staleAfter)).2 with heq | ⟨row, hrow, heq⟩
    · rw [heq]
      rfl
    · rw [← heq]
      obtain ⟨r, -, rfl⟩ := List.mem_map.mp hrow
      exact knownCoverageState_snapshot r now t.staleAfter

/-- A source is only observed if nothing about it is in doubt. -/
theorem observed_snapshotSource (h : (t.snapshotSource range s now).state = .observed) :
    s.limited = false ∧ (t.snapshotSource range s now).resources ≠ [] ∧
      (∀ row ∈ (t.snapshotSource range s now).resources, row.state = .observed) ∧
      ∀ d, s.discovery = some d →
        d.state = .advertised ∧ checkStale d.checkedAt now sourceDiscoveryMaxAge = false := by
  unfold CoverageTracker.snapshotSource at h ⊢
  obtain ⟨hdiscovery, h⟩ := of_demoted_observed h
  obtain ⟨hlimited, h⟩ := of_demoted_observed h
  split at h
  · contradiction
  · rename_i hrows
    rw [Bool.or_eq_false_iff] at hlimited
    refine ⟨hlimited.1, ?_, ?_, ?_⟩
    · intro hnil
      have hperm := sortRows_perm
        ((GoMap.values range (s.resources.deref t.rows)).map fun r => r.snapshot now t.staleAfter)
      rw [show sortRows _ = [] from hnil] at hperm
      exact hrows (List.isEmpty_iff.mpr (List.nil_perm.mp hperm))
    · intro row hrow
      rw [mem_sortRows] at hrow
      have hrank := (worstState_spec _).1 row hrow
      rw [h] at hrank
      obtain ⟨r, -, rfl⟩ := List.mem_map.mp hrow
      exact eq_observed_of_rank (knownCoverageState_snapshot r now t.staleAfter) hrank
    · intro d hd
      rw [hd] at hdiscovery
      simp only [Option.map_some, Option.any_some, Bool.or_eq_false_iff, decide_eq_false_iff_not,
        ne_eq, Classical.not_not] at hdiscovery
      exact hdiscovery

end Source

/-! ### Parts of a snapshot -/

section Run

variable {ext : Externals} {staleAfter : Duration} {ops : List Op} {now : Time}

/-- Every tracked row of an honest run is one of its type, and
valid. -/
theorem valid_row (hops : ∀ op ∈ ops, honest now op = true) (hlen : ops.length < 2 ^ 64)
    (hnow : 0 ≤ now) {κ : TypeKey} {r : CoverageResource}
    (hr : rowAt (.run ext staleAfter ops) κ = some r) :
    r.gvr = κ.gvr ∧ ∀ age, validImpactCoverageRow (r.snapshot now age) now = true := by
  have htrace := trace_run ext staleAfter κ ops
  rw [hr] at htrace
  have hhistory := Nat.lt_of_le_of_lt (length_history_le ext κ (.new staleAfter) ops) hlen
  have hrev := (revision_bounds htrace hhistory r rfl).1
  have htimes := timesLe_of_trace hnow htrace (fun e he stamp hstamp =>
    stamps_history (P := fun stamp => stamp ≤ now)
      (fun op hop _ hat => le_of_honest (hops op hop) hat) he hstamp) r rfl
  refine ⟨gvr_of_trace htrace, fun age => ?_⟩
  refine valid_snapshot (rowShape_of_trace htrace) htimes ?_ age
  intro hzero
  rw [hzero] at hrev
  exact absurd hrev (by decide)

variable {source : CoverageSource} {s : CoverageSession} {cluster : String}

/-- Types without a separator in their names print apart. -/
theorem gvr_eq_of_sortKey {a b : ResourceCoverage} (ha : '/' ∉ a.group.toList)
    (hb : '/' ∉ b.group.toList) (ha' : '/' ∉ a.version.toList) (hb' : '/' ∉ b.version.toList)
    (h : a.sortKey = b.sortKey) : a.gvr = b.gvr := by
  have hcut : ∀ r : ResourceCoverage,
      r.sortKey = r.group ++ "/" ++ (r.version ++ "/" ++ r.resource) := by
    intro r
    simp only [ResourceCoverage.sortKey, String.append_assoc]
  rw [hcut, hcut] at h
  obtain ⟨hgroup, hrest⟩ := Strings.append_slash_inj ha hb h
  obtain ⟨hversion, hresource⟩ := Strings.append_slash_inj ha' hb' hrest
  unfold ResourceCoverage.gvr
  rw [hgroup, hversion, hresource]

/-- What a snapshot shows of an inventory passes every check. -/
theorem valid_inventory {n : Nat} {e : APIInventoryEvidence} (hok : InventoryOk ext n now e)
    (hnow : 0 ≤ now) :
    validImpactInventory ext e.clusterID now
      { e with stale := checkStale e.checkedAt now apiInventoryMaxAge } = true := by
  unfold validImpactInventory
  rcases hok.record with ⟨hstate, hrev, hchecked, hresources, hlimited⟩ | ⟨hrecord, hrev, hchecked⟩
  · simp [hstate, hrev, hchecked, hresources, hlimited, hok.generation, hnow,
      validAPIInventoryState]
  · have hpositive : e.revision ≠ 0 := by
      intro hzero
      rw [hzero] at hrev
      exact absurd hrev (by decide)
    have hvalid : e.resources.all (validAPIResourceDescriptor ext) = true :=
      List.all_eq_true.mpr hrecord.valid
    simp only [hok.generation, hrecord.known, hchecked, hrecord.length, hrecord.complete,
      hrecord.notUnknown, hpositive, hrecord.checked, hrecord.refused, hvalid, hrecord.distinct,
      hrecord.versions, decide_true, Bool.and_true, Bool.not_false, if_false, ne_eq,
      not_false_eq_true, decide_false]

/-! ### The whole snapshot -/

theorem sortRows_idem (rows : List ResourceCoverage) : sortRows (sortRows rows) = sortRows rows :=
  (List.pairwise_insertionSort
    (fun a b : ResourceCoverage => a.sortKey ≤ b.sortKey) rows).insertionSort_eq

/-- Finding at most one value for each name keeps the order of the
names. -/
theorem map_filterMap_sublist {α β : Type} {find : α → Option β} {name : β → α}
    (h : ∀ a b, find a = some b → name b = a) (l : List α) :
    ((l.filterMap find).map name).Sublist l := by
  induction l with
  | nil => exact List.Sublist.slnil
  | cons a l ih =>
    cases hfind : find a with
    | none =>
      rw [List.filterMap_cons_none hfind]
      exact ih.cons a
    | some b =>
      rw [List.filterMap_cons_some hfind, List.map_cons, h a b hfind]
      exact ih.cons_cons a

variable {required : List GroupVersionResource} {snap : CoverageSnapshot} {range : MapOrder}

/-- A snapshot is of the cluster it was asked for, at the time on
the clock. -/
theorem scope_of_snapshot {t : CoverageTracker}
    (hsnap : t.snapshot range cluster required now = .ok snap) :
    snap.clusterID = cluster ∧ snap.capturedAt = now := by
  unfold CoverageTracker.snapshot at hsnap
  split_ifs at hsnap
  cases hsnap
  exact ⟨rfl, rfl⟩

/-- The inventory is accepted, and already sorted. -/
theorem validateImpactInventory_ok {t : CoverageTracker} {n : Nat} (hok : Evidence ext n now t)
    (hnow : 0 ≤ now) (hsnap : t.snapshot range cluster required now = .ok snap) :
    validateImpactInventory ext snap = .ok snap := by
  unfold CoverageTracker.snapshot at hsnap
  split_ifs at hsnap
  cases hsnap
  unfold validateImpactInventory
  cases href : t.inventories.lookup cluster with
  | none => rfl
  | some ref =>
    obtain ⟨e, he, rfl⟩ := hok.inventories.filed cluster ref href
    have hinventory := hok.inventories.sessions e (List.mem_of_getElem? he)
    simp only [Option.bind_some, he, Option.map_some]
    rw [if_pos (valid_inventory hinventory hnow)]
    have hsorted : sortDescriptors ext e.resources = e.resources := by
      rcases hinventory.record with ⟨-, -, -, hempty, -⟩ | ⟨hrecord, -⟩
      · rw [hempty]
        rfl
      · exact hrecord.sorted
    rw [hsorted]

section

variable {t : CoverageTracker} {n : Nat} (hrows : ∀ κ r, rowAt t κ = some r → r.gvr = κ.gvr ∧
    ∀ age, validImpactCoverageRow (r.snapshot now age) now = true)
  (hok : Evidence ext n now t)
include hrows

/-- The rows of the required types: one for each, and each is valid. -/
theorem required_rows (hnow : 0 ≤ now) (hrequired : required.Nodup)
    (hsnap : t.snapshot range cluster required now = .ok snap) :
    snap.resources.length = required.length ∧
      (∀ row ∈ snap.resources, row.gvr ∈ required ∧ validImpactCoverageRow row now = true) ∧
      (snap.resources.map ResourceCoverage.gvr).Nodup := by
  have hvalid : ∀ row ∈ snap.resources, validImpactCoverageRow row now = true := by
    intro row hrow
    obtain ⟨gvr, -, ⟨r, hr, rfl⟩ | ⟨-, rfl⟩⟩ := mem_snapshot_resources hsnap hrow
    · exact (hrows _ r hr).2 _
    · -- nothing is known about the type
      simp [validImpactCoverageRow, knownCoverageState, knownCoverageReasons, rowTimes, hnow]
  have hgvrs : (snap.resources.map ResourceCoverage.gvr).Perm required := by
    unfold CoverageTracker.snapshot at hsnap
    split_ifs at hsnap
    cases hsnap
    refine ((sortRows_perm _).map _).trans ?_
    rw [hrequired.dedup, List.map_map, List.map_congr_left (g := id), List.map_id]
    intro gvr _
    -- a row is about the type it was looked up for
    rcases requiredRow_cases t cluster now gvr with ⟨r, hr, hrow⟩ | ⟨-, hrow⟩
    · rw [Function.comp_apply, hrow]
      exact (hrows _ r hr).1
    · rw [Function.comp_apply, hrow]
      rfl
  refine ⟨?_, ?_, hgvrs.nodup_iff.mpr hrequired⟩
  · rw [← hgvrs.length_eq, List.length_map]
  · intro row hrow
    exact ⟨hgvrs.mem_iff.mp (List.mem_map_of_mem hrow), hvalid row hrow⟩

include hok

/-- The rows of a source are valid, one by one. -/
theorem valid_sourceRow (hsource : source ≠ .core) (hs : current t cluster source = some s)
    {row : ResourceCoverage} (hrow : row ∈ (t.snapshotSource range s now).resources) :
    validImpactSourceRow (t.snapshotSource range s now) now row = true ∧
      '/' ∉ row.group.toList ∧ '/' ∉ row.version.toList := by
  obtain ⟨gvr, r, hr, rfl⟩ := (mem_snapshotSource_resources range now hs).mp hrow
  obtain ⟨hgvr, hvalid⟩ := hrows _ r hr
  have hvalid := hvalid t.staleAfter
  -- the type was registered with the session
  have htype : SourceType gvr := by
    obtain ⟨row', hrow', -⟩ := Option.bind_eq_some_iff.mp hr
    rw [rowRef, hs] at hrow'
    obtain ⟨ref, -, hget⟩ := Option.bind_eq_some_iff.mp hs
    refine (hok.sessions s (List.mem_of_getElem? hget)).types ?_ gvr row' hrow'
    rw [source_of_current hok.wellFormed hs]
    exact hsource
  have hstate : ((t.snapshotSource range s now).state = .observed &&
      (r.snapshot now t.staleAfter).state ≠ .observed) = false := by
    rw [Bool.and_eq_false_iff]
    by_cases hobs : (t.snapshotSource range s now).state = .observed
    · exact Or.inr (by simpa using (observed_snapshotSource hobs).2.2.1 _ hrow)
    · exact Or.inl (by simpa using hobs)
  have hgvr : (r.snapshot now t.staleAfter).gvr = gvr := hgvr
  generalize r.snapshot now t.staleAfter = view at hgvr hvalid hstate
  subst hgvr
  have hplain := htype.plain
  refine ⟨?_, ?_⟩
  · unfold validImpactSourceRow
    rw [hvalid, hstate]
    have hkey : Strings.len view.sortKey ≤ 770 := by
      have hlength := htype.length
      simp only [ResourceCoverage.sortKey, Strings.len_append]
      have hslash : Strings.len "/" = 1 := by decide
      simp only [ResourceCoverage.gvr] at hlength
      omega
    have hgroup : view.group ≠ "" := htype.group
    have hversion : view.version ≠ "" := htype.version
    have hresource : view.resource ≠ "" := htype.resource
    have hchars : Strings.containsAny (view.group ++ view.version ++ view.resource)
        ['/', ':', '\x00'] = false := hplain
    simp [hkey, hgroup, hversion, hresource, hchars]
  · rw [Strings.containsAny_eq_false_iff] at hplain
    simp only [ResourceCoverage.gvr, String.toList_append, List.mem_append] at hplain
    refine ⟨fun hmem => ?_, fun hmem => ?_⟩
    · exact hplain '/' (Or.inl (Or.inl hmem)) (by simp)
    · exact hplain '/' (Or.inl (Or.inr hmem)) (by simp)

/-- No two rows of a source print alike. -/
theorem nodup_sourceKeys (range : MapOrder) (hsource : source ≠ .core)
    (hs : current t cluster source = some s) :
    ((t.snapshotSource range s now).resources.map ResourceCoverage.sortKey).Nodup := by
  have hgvrs : ((t.snapshotSource range s now).resources.map ResourceCoverage.gvr).Nodup := by
    show ((sortRows _).map ResourceCoverage.gvr).Nodup
    rw [((sortRows_perm _).map ResourceCoverage.gvr).nodup_iff, List.map_map]
    refine GoMap.nodup_map_values range _ fun gvr r hr => ?_
    refine (hrows ⟨cluster, source, gvr⟩ r ?_).1
    rw [GoMap.lookup_deref] at hr
    rw [rowAt, rowRef, hs]
    exact hr
  rw [List.nodup_map_iff_inj_on (hgvrs.of_map _)]
  intro a ha b hb hkey
  obtain ⟨hgroup, hversion⟩ := (valid_sourceRow hrows hok hsource hs ha).2
  obtain ⟨hgroup', hversion'⟩ := (valid_sourceRow hrows hok hsource hs hb).2
  exact List.inj_on_of_nodup_map hgvrs ha hb
    (gvr_eq_of_sortKey hgroup hgroup' hversion hversion' hkey)

/-- What a snapshot shows of a source passes every check. -/
theorem valid_source (hsource : source = .crd ∨ source = .gatekeeper)
    (hs : current t cluster source = some s) :
    validImpactSource cluster now (t.snapshotSource range s now) = true := by
  have hcore : source ≠ .core := by rcases hsource with rfl | rfl <;> simp
  obtain ⟨ref, href, hget⟩ := Option.bind_eq_some_iff.mp hs
  have hsession := hok.sessions s (List.mem_of_getElem? hget)
  have hname := source_of_current hok.wellFormed hs
  have hcluster : s.cluster = cluster := by
    obtain ⟨s', hs', hc, -⟩ := hok.wellFormed.filed cluster source ref href
    rw [hget] at hs'
    cases hs'
    exact hc
  have hgeneration : s.generation ≠ 0 := by
    have hgen : genAt t cluster source = some s.generation := by
      rw [genAt, hs]
      rfl
    have hpos := (hok.generations.current cluster source _ hgen).1
    intro hzero
    rw [hzero] at hpos
    exact absurd hpos (by decide)
  have hlength : (t.snapshotSource range s now).resources.length ≤ maxCoverageTypes := by
    show (sortRows _).length ≤ _
    rw [(sortRows_perm _).length_eq, List.length_map]
    exact Nat.le_trans (GoMap.length_values_deref_le range _ _) hsession.size
  have hknown := state_snapshotSource_known t range s now
  have hvalid : (t.snapshotSource range s now).resources.all
      (validImpactSourceRow (t.snapshotSource range s now) now) = true := by
    rw [List.all_eq_true]
    exact fun row hrow => (valid_sourceRow hrows hok hcore hs hrow).1
  have hnodup := nodup_sourceKeys hrows hok range hcore hs
  have hobserved := @observed_snapshotSource t range s now
  have hdiscovery : ((t.snapshotSource range s now).discovery.all
      (validImpactDiscovery (t.snapshotSource range s now) now)) = true := by
    show (s.discovery.map _).all _ = true
    rw [Option.all_eq_true]
    intro d hd
    obtain ⟨d₀, hd₀, rfl⟩ := Option.map_eq_some_iff.mp hd
    have hd := hsession.discovery d₀ hd₀
    have hrev : d₀.revision ≠ 0 := by
      intro hzero
      have hpos := hd.positive
      rw [hzero] at hpos
      exact absurd hpos (by decide)
    have hgate : (t.snapshotSource range s now).source = .gatekeeper := hd.source
    unfold validImpactDiscovery
    simp only [hgate, hd.known, hrev, hd.unknown, hd.checked, decide_true, Bool.and_true,
      Bool.not_eq_true', Bool.and_eq_true, ne_eq, not_false_eq_true, true_and]
    by_cases hobs : (t.snapshotSource range s now).state = .observed
    · obtain ⟨hadvertised, hfresh⟩ := (hobserved hobs).2.2.2 d₀ hd₀
      simp [hadvertised, hfresh]
    · simp [hobs]
  have hdoubt : ((t.snapshotSource range s now).state = .observed &&
      (s.limited || (t.snapshotSource range s now).resources.isEmpty)) = false := by
    by_cases hobs : (t.snapshotSource range s now).state = .observed
    · obtain ⟨hlimited, hrows, -⟩ := hobserved hobs
      simp [hlimited, hrows]
    · simp [hobs]
  have hnamed : (s.source = .crd || s.source = .gatekeeper) = true := by
    rw [hname]
    simpa using hsource
  have hfields : ((s.source = .crd || s.source = .gatekeeper) && s.cluster = cluster &&
      s.generation ≠ 0) = true := by
    rw [hnamed]
    simp [hcluster, hgeneration]
  unfold validImpactSource
  rw [hvalid, hknown, decide_eq_true hnodup, decide_eq_true hlength, hdiscovery]
  show ((s.source = .crd || s.source = .gatekeeper) && s.cluster = cluster &&
    s.generation ≠ 0 && true && true && true && !(_ && (s.limited || _)) && true && true) = true
  rw [hfields, hdoubt]
  rfl

/-- The sources are accepted, and already sorted. -/
theorem validateImpactSources_ok (hsnap : t.snapshot range cluster required now = .ok snap) :
    validateImpactSources snap = .ok snap := by
  have hvalid : ∀ src ∈ snap.sources, validImpactSource snap.clusterID snap.capturedAt src = true ∧
      sortRows src.resources = src.resources := by
    intro src hsrc
    obtain ⟨source, s, hsource, hs, rfl⟩ := mem_snapshot_sources hsnap hsrc
    rw [(scope_of_snapshot hsnap).1, (scope_of_snapshot hsnap).2]
    exact ⟨valid_source hrows hok hsource hs, sortRows_idem _⟩
  -- one source for each name, in the order of the names
  have hnames : (snap.sources.map fun src => src.source).Sublist [.crd, .gatekeeper] := by
    unfold CoverageTracker.snapshot at hsnap
    split_ifs at hsnap
    cases hsnap
    refine map_filterMap_sublist (fun source src hsrc => ?_) _
    obtain ⟨s, hs, rfl⟩ := Option.map_eq_some_iff.mp hsrc
    exact source_of_current hok.wellFormed hs
  have hsorted : snap.sources.Pairwise fun a b => a.source.text ≤ b.source.text := by
    have hall :
        List.Pairwise (fun a b : CoverageSource => a.text ≤ b.text) [.crd, .gatekeeper] := by decide
    have hpairwise := hall.sublist hnames
    rw [List.pairwise_map] at hpairwise
    exact hpairwise
  have hsame : (snap.sources.map fun src => { src with resources := sortRows src.resources })
      = snap.sources := by
    rw [List.map_congr_left (g := id), List.map_id]
    intro src hsrc
    show { src with resources := sortRows src.resources } = src
    rw [(hvalid src hsrc).2]
  unfold validateImpactSources
  rw [if_pos, hsame, hsorted.insertionSort_eq]
  simp only [Bool.and_eq_true, decide_eq_true_eq, List.all_eq_true]
  refine ⟨⟨?_, fun src hsrc => (hvalid src hsrc).1⟩, hnames.nodup (by decide)⟩
  have hlength := hnames.length_le
  rw [List.length_map] at hlength
  exact hlength

end

end Run

/-! ### Acceptance -/

/-- Honest evidence is never rejected: the snapshot of the required
types, taken between the two readings of the clock, is accepted and
returned as it is. -/
theorem readImpactCoverage_run (ext : Externals) (hprint : PrintsApart ext) (range : MapOrder)
    (staleAfter : Duration) (ops : List Op) (hlen : ops.length < 2 ^ 64) (cluster : String)
    (start now finish : Time) (hnow : 0 ≤ now) (hstart : start ≤ now) (hfinish : now ≤ finish)
    (hops : ∀ op ∈ ops, honest now op = true) (snap : CoverageSnapshot)
    (hsnap : (CoverageTracker.run ext staleAfter ops).snapshot range cluster
      (impactCoverageRequirements false) now = .ok snap) :
    readImpactCoverage ext (some fun cluster required =>
        (CoverageTracker.run ext staleAfter ops).snapshot range cluster required now)
      cluster start finish = .ok snap := by
  have hok := evidence_run hprint staleAfter hops hlen
  have hrows (κ : TypeKey) (r : CoverageResource)
      (hr : rowAt (.run ext staleAfter ops) κ = some r) := valid_row hops hlen hnow hr
  obtain ⟨hlength, hvalid, hnodup⟩ := required_rows hrows hnow (by decide) hsnap
  unfold readImpactCoverage
  simp only [hsnap]
  rw [if_pos, validateImpactSources_ok hrows hok hsnap]
  · exact validateImpactInventory_ok hok hnow hsnap
  · simp only [scope_of_snapshot hsnap, hstart, hfinish, hlength, decide_true, Bool.true_and,
      Bool.and_eq_true, decide_eq_true_eq, List.all_eq_true, List.contains_iff_mem]
    exact ⟨hvalid, hnodup⟩

/-- Externals for which a name is valid if it has no separator. -/
def separated : Externals where
  isDNS1123Subdomain s := !Strings.containsAny s ['/']
  isDNS1035Label s := !Strings.containsAny s ['/']
  isSpaceOrControl _ := false
  gvrString g := g.group ++ "/" ++ (g.version ++ "/" ++ g.resource)

theorem printsApart_separated : PrintsApart separated := by
  have hplain : ∀ r, validAPIResourceDescriptor separated r = true →
      '/' ∉ r.group.toList ∧ '/' ∉ r.version.toList := by
    intro r hr
    have hname : ∀ s, (!Strings.containsAny s ['/']) = true → '/' ∉ s.toList := by
      intro s hs hmem
      rw [Bool.not_eq_true', Strings.containsAny_eq_false_iff] at hs
      exact hs '/' hmem (List.mem_singleton_self _)
    unfold validAPIResourceDescriptor at hr
    simp only [Bool.and_eq_true, Bool.or_eq_true, decide_eq_true_eq] at hr
    obtain ⟨⟨⟨⟨⟨⟨hgroup, hversion⟩, -⟩, -⟩, -⟩, -⟩, -⟩ := hr
    refine ⟨?_, hname _ hversion⟩
    rcases hgroup with hempty | hgroup
    · rw [hempty]
      decide
    · exact hname _ hgroup
  intro a b ha hb heq
  obtain ⟨hgroup, hrest⟩ := Strings.append_slash_inj (hplain a ha).1 (hplain b hb).1 heq
  obtain ⟨hversion, hresource⟩ := Strings.append_slash_inj (hplain a ha).2 (hplain b hb).2 hrest
  exact GroupVersionResource.mk.injEq .. ▸ ⟨hgroup, hversion, hresource⟩

/-- A constraint of Gatekeeper. -/
def constraints : GroupVersionResource := ⟨"constraints.gatekeeper.sh", "v1beta1", "k8srequired"⟩

/-- The pods of a cluster are observed, a constraint type is
registered and advertised, and the API was listed. -/
def clusterRun : List Op :=
  relistRun ++
    [.beginSource "c" .gatekeeper 3, .beginType 1 constraints 4, .recordDiscovery 1 .advertised 5,
      .beginAPIInventory "c",
      .recordInventory 0 .complete [⟨"", "v1", "pods", "Pod", true, true, true⟩] false 6]

/-- The run leads to a source with evidence and to an inventory, and
its snapshot is accepted. -/
theorem readImpactCoverage_run_cluster :
    ((current (.run separated 0 clusterRun) "c" .gatekeeper).any (fun s =>
        s.discovery.isSome && s.resources.size = 1) = true ∧
      (CoverageTracker.run separated 0 clusterRun).inventorySessions.any (fun e =>
        !e.resources.isEmpty) = true) ∧
      ∃ snap, readImpactCoverage separated (some fun cluster required =>
          (CoverageTracker.run separated 0 clusterRun).snapshot RangeOrder.inserted cluster
            required 9) "c" 8 10 = .ok snap := by
  obtain ⟨snap, hsnap⟩ : ∃ snap, (CoverageTracker.run separated 0 clusterRun).snapshot
      RangeOrder.inserted "c" (impactCoverageRequirements false) 9 = .ok snap := by
    unfold CoverageTracker.snapshot
    exact ⟨_, rfl⟩
  exact ⟨by decide +kernel, snap, readImpactCoverage_run separated printsApart_separated
    RangeOrder.inserted 0 clusterRun (by decide) "c" 8 9 10 (by decide) (by decide) (by decide)
    (by decide) snap hsnap⟩

/-- One invalid row is enough to reject an observation. -/
theorem rejected_of_row {ext : Externals} {provide : CoverageProvider} {cluster : String}
    {start finish : Time} {snap : CoverageSnapshot} {row : ResourceCoverage}
    (hsnap : provide cluster (impactCoverageRequirements false) = .ok snap)
    (hrow : row ∈ snap.resources) (hinvalid : validImpactCoverageRow row snap.capturedAt = false) :
    readImpactCoverage ext (some provide) cluster start finish = .error .invalid := by
  unfold readImpactCoverage
  simp only [hsnap]
  rw [if_neg]
  simp only [Bool.and_eq_true, List.all_eq_true]
  rintro ⟨⟨-, hall⟩, -⟩
  have hvalid := (hall row hrow).2
  rw [hinvalid] at hvalid
  contradiction

/-- After `2 ^ 64 - 4` more list results the revision of an observed
row is zero, and the whole observation is rejected. -/
theorem wrapped_revision_rejected :
    ∃ ops, (∀ op ∈ ops, honest 9 op = true) ∧
      readImpactCoverage plainExternals (some fun cluster required =>
          (CoverageTracker.run plainExternals 0 ops).snapshot RangeOrder.inserted cluster
            required 9) "c" 8 10 = .error .invalid := by
  refine ⟨relistRun ++ List.replicate (2 ^ 64 - 4) relist, ?_, ?_⟩
  · intro op hop
    rcases List.mem_append.mp hop with hstart | hagain
    · have hfirst : ∀ op ∈ relistRun, honest 9 op = true := by decide
      exact hfirst op hstart
    · rw [List.eq_of_mem_replicate hagain]
      decide
  · have hzero : CoverageTracker.run plainExternals 0
        (relistRun ++ List.replicate (2 ^ 64 - 4) relist) = relisted 0 := by
      have hstart : CoverageTracker.run plainExternals 0 relistRun = relisted 4 := rfl
      rw [run_append, hstart, relisted_replicate]
      rfl
    rw [hzero]
    obtain ⟨snap, hsnap, hcaptured, hrow⟩ : ∃ snap, (relisted 0).snapshot RangeOrder.inserted "c"
        (impactCoverageRequirements false) 9 = .ok snap ∧ snap.capturedAt = 9 ∧
          { podRow with continuityRevision := 0 } ∈ snap.resources := by
      exact ⟨_, rfl, rfl, mem_sortRows.mpr (List.mem_map.mpr ⟨pods, by decide, rfl⟩)⟩
    refine rejected_of_row hsnap hrow ?_
    rw [hcaptured]
    decide

end KubeAtlas.Proofs.Coverage
