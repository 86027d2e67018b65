import KubeAtlas.Analysis.Observation
import KubeAtlas.Proofs.Coverage.Soundness

/-!
# `KubeAtlas.Proofs.Coverage.ValidRows`: honest rows pass validation

The validator and the tracker are written in different packages and
agree on the meaning of a row only by convention. `RowShape` is the
convention: which reasons a row can hold at a time, that a connected
watch has no gap, that a row has a start. Every event keeps it.
Together with bounds on the times and the revision it makes each
snapshot of the row valid (`valid_snapshot`).
-/

set_option autoImplicit false

namespace KubeAtlas.Proofs.Coverage

open Lib.EventLog Operations Analysis

/-! ### The shape of a row -/

/-- The reasons for which a watch can be missing. -/
def watchReasons : List CoverageReason := [.watchPending, .watchClosed, .watchFailed, .watchDenied]

/-- What the fields of a row have to do with each other. -/
structure RowShape (r : CoverageResource) : Prop where
  list : r.listReason = .unset ∨ r.listReason = .listFailed ∨ r.listReason = .listDenied
  watch : r.watchReason = .unset ∨ r.watchReason ∈ watchReasons
  disconnected : r.stopped = false → r.watchEstablished = false → r.watchReason ∈ watchReasons
  connected : r.watchEstablished = true → r.watchGapSince = 0
  since : r.since ≠ 0

/-- A new row has the shape, whatever was there before it. -/
theorem rowShape_fresh (gvr : GroupVersionResource) {now : Time} (hnow : now ≠ 0)
    (revision : UInt64) (old : Option CoverageResource) :
    RowShape (.fresh gvr now revision old) where
  list := Or.inl rfl
  watch := Or.inr (by simp [CoverageResource.fresh, watchReasons])
  disconnected _ _ := by simp [CoverageResource.fresh, watchReasons]
  connected h := absurd h (by simp [CoverageResource.fresh])
  since := hnow

theorem endReason_mem (reason : CoverageReason) :
    CoverageResource.endReason reason ∈ watchReasons := by
  unfold CoverageResource.endReason
  split
  · simp [watchReasons]
  · rename_i h
    cases reason <;> simp_all [watchReasons]

namespace RowShape

variable {r : CoverageResource}

/-- A row that has stopped owes no reason for its missing watch. -/
theorem of_stopped {r' : CoverageResource} (h : RowShape r) (hlist : r'.listReason = r.listReason)
    (hwatch : r'.watchReason = r.watchReason) (hstopped : r'.stopped = true)
    (hconnected : r'.watchEstablished = false) (hsince : r'.since = r.since) : RowShape r' where
  list := hlist ▸ h.list
  watch := hwatch ▸ h.watch
  disconnected hlive := absurd hlive (by simp [hstopped])
  connected hest := absurd hest (by simp [hconnected])
  since := hsince ▸ h.since

/-- Step: a delivery keeps it. -/
theorem deliver (h : RowShape r) : RowShape r.deliver := by
  unfold CoverageResource.deliver
  split
  · exact h
  · exact ⟨h.list, h.watch, h.disconnected, h.connected, h.since⟩

/-- Step: so does the outcome of a list. -/
theorem listed (h : RowShape r) (success denied : Bool) (now : Time) :
    RowShape (r.listed success denied now) := by
  cases success with
  | true => exact ⟨Or.inl rfl, h.watch, h.disconnected, h.connected, h.since⟩
  | false =>
    cases denied with
    | true => exact ⟨Or.inr (Or.inr rfl), h.watch, h.disconnected, h.connected, h.since⟩
    | false => exact ⟨Or.inr (Or.inl rfl), h.watch, h.disconnected, h.connected, h.since⟩

/-- Step: and the beginning of a stream. -/
theorem watching (h : RowShape r) : RowShape r.watching :=
  ⟨h.list, Or.inl rfl, fun _ hest => absurd hest (by simp [CoverageResource.watching]),
    fun _ => rfl, h.since⟩

/-- Step: and its end, for a reason that the validator knows. -/
theorem watchOver (h : RowShape r) (epoch : UInt64) {reason : CoverageReason}
    (hreason : reason ∈ watchReasons) (now : Time) :
    RowShape (r.watchOver epoch reason now) := by
  unfold CoverageResource.watchOver
  split
  · exact h
  · -- the reason of before is only kept if there was one
    have hkept : (if reason ≠ .watchClosed || r.watchReason = .unset ||
        r.watchReason = .watchPending then reason else r.watchReason) ∈ watchReasons := by
      split
      · exact hreason
      · rename_i hkeep
        simp only [Bool.or_eq_true, decide_eq_true_eq, not_or] at hkeep
        exact h.watch.resolve_left hkeep.1.2
    exact ⟨h.list, Or.inr hkept, fun _ _ => hkept, fun hest => absurd hest (by simp), h.since⟩

/-- Step: and a gap. -/
theorem gapped (h : RowShape r) (reason : CoverageReason) (now : Time) :
    RowShape (r.gapped reason now) := by
  unfold CoverageResource.gapped
  split <;> split <;>
    first | exact h | exact ⟨h.list, h.watch, h.disconnected, h.connected, h.since⟩

end RowShape

variable {e : RowEvent} {r' : CoverageResource} {old : Option CoverageResource}
  {gvr : GroupVersionResource}

/-- Every event keeps the shape. -/
theorem rowShape_apply (henabled : e.Enabled old) (hold : ∀ r, old = some r → RowShape r)
    (happly : e.apply gvr old = some r') :
    RowShape r' := by
  cases e with
  | registered now =>
    cases happly
    exact rowShape_fresh gvr henabled _ old
  | typeRegistered now =>
    cases happly
    exact rowShape_fresh gvr henabled.1 _ old
  | retired | stopped =>
    obtain ⟨r, hr, rfl⟩ := Option.map_eq_some_iff.mp happly
    exact (hold r hr).of_stopped rfl rfl rfl rfl rfl
  | delivered =>
    obtain ⟨r, hr, rfl⟩ := Option.map_eq_some_iff.mp happly
    exact (hold r hr).deliver
  | listed success denied now =>
    obtain ⟨r, hr, rfl⟩ := Option.map_eq_some_iff.mp happly
    exact (hold r hr).listed success denied now
  | watchStarted epoch =>
    obtain ⟨r, hr, rfl⟩ := Option.map_eq_some_iff.mp happly
    exact (hold r hr).watching
  | watchEnded epoch reason now =>
    obtain ⟨r, hr, rfl⟩ := Option.map_eq_some_iff.mp happly
    exact (hold r hr).watchOver epoch (endReason_mem reason) now
  | gap reason now =>
    obtain ⟨r, hr, rfl⟩ := Option.map_eq_some_iff.mp happly
    exact (hold r hr).gapped reason now

variable {r : CoverageResource} {h : List RowEvent}

/-- Run: every row with a history has the shape. -/
theorem rowShape_of_trace (htrace : RowTrace gvr none h (some r)) : RowShape r :=
  Trace.inv (P := fun row => ∀ r, row = some r → RowShape r) (by simp)
    (fun _ _ henabled hold _ happly => rowShape_apply henabled hold happly) htrace r rfl

/-! ### Times -/

/-- No time of the row is later than the bound. -/
structure TimesLe (bound : Time) (r : CoverageResource) : Prop where
  since : r.since ≤ bound
  list : r.lastListSuccess ≤ bound
  watch : r.watchGapSince ≤ bound
  processing : r.processingGapSince ≤ bound
  extraction : r.extractionGapSince ≤ bound
  persistence : r.persistenceGapSince ≤ bound

theorem setOnce_le {stamp now bound : Time} (hstamp : stamp ≤ bound) (hnow : now ≤ bound) :
    CoverageResource.setOnce stamp now ≤ bound := by
  unfold CoverageResource.setOnce
  split
  · exact hnow
  · exact hstamp

/-- Every event keeps the bound, if its own time does. -/
theorem timesLe_apply {bound : Time} (hbound : 0 ≤ bound)
    (hstamp : ∀ now, e.stamp = some now → now ≤ bound) (hold : ∀ r, old = some r → TimesLe bound r)
    (happly : e.apply gvr old = some r') :
    TimesLe bound r' := by
  -- a new registration takes over the gaps, or starts without
  have hfresh : ∀ {now revision}, now ≤ bound →
      TimesLe bound (.fresh gvr now revision old) := by
    intro now revision hnow
    cases old with
    | none => exact ⟨hnow, hbound, hbound, hbound, hbound, hbound⟩
    | some r =>
      have hr := hold r rfl
      exact ⟨hnow, hbound, hbound, hr.processing, hr.extraction, hr.persistence⟩
  cases e with
  | registered now | typeRegistered now =>
    cases happly
    exact hfresh (hstamp now rfl)
  | retired now | stopped now =>
    obtain ⟨r, hr, rfl⟩ := Option.map_eq_some_iff.mp happly
    have hr := hold r hr
    exact ⟨hr.since, hr.list, setOnce_le hr.watch (hstamp now rfl), hr.processing, hr.extraction,
      hr.persistence⟩
  | delivered =>
    obtain ⟨r, hr, rfl⟩ := Option.map_eq_some_iff.mp happly
    have hr := hold r hr
    unfold CoverageResource.deliver
    split
    · exact hr
    · exact ⟨hr.since, hr.list, hr.watch, hr.processing, hr.extraction, hr.persistence⟩
  | listed success denied now =>
    obtain ⟨r, hr, rfl⟩ := Option.map_eq_some_iff.mp happly
    have hr := hold r hr
    cases success with
    | true =>
      exact ⟨hr.since, hstamp now rfl, hr.watch, hr.processing, hr.extraction, hr.persistence⟩
    | false =>
      cases denied <;>
        exact ⟨hr.since, hr.list, hr.watch, hr.processing, hr.extraction, hr.persistence⟩
  | watchStarted epoch =>
    obtain ⟨r, hr, rfl⟩ := Option.map_eq_some_iff.mp happly
    have hr := hold r hr
    exact ⟨hr.since, hr.list, hbound, hr.processing, hr.extraction, hr.persistence⟩
  | watchEnded epoch reason now =>
    obtain ⟨r, hr, rfl⟩ := Option.map_eq_some_iff.mp happly
    have hr := hold r hr
    unfold CoverageResource.watchOver
    split
    · exact hr
    · exact ⟨hr.since, hr.list, setOnce_le hr.watch (hstamp now rfl), hr.processing,
        hr.extraction, hr.persistence⟩
  | gap reason now =>
    obtain ⟨r, hr, rfl⟩ := Option.map_eq_some_iff.mp happly
    have hr := hold r hr
    have hnow := hstamp now rfl
    unfold CoverageResource.gapped
    split <;> split <;> first
      | exact hr
      | exact ⟨hr.since, hr.list, hr.watch, hnow, hr.extraction, hr.persistence⟩
      | exact ⟨hr.since, hr.list, hr.watch, hr.processing, hnow, hr.persistence⟩
      | exact ⟨hr.since, hr.list, hr.watch, hr.processing, hr.extraction, hnow⟩

/-- Run: no time of a row is later than the times of its events. -/
theorem timesLe_of_trace {bound : Time} (hbound : 0 ≤ bound) {row : Option CoverageResource}
    (htrace : RowTrace gvr none h row)
    (hstamps : ∀ e ∈ h, ∀ now, e.stamp = some now → now ≤ bound) :
    ∀ r, row = some r → TimesLe bound r := by
  induction htrace with
  | nil => simp
  | cons e before enabled ih =>
    have hold := ih fun x hx => hstamps x (List.mem_cons_of_mem _ hx)
    intro r' happly
    exact timesLe_apply hbound (hstamps e List.mem_cons_self) hold happly

/-! ### Snapshots of a row -/

theorem knownCoverageState_snapshot (r : CoverageResource) (now : Time) (staleAfter : Duration) :
    knownCoverageState (r.snapshotState now staleAfter) = true := by
  unfold CoverageResource.snapshotState CoverageResource.watchState
  split_ifs <;> rfl

/-- All reasons at once, with one for the list and one for the
watch. -/
def fullReasons (list watch : CoverageReason) : List CoverageReason :=
  [.initialPending, list, watch, .processingFailed, .extractionFailed, .persistenceFailed]

/-- The reasons of a row are some of these, in their order. -/
theorem snapshotReasons_sublist (hshape : RowShape r) :
    ∃ list ∈ [CoverageReason.listFailed, .listDenied], ∃ watch ∈ .collectorStopped :: watchReasons,
      r.snapshotReasons.Sublist (fullReasons list watch) := by
  have hlist : ∃ list ∈ [CoverageReason.listFailed, .listDenied],
      (if r.listReason ≠ .unset then [r.listReason] else []).Sublist [list] := by
    rcases hshape.list with h | h | h <;> rw [h]
    · exact ⟨.listFailed, by decide, List.nil_sublist _⟩
    · exact ⟨.listFailed, by decide, List.Sublist.refl _⟩
    · exact ⟨.listDenied, by decide, List.Sublist.refl _⟩
  have hwatch : ∃ watch ∈ .collectorStopped :: watchReasons,
      (if r.stopped then [CoverageReason.collectorStopped]
        else if r.watchEstablished then [] else [r.watchReason]).Sublist [watch] := by
    split
    · exact ⟨.collectorStopped, List.mem_cons_self, List.Sublist.refl _⟩
    · rename_i hstopped
      split
      · exact ⟨.collectorStopped, List.mem_cons_self, List.nil_sublist _⟩
      · rename_i hestablished
        have hmem := hshape.disconnected (by simpa using hstopped) (by simpa using hestablished)
        exact ⟨r.watchReason, List.mem_cons_of_mem _ hmem, List.Sublist.refl _⟩
  have hone : ∀ (p : Prop) [Decidable p] (reason : CoverageReason),
      (if p then [] else [reason]).Sublist [reason] := by
    intro p _ reason
    split
    · exact List.nil_sublist _
    · exact List.Sublist.refl _
  obtain ⟨list, hl, hlist⟩ := hlist
  obtain ⟨watch, hw, hwatch⟩ := hwatch
  refine ⟨list, hl, watch, hw, ?_⟩
  exact (((((hone _ _).append hlist).append hwatch).append (hone _ _)).append (hone _ _)).append
    (hone _ _)

theorem fullReasons_known : ∀ list ∈ [CoverageReason.listFailed, .listDenied],
    ∀ watch ∈ .collectorStopped :: watchReasons,
      (∀ reason ∈ fullReasons list watch, reason ∈ knownCoverageReasons) ∧
        (fullReasons list watch).Nodup := by
  decide

/-- The reasons of a row are known and come at most once. -/
theorem snapshotReasons_known (hshape : RowShape r) :
    (∀ reason ∈ r.snapshotReasons, reason ∈ knownCoverageReasons) ∧ r.snapshotReasons.Nodup ∧
      r.snapshotReasons.length ≤ 6 := by
  obtain ⟨list, hl, watch, hw, hsub⟩ := snapshotReasons_sublist hshape
  obtain ⟨hknown, hnodup⟩ := fullReasons_known list hl watch hw
  exact ⟨fun reason hmem => hknown reason (hsub.subset hmem), hsub.nodup hnodup, hsub.length_le⟩

/-- An observed row gives no reason. -/
theorem snapshotReasons_of_observed {now : Time} {staleAfter : Duration}
    (h : r.snapshotState now staleAfter = .observed) : r.snapshotReasons = [] := by
  obtain ⟨hdone, hlist, hstopped, hwatch, hgaps⟩ := fields_of_observed h
  unfold gapFields at hgaps
  simp only [Prod.mk.injEq] at hgaps
  unfold CoverageResource.snapshotReasons
  simp [hdone, hlist, hstopped, hwatch, hgaps.1, hgaps.2.1, hgaps.2.2]

/-- Every snapshot of an honest row is valid. -/
theorem valid_snapshot {now : Time} (hshape : RowShape r) (htimes : TimesLe now r)
    (hrev : r.continuityRevision ≠ 0) (staleAfter : Duration) :
    validImpactCoverageRow (r.snapshot now staleAfter) now = true := by
  obtain ⟨hknown, hnodup, hlen⟩ := snapshotReasons_known hshape
  have hreasons : (r.snapshot now staleAfter).reasons = r.snapshotReasons := rfl
  have hstate : (r.snapshot now staleAfter).state = r.snapshotState now staleAfter := rfl
  have hall : (rowTimes (r.snapshot now staleAfter)).all (fun stamp => stamp ≤ now) = true := by
    simp [rowTimes, CoverageResource.snapshot, htimes.since, htimes.list, htimes.watch,
      htimes.processing, htimes.extraction, htimes.persistence]
  have hobserved : ((r.snapshot now staleAfter).state = .observed &&
      contradictsObserved (r.snapshot now staleAfter)) = false := by
    rw [hstate]
    by_cases hobs : r.snapshotState now staleAfter = .observed
    · -- the fields that made it observed are the ones that are looked at
      obtain ⟨hdone, -, -, hwatch, hgaps⟩ := fields_of_observed hobs
      unfold gapFields at hgaps
      simp only [Prod.mk.injEq] at hgaps
      unfold contradictsObserved
      rw [hreasons, snapshotReasons_of_observed hobs]
      simp [CoverageResource.snapshot, hdone, hwatch, hshape.since, hrev,
        hshape.connected hwatch, hgaps.1, hgaps.2.1, hgaps.2.2]
    · simp [hobs]
  unfold validImpactCoverageRow
  rw [hall, hobserved, hreasons, hstate, knownCoverageState_snapshot]
  simp only [Bool.true_and, Bool.and_true, Bool.not_false, Bool.and_eq_true, decide_eq_true_eq,
    List.all_eq_true, List.contains_iff_mem]
  exact ⟨⟨Nat.le_trans hlen (by decide), hknown⟩, hnodup⟩

end KubeAtlas.Proofs.Coverage
