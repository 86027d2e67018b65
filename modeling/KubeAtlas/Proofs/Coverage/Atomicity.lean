import Mathlib.Data.List.ProdSigma
import KubeAtlas.Proofs.Coverage.Capacity

/-!
# `KubeAtlas.Proofs.Coverage.Atomicity`: registrations that fail

A registration that fails changes nothing, with one exception: a
type that did not fit marks its session as limited. `marked P t` is
the tracker `t` with the sessions of `P` marked as well. Nothing but
a snapshot reads the mark, except `begin`, which copies it to the
session that takes over. So an operation on a marked tracker is the
operation on the tracker itself, marked again (`Marks.step`), and a
snapshot of the two differs in the mark of one source
(`Marks.snapshot`).

`tracker_bounded_and_atomic` puts this together with the bounds.
-/

set_option autoImplicit false

namespace KubeAtlas.Proofs.Coverage

open Lib Operations
open Operations.CoverageTracker (Op)

variable {t t' : CoverageTracker}

/-! ### Marks -/

/-- The session, marked as limited if `b` says so. -/
def flagged (b : Bool) (s : CoverageSession) : CoverageSession :=
  { s with limited := s.limited || b }

/-- The tracker with the sessions of `P` marked as limited. -/
def marked (P : SessionRef → Bool) (t : CoverageTracker) : CoverageTracker :=
  { t with sessions := t.sessions.mapIdx fun ref s => flagged (P ref) s }

variable {P : SessionRef → Bool}

section

variable (P : SessionRef → Bool) (t : CoverageTracker)

theorem getElem?_marked (ref : SessionRef) :
    (marked P t).sessions[ref]? = t.sessions[ref]?.map (flagged (P ref)) :=
  List.getElem?_mapIdx

theorem length_marked :
    (marked P t).sessions.length = t.sessions.length :=
  List.length_mapIdx

theorem activeLocked_marked (ref : SessionRef) (b : Bool) (s : CoverageSession) :
    (marked P t).activeLocked ref (flagged b s) = t.activeLocked ref s := by
  unfold CoverageTracker.activeLocked
  simp only [getElem?_marked, Option.any_map]
  rfl

theorem ownsTypeLocked_marked (b : Bool)
    (s : CoverageSession) (gvr : GroupVersionResource) (row : RowRef) :
    (marked P t).ownsTypeLocked (flagged b s) gvr row = t.ownsTypeLocked s gvr row := by
  have hparent : (flagged b s).parent = s.parent := rfl
  unfold CoverageTracker.ownsTypeLocked
  rw [hparent]
  cases s.parent with
  | none => rfl
  | some parent =>
    simp only [getElem?_marked, Option.any_map]
    rfl

theorem target_marked (ref : SessionRef)
    (gvr : GroupVersionResource) : (marked P t).target ref gvr = t.target ref gvr := by
  unfold CoverageTracker.target
  rw [getElem?_marked]
  cases t.sessions[ref]? with
  | none => rfl
  | some s =>
    simp only [Option.map_some, activeLocked_marked, ownsTypeLocked_marked]
    rfl

end

variable {f : CoverageSession → CoverageSession}

section

variable (P : SessionRef → Bool)

theorem modify_mapIdx_flagged (l : List CoverageSession) (ref : SessionRef)
    (hf : ∀ b s, f (flagged b s) = flagged b (f s)) :
    (l.mapIdx fun i s => flagged (P i) s).modify ref f
      = (l.modify ref f).mapIdx fun i s => flagged (P i) s := by
  apply List.ext_getElem?
  intro i
  rw [List.getElem?_modify, List.getElem?_mapIdx, List.getElem?_mapIdx, List.getElem?_modify]
  cases l[i]? with
  | none => rfl
  | some s => by_cases hi : ref = i <;> simp [hi, hf]

section

variable (t : CoverageTracker)

/-- A session that is changed in something else is changed under its
mark. -/
theorem modify_marked (ref : SessionRef)
    (hf : ∀ b s, f (flagged b s) = flagged b (f s)) (rows : List CoverageResource) :
    { marked P t with sessions := (marked P t).sessions.modify ref f, rows := rows }
      = marked P { t with sessions := t.sessions.modify ref f, rows := rows } := by
  show { t with sessions := (t.sessions.mapIdx _).modify ref f, rows := rows } = _
  rw [modify_mapIdx_flagged P t.sessions ref hf]
  rfl

theorem update_marked (ref : SessionRef)
    (gvr : GroupVersionResource) (f : CoverageResource → CoverageResource) :
    (marked P t).update ref gvr f = marked P (t.update ref gvr f) := by
  unfold CoverageTracker.update
  rw [target_marked]
  cases t.target ref gvr <;> rfl

/-- Step: the flags of `P` commute with `stop`. -/
theorem stop_marked (ref : SessionRef)
    (now : Time) : (marked P t).stop ref now = marked P (t.stop ref now) := by
  unfold CoverageTracker.stop
  rw [getElem?_marked]
  cases t.sessions[ref]? with
  | none => rfl
  | some s =>
    simp only [Option.map_some, activeLocked_marked, ownsTypeLocked_marked]
    split
    · rfl
    · exact modify_marked P t ref (fun _ _ => rfl) _

/-- Step: and with the record of a discovery. -/
theorem recordDiscovery_marked (ref : SessionRef) (state : SourceDiscoveryState) (checked : Time) :
    ((marked P t).recordDiscovery ref state checked).1
      = marked P (t.recordDiscovery ref state checked).1 := by
  unfold CoverageTracker.recordDiscovery
  rw [getElem?_marked]
  cases t.sessions[ref]? with
  | none => rfl
  | some s =>
    simp only [Option.map_some, activeLocked_marked]
    show (if s.parent.isSome || s.source ≠ .gatekeeper || !validSourceDiscoveryState state ||
      (state = .unknown) ≠ checked.IsZero then _ else _ : CoverageTracker × _).1 = _
    split
    · rfl
    · split
      · rfl
      · exact modify_marked P t ref (fun _ _ => rfl) t.rows

theorem beginAPIInventory_marked (cluster : String) :
    ((marked P t).beginAPIInventory cluster).1 = marked P (t.beginAPIInventory cluster).1 := by
  have hfull : (marked P t).full cluster = t.full cluster := rfl
  unfold CoverageTracker.beginAPIInventory
  rw [hfull]
  split
  · rfl
  · split <;> rfl

/-- Step: and with that of an inventory. -/
theorem recordInventory_marked (ext : Externals)
    (ref : InventoryRef) (state : APIInventoryState) (resources : List APIResourceDescriptor)
    (limited : Bool) (checked : Time) :
    ((marked P t).recordInventory ext ref state resources limited checked).1
      = marked P (t.recordInventory ext ref state resources limited checked).1 := by
  have hsame : (marked P t).inventorySessions = t.inventorySessions := rfl
  unfold CoverageTracker.recordInventory
  rw [hsame]
  cases t.inventorySessions[ref]? with
  | none => rfl
  | some e =>
    cases CoverageTracker.recordable ext state resources limited checked with
    | none => rfl
    | some owned =>
      show (if e.stopped || t.inventories.lookup e.clusterID ≠ some ref then _
        else _ : CoverageTracker × _).1 = _
      simp only
      split <;> rfl

theorem stopInventory_marked (ref : InventoryRef) :
    (marked P t).stopInventory ref = marked P (t.stopInventory ref) := by
  have hsame : (marked P t).inventorySessions = t.inventorySessions := rfl
  unfold CoverageTracker.stopInventory
  rw [hsame]
  cases t.inventorySessions[ref]? with
  | none => rfl
  | some e =>
    show (if t.inventories.lookup e.clusterID = some ref then _ else _ : CoverageTracker) = _
    simp only
    split <;> rfl

end

end

/-- A token is new, so it has no mark. -/
theorem beginType_marked (t : CoverageTracker) (hnew : P t.sessions.length = false)
    (ref : SessionRef) (gvr : GroupVersionResource) (now : Time) :
    ((marked P t).beginType ref gvr now).1 = marked P (t.beginType ref gvr now).1 := by
  unfold CoverageTracker.beginType
  rw [getElem?_marked]
  cases t.sessions[ref]? with
  | none => rfl
  | some s =>
    simp only [Option.map_some, activeLocked_marked, length_marked]
    show (if s.source = .core || s.parent.isSome || !validCoverageScope s.cluster [gvr] ||
      now.IsZero || (gvr.group = "" && gvr.resource = "secrets") then _
      else _ : CoverageTracker × _).1 = _
    split
    · rfl
    · split
      · rfl
      · show (if ((s.resources.lookup gvr).bind fun row => t.rows[row]?).any fun r => !r.stopped
          then _
          else if ((s.resources.lookup gvr).bind fun row => t.rows[row]?).isNone &&
            maxCoverageTypes ≤ s.resources.size then _ else _ : CoverageTracker × _).1 = _
        split
        · rfl
        · split
          · exact modify_marked P t ref (fun _ _ => rfl) t.rows
          · show { t with rows := _, sessions := (t.sessions.mapIdx _).modify ref _ ++ _ } = _
            rw [modify_mapIdx_flagged P t.sessions ref (fun _ _ => rfl)]
            unfold marked
            simp [List.mapIdx_append, hnew, flagged]

/-- The marks after `begin` has opened a session: the new one has
the mark of the old one. -/
def inherit (P : SessionRef → Bool) (t : CoverageTracker) (cluster : String)
    (source : CoverageSource) (ref : SessionRef) : Bool :=
  if ref = t.sessions.length then (t.sessionLocked cluster source).any P else P ref

section

variable (P : SessionRef → Bool) (t : CoverageTracker) (cluster : String) (source : CoverageSource)

theorem current_marked :
    current (marked P t) cluster source
      = (current t cluster source).map (flagged ((t.sessionLocked cluster source).any P)) := by
  show ((t.sessionLocked cluster source).bind fun ref => (marked P t).sessions[ref]?) = _
  rw [current]
  cases t.sessionLocked cluster source with
  | none => rfl
  | some ref => exact getElem?_marked P t ref

theorem openedRows_marked (gvrs : List GroupVersionResource) (now : Time) :
    openedRows (marked P t) cluster source gvrs now = openedRows t cluster source gvrs now := by
  have hold : (current (marked P t) cluster source).map
        (fun s => s.resources.deref (marked P t).rows)
      = (current t cluster source).map fun s => s.resources.deref t.rows := by
    rw [current_marked, Option.map_map]
    rfl
  unfold openedRows
  rw [hold]

end

section

variable (hwf : WellFormed t) (cluster : String) (source : CoverageSource)
  (gvrs : List GroupVersionResource) (now : Time)
include hwf

/-- The session that takes over has the mark of the one before it. -/
theorem openedSession_marked :
    openedSession (marked P t) cluster source gvrs now
      = flagged ((t.sessionLocked cluster source).any P)
          (openedSession t cluster source gvrs now) := by
  unfold openedSession flagged
  rw [openedRows_marked, current_marked, current]
  congr 1
  -- a session that is filed exists, so its mark is read
  cases hlocked : t.sessionLocked cluster source with
  | none => rfl
  | some ref =>
    obtain ⟨s, hs, -⟩ := hwf.filed cluster source ref hlocked
    simp [hs, flagged]

/-- Step: a registration hands the flag of the session it replaces
on. -/
theorem opened_marked :
    opened (marked P t) cluster source gvrs now
      = marked (inherit P t cluster source) (opened t cluster source gvrs now) := by
  -- positions before the new session keep their marks
  have hold : t.sessions.mapIdx (fun ref s => flagged (inherit P t cluster source ref) s)
      = t.sessions.mapIdx fun ref s => flagged (P ref) s := by
    apply List.ext_getElem?
    intro i
    rw [List.getElem?_mapIdx, List.getElem?_mapIdx]
    cases hs : t.sessions[i]? with
    | none => rfl
    | some s =>
      have hlt := (List.getElem?_eq_some_iff.mp hs).1
      rw [inherit, if_neg (Nat.ne_of_lt hlt)]
  have hsessions : (marked P t).sessions ++ [openedSession (marked P t) cluster source gvrs now]
      = (t.sessions ++ [openedSession t cluster source gvrs now]).mapIdx
          fun ref s => flagged (inherit P t cluster source ref) s := by
    rw [List.mapIdx_append, hold, openedSession_marked hwf]
    simp [inherit, marked]
  unfold opened
  rw [hsessions, openedRows_marked, length_marked]
  rfl

end

/-- The marks of `P` belong to one source of one cluster, and its
current session has one. -/
structure Owned (cluster : String) (source : CoverageSource) (P : SessionRef → Bool)
    (t : CoverageTracker) : Prop where
  own : ∀ ref, P ref = true →
    ∃ s, t.sessions[ref]? = some s ∧ s.cluster = cluster ∧ s.source = source
  holder : ∃ ref, t.sessionLocked cluster source = some ref ∧ P ref = true

/-- The second tracker is the first with marks for one source of one
cluster. -/
def Marks (cluster : String) (source : CoverageSource) (t t' : CoverageTracker) : Prop :=
  ∃ P, t' = marked P t ∧ Owned cluster source P t

variable {cluster : String} {source : CoverageSource}

theorem Owned.new (h : Owned cluster source P t) : P t.sessions.length = false := by
  rw [← Bool.not_eq_true]
  intro hP
  obtain ⟨s, hs, -⟩ := h.own _ hP
  simp at hs

/-- Marks stay where they are as long as the current session does. -/
theorem Owned.evolves (h : Owned cluster source P t) (hevolves : Evolves t t')
    (hlocked : t'.sessionLocked cluster source = t.sessionLocked cluster source) :
    Owned cluster source P t' where
  own ref hP := by
    obtain ⟨s, hs, hcluster, hsource⟩ := h.own ref hP
    obtain ⟨s', hs', hcluster', hsource', -⟩ := hevolves.session ref s hs
    exact ⟨s', hs', hcluster'.trans hcluster, hsource'.trans hsource⟩
  holder := by
    rw [hlocked]
    exact h.holder

theorem Owned.opened (h : Owned cluster source P t) (hwf : WellFormed t) (cluster' : String)
    (source' : CoverageSource) (gvrs : List GroupVersionResource) (now : Time) :
    Owned cluster source (inherit P t cluster' source')
      (opened t cluster' source' gvrs now) where
  own ref hP := by
    unfold inherit at hP
    split at hP
    · -- the new session is marked because the one that it replaces is
      rename_i href
      obtain ⟨old, hold, hPold⟩ := (Option.any_eq_true _ _).mp hP
      obtain ⟨s, hs, hcluster, hsource, -⟩ := hwf.filed cluster' source' old hold
      obtain ⟨s', hs', hcluster', hsource'⟩ := h.own old hPold
      rw [hs] at hs'
      cases hs'
      refine ⟨openedSession t cluster' source' gvrs now, ?_, ?_, ?_⟩
      · rw [href]
        exact List.getElem?_concat_length
      · exact hcluster.symm.trans hcluster'
      · exact hsource.symm.trans hsource'
    · obtain ⟨s, hs, hbelongs⟩ := h.own ref hP
      have hlt := (List.getElem?_eq_some_iff.mp hs).1
      exact ⟨s, (List.getElem?_append_left hlt).trans hs, hbelongs⟩
  holder := by
    obtain ⟨ref, hlocked, hP⟩ := h.holder
    rw [sessionLocked_opened]
    split
    · rename_i hsame
      refine ⟨t.sessions.length, rfl, ?_⟩
      rw [inherit, if_pos rfl, ← hsame.1, ← hsame.2, hlocked]
      exact hP
    · refine ⟨ref, hlocked, ?_⟩
      obtain ⟨s, hs, -⟩ := h.own ref hP
      rw [inherit, if_neg (Nat.ne_of_lt (List.getElem?_eq_some_iff.mp hs).1)]
      exact hP

/-- An operation on both trackers keeps the difference. -/
theorem Marks.step (h : Marks cluster source t t') (hwf : WellFormed t) (ext : Externals)
    (op : Op) : Marks cluster source (t.step ext op) (t'.step ext op) := by
  obtain ⟨P, rfl, howned⟩ := h
  have hkeep : (marked P t).step ext op = marked P (t.step ext op) →
      (t.step ext op).sessionLocked cluster source = t.sessionLocked cluster source →
      Marks cluster source (t.step ext op) ((marked P t).step ext op) :=
    fun hmarked hlocked => ⟨P, hmarked, howned.evolves (evolves_step t ext op) hlocked⟩
  have hbegin : ∀ cluster' source' gvrs now,
      Marks cluster source (t.begin cluster' source' gvrs now).1
        ((marked P t).begin cluster' source' gvrs now).1 := by
    intro cluster' source' gvrs now
    have hfull : (marked P t).full cluster' = t.full cluster' := rfl
    rw [begin_eq, begin_eq, hfull, openedRows_marked]
    split
    · exact ⟨P, rfl, howned⟩
    · split
      · exact ⟨P, rfl, howned⟩
      · split
        · exact ⟨P, rfl, howned⟩
        · exact ⟨_, opened_marked hwf cluster' source' gvrs now,
            howned.opened hwf cluster' source' gvrs now⟩
  have hupdate : ∀ ref gvr f, Marks cluster source (t.update ref gvr f)
      ((marked P t).update ref gvr f) := by
    intro ref gvr f
    refine ⟨P, update_marked P t ref gvr f, howned.evolves ?_
      ((sameShape_update t ref gvr f).sessionLocked cluster source)⟩
    unfold CoverageTracker.update
    cases t.target ref gvr with
    | none => exact Evolves.refl t
    | some row => exact evolves_rows t _
  have haside : isAside op = true →
      (t.step ext op).sessionLocked cluster source = t.sessionLocked cluster source :=
    fun hop => (aside_step t ext hop).shape.sessionLocked cluster source
  cases op with
  | begin cluster' gvrs now => exact hbegin cluster' .core gvrs now
  | beginSource cluster' source' now =>
    show Marks cluster source (t.beginSource cluster' source' now).1
      ((marked P t).beginSource cluster' source' now).1
    unfold CoverageTracker.beginSource
    split
    · exact ⟨P, rfl, howned⟩
    · exact hbegin cluster' source' [] now
  | beginType ref gvr now =>
    refine hkeep (beginType_marked t howned.new ref gvr now) ?_
    show (t.beginType ref gvr now).1.sessionLocked cluster source = _
    rcases beginType_cases t ref gvr now with heq | ⟨s, -, heq⟩ | ⟨s, -, heq⟩ <;> rw [heq] <;>
      rfl
  | initialDeliveryComplete ref gvr | listResult ref gvr | watchStarted ref gvr
  | watchEnded ref gvr | recordGap ref gvr => exact hupdate ref gvr _
  | stop ref now =>
    refine hkeep (stop_marked P t ref now) ?_
    show (t.stop ref now).sessionLocked cluster source = _
    rcases stop_cases t ref now with ⟨heq, -⟩ | ⟨s, -, -, heq⟩ <;> rw [heq]
    rfl
  | recordDiscovery ref state checked =>
    exact hkeep (recordDiscovery_marked P t ref state checked) (haside rfl)
  | beginAPIInventory cluster' => exact hkeep (beginAPIInventory_marked P t cluster') (haside rfl)
  | recordInventory ref state resources limited checked =>
    exact hkeep (recordInventory_marked P t ext ref state resources limited checked) (haside rfl)
  | stopInventory ref => exact hkeep (stopInventory_marked P t ref) (haside rfl)

/-! ### Snapshots of marked sources -/

/-- What a mark does to the snapshot of its source: the flag is set,
and the state is partial at best. -/
def limitedSource (e : CoverageSourceSnapshot) : CoverageSourceSnapshot :=
  { e with
    inventoryLimited := true
    state := if coverageRank e.state < coverageRank .partially then .partially else e.state }

/-- What a mark does to a snapshot: only the entry of its source
changes. -/
def limitedIn (cluster : String) (source : CoverageSource) (snap : CoverageSnapshot) :
    CoverageSnapshot :=
  { snap with sources := snap.sources.map fun e =>
      if e.clusterID = cluster ∧ e.source = source then limitedSource e else e }

/-- A source that is limited is partial before discovery is looked
at, or after. -/
theorem state_limited (state : CoverageState) {limited : Bool} (hlimited : limited = true)
    (stopped unsure : Bool) :
    (let state :=
      if limited && coverageRank state < coverageRank .partially then .partially else state
     if unsure && coverageRank state < coverageRank .partially then .partially else state)
      = let state :=
          if stopped && coverageRank state < coverageRank .partially then .partially else state
        let state :=
          if unsure && coverageRank state < coverageRank .partially then .partially else state
        if coverageRank state < coverageRank .partially then .partially else state := by
  subst hlimited
  by_cases hlow : coverageRank state < coverageRank .partially
  · cases stopped <;> cases unsure <;> simp [hlow]
  · simp [hlow]

section

variable (P : SessionRef → Bool) (t : CoverageTracker)

/-- All that a snapshot sees of a flag is that the source is
limited. -/
theorem snapshotSource_marked (range : MapOrder) (b : Bool) (s : CoverageSession) (now : Time) :
    (marked P t).snapshotSource range (flagged b s) now
      = if b then limitedSource (t.snapshotSource range s now)
        else t.snapshotSource range s now := by
  cases b with
  | false =>
    have hsame : flagged false s = s := by simp [flagged]
    rw [hsame]
    rfl
  | true =>
    have hflag : ((flagged true s).limited || (flagged true s).stopped) = true := by
      rw [flagged, Bool.or_true, Bool.true_or]
    have hstate : ((marked P t).snapshotSource range (flagged true s) now).state
        = (limitedSource (t.snapshotSource range s now)).state := state_limited _ hflag _ _
    have hlimited : ((marked P t).snapshotSource range (flagged true s) now).inventoryLimited
        = true := Bool.or_true _
    show CoverageSourceSnapshot.mk _ _ _
      ((marked P t).snapshotSource range (flagged true s) now).state
      ((marked P t).snapshotSource range (flagged true s) now).inventoryLimited _ _ = _
    rw [hstate, hlimited]
    rfl

theorem requiredRow_marked (b : Bool) (session : Option CoverageSession) (now : Time) :
    (marked P t).requiredRow (session.map (flagged b)) now = t.requiredRow session now := by
  cases session <;> rfl

end

/-- The entry of a source in a snapshot of a marked tracker. -/
theorem Owned.entry (h : Owned cluster source P t) (hwf : WellFormed t) (range : MapOrder)
    (cluster' : String) (source' : CoverageSource) (now : Time) :
    (current (marked P t) cluster' source').map
        (fun s => (marked P t).snapshotSource range s now)
      = ((current t cluster' source').map fun s => t.snapshotSource range s now).map fun e =>
          if e.clusterID = cluster ∧ e.source = source then limitedSource e else e := by
  rw [current_marked, Option.map_map, Option.map_map, current]
  cases hlocked : t.sessionLocked cluster' source' with
  | none => rfl
  | some ref =>
    obtain ⟨s, hs, hcluster, hsource, -⟩ := hwf.filed cluster' source' ref hlocked
    -- the current session is marked exactly if it is the one of the source
    have hmark : P ref = true ↔ s.cluster = cluster ∧ s.source = source := by
      constructor
      · intro hP
        obtain ⟨s', hs', hbelongs⟩ := h.own ref hP
        rw [hs] at hs'
        cases hs'
        exact hbelongs
      · rintro ⟨hc, hsrc⟩
        obtain ⟨ref', hlocked', hP⟩ := h.holder
        rw [← hc, ← hsrc, hcluster, hsource, hlocked] at hlocked'
        cases hlocked'
        exact hP
    simp only [Option.bind_some, hs, Option.map_some, Function.comp, Option.any_some,
      snapshotSource_marked, hmark]
    rfl

/-- A snapshot of a marked tracker differs in the entry of the
marked source. -/
theorem Marks.snapshot (h : Marks cluster source t t') (hwf : WellFormed t) (range : MapOrder)
    (cluster' : String) (required : List GroupVersionResource) (now : Time) :
    t'.snapshot range cluster' required now
      = (t.snapshot range cluster' required now).map (limitedIn cluster source) := by
  obtain ⟨P, rfl, howned⟩ := h
  have hcore : (((marked P t).clusters.lookup cluster').bind fun ref => (marked P t).sessions[ref]?)
      = ((t.clusters.lookup cluster').bind fun ref => t.sessions[ref]?).map
          (flagged ((t.sessionLocked cluster' .core).any P)) := current_marked P t cluster' .core
  have hentry : ∀ source', (((marked P t).sessionLocked cluster' source').bind fun ref =>
        (marked P t).sessions[ref]?).map (fun s => (marked P t).snapshotSource range s now)
      = (((t.sessionLocked cluster' source').bind fun ref => t.sessions[ref]?).map fun s =>
          t.snapshotSource range s now).map fun e =>
            if e.clusterID = cluster ∧ e.source = source then limitedSource e else e :=
    fun source' => howned.entry hwf range cluster' source' now
  unfold CoverageTracker.snapshot
  split
  · rfl
  · split
    · rfl
    · simp only [hcore, hentry, requiredRow_marked, Except.map, limitedIn, List.map_filterMap,
        Option.map_map]
      rfl

/-- A marked source is in every snapshot of its cluster, with its
mark. -/
theorem Marks.noted (h : Marks cluster source t t') (hwf : WellFormed t)
    (hsource : source = .crd ∨ source = .gatekeeper) {range : MapOrder}
    {required : List GroupVersionResource} {now : Time} {snap : CoverageSnapshot}
    (hsnap : t'.snapshot range cluster required now = .ok snap) :
    ∃ e ∈ snap.sources, e.clusterID = cluster ∧ e.source = source ∧
      e.inventoryLimited = true := by
  rw [h.snapshot hwf] at hsnap
  obtain ⟨P, -, howned⟩ := h
  obtain ⟨ref, hlocked, -⟩ := howned.holder
  obtain ⟨s, hs, hcluster, hsrc, -⟩ := hwf.filed cluster source ref hlocked
  cases hplain : t.snapshot range cluster required now with
  | error err =>
    rw [hplain] at hsnap
    contradiction
  | ok plain =>
    rw [hplain] at hsnap
    cases hsnap
    have hentry : t.snapshotSource range s now ∈ plain.sources := by
      unfold CoverageTracker.snapshot at hplain
      split_ifs at hplain
      cases hplain
      refine List.mem_filterMap.mpr ⟨source, by simpa using hsource, ?_⟩
      rw [hlocked, Option.bind_some, hs, Option.map_some]
    refine ⟨limitedSource (t.snapshotSource range s now), ?_, hcluster, hsrc, rfl⟩
    exact List.mem_map.mpr ⟨_, hentry, if_pos ⟨hcluster, hsrc⟩⟩

/-! ### Failed registrations -/

variable {gvr : GroupVersionResource} {s : CoverageSession}

/-- A type that does not fit marks its session. -/
theorem TypeRefused.marks {ref : SessionRef} {now : Time} (h : TypeRefused t ref s gvr now) :
    Marks s.cluster s.source t (typeLimited t ref) := by
  refine ⟨fun i => decide (ref = i), ?_, ?_, ?_⟩
  · have hsessions : t.sessions.modify ref (fun s => { s with limited := true })
        = t.sessions.mapIdx fun i s => flagged (decide (ref = i)) s := by
      apply List.ext_getElem?
      intro i
      rw [List.getElem?_modify, List.getElem?_mapIdx]
      cases t.sessions[i]? with
      | none => rfl
      | some s' => by_cases hi : ref = i <;> simp [hi, flagged]
    unfold typeLimited marked
    rw [hsessions]
  · intro i hi
    exact ⟨s, of_decide_eq_true hi ▸ h.session, rfl, rfl⟩
  · refine ⟨ref, ?_, by simp⟩
    have howner := sessionLocked_of_active h.active
    rwa [h.top] at howner

/-- The registration is refused. -/
def Fails (t : CoverageTracker) : Op → Prop
  | .begin cluster gvrs now => ∃ err, (t.beginCore cluster gvrs now).2 = .error err
  | .beginSource cluster source now => ∃ err, (t.beginSource cluster source now).2 = .error err
  | .beginType ref gvr now => ∃ err, (t.beginType ref gvr now).2 = .error err
  | .beginAPIInventory cluster => ∃ err, (t.beginAPIInventory cluster).2 = .error err
  | _ => False

/-- A registration that fails changes nothing, or marks the source
of a type that did not fit. -/
theorem step_of_fails (ext : Externals) {op : Op} (hfails : Fails t op) :
    t.step ext op = t ∨ ∃ ref s gvr now, op = .beginType ref gvr now ∧
      TypeRefused t ref s gvr now := by
  have hbegin : ∀ {cluster source gvrs now},
      (∃ err, (t.begin cluster source gvrs now).2 = .error err) →
      (t.begin cluster source gvrs now).1 = t := by
    rintro cluster source gvrs now ⟨err, herr⟩
    rcases begin_cases t cluster source gvrs now with heq | ⟨-, heq⟩
    · rw [heq]
    · rw [heq] at herr
      contradiction
  cases op with
  | begin cluster gvrs now => exact Or.inl (hbegin hfails)
  | beginSource cluster source now =>
    obtain ⟨err, herr⟩ := hfails
    left
    show (t.beginSource cluster source now).1 = t
    rcases beginSource_cases t cluster source now with heq | ⟨-, heq⟩ <;> rw [heq] at herr ⊢
    exact hbegin ⟨err, herr⟩
  | beginType ref gvr now =>
    obtain ⟨err, herr⟩ := hfails
    rcases beginType_cases t ref gvr now with heq | ⟨s, hrefused, -⟩ | ⟨s, -, heq⟩
    · exact Or.inl (congrArg Prod.fst heq)
    · exact Or.inr ⟨ref, s, gvr, now, rfl, hrefused⟩
    · rw [heq] at herr
      contradiction
  | beginAPIInventory cluster =>
    obtain ⟨err, herr⟩ := hfails
    left
    show (t.beginAPIInventory cluster).1 = t
    rcases beginAPIInventory_cases t cluster with heq | ⟨-, heq⟩
    · rw [heq]
    · rw [heq] at herr
      contradiction
  | initialDeliveryComplete | listResult | watchStarted | watchEnded | recordGap | stop
  | recordDiscovery | recordInventory | stopInventory => contradiction

/-- The tracker after more operations. -/
def continued (ext : Externals) (t : CoverageTracker) (later : List Op) : CoverageTracker :=
  later.foldl (fun t op => t.step ext op) t

/-- Whatever happens next, no snapshot tells the two trackers apart. -/
def SameLater (ext : Externals) (t t' : CoverageTracker) : Prop :=
  ∀ later, SameSnapshots (continued ext t later) (continued ext t' later)

/-- Whatever happens next, snapshots differ in the entry of one
source, which is there and says that its inventory is limited. -/
structure LimitedLater (ext : Externals) (cluster : String) (source : CoverageSource)
    (t t' : CoverageTracker) : Prop where
  only : ∀ later range cluster' required now,
    (continued ext t' later).snapshot range cluster' required now
      = ((continued ext t later).snapshot range cluster' required now).map
          (limitedIn cluster source)
  noted : ∀ later range required now snap,
    (continued ext t' later).snapshot range cluster required now = .ok snap →
    ∃ e ∈ snap.sources, e.clusterID = cluster ∧ e.source = source ∧ e.inventoryLimited = true

theorem WellFormed.continued (hwf : WellFormed t) (ext : Externals) (later : List Op) :
    WellFormed (continued ext t later) :=
  List.foldlRecOn (motive := WellFormed) later _ hwf fun _ h op _ => h.step ext op

/-- Run: a mark stays, whatever operations come later. -/
theorem Marks.continued (h : Marks cluster source t t') (hwf : WellFormed t) (ext : Externals)
    (later : List Op) :
    Marks cluster source (continued ext t later) (continued ext t' later) := by
  induction later generalizing t t' with
  | nil => exact h
  | cons op later ih => exact ih (h.step hwf ext op) (hwf.step ext op)

theorem Marks.limitedLater (h : Marks cluster source t t') (hwf : WellFormed t)
    (hsource : source = .crd ∨ source = .gatekeeper) (ext : Externals) :
    LimitedLater ext cluster source t t' where
  only later := (h.continued hwf ext later).snapshot (hwf.continued ext later)
  noted later _ _ _ _ hsnap :=
    (h.continued hwf ext later).noted (hwf.continued ext later) hsource hsnap

/-- In every state that a tracker can reach, at most 128 clusters
and 256 types of a session are registered. A registration that fails
is seen by no later snapshot, unless a type did not fit: then its
source is limited from there on, also after it is registered again,
and nothing else changes. -/
theorem tracker_bounded_and_atomic (ext : Externals) (staleAfter : Duration) (ops : List Op) :
    let t := CoverageTracker.run ext staleAfter ops
    (registered t).card ≤ 128 ∧ (∀ s ∈ t.sessions, s.resources.size ≤ 256) ∧
      ∀ op, Fails t op →
        ((∀ ref s gvr now, op = .beginType ref gvr now → ¬ TypeRefused t ref s gvr now) →
          SameLater ext t (t.step ext op)) ∧
        ∀ ref s gvr now, op = .beginType ref gvr now → TypeRefused t ref s gvr now →
          LimitedLater ext s.cluster s.source t (t.step ext op) := by
  intro t
  have hwithin : Within t := within_run ext staleAfter ops
  have hwf : WellFormed t := wellFormed_run ext staleAfter ops
  refine ⟨hwithin.clusters, hwithin.types, ?_⟩
  intro op hfails
  constructor
  · intro hfits later
    rcases step_of_fails ext hfails with hsame | ⟨ref, s, gvr, now, hop, hrefused⟩
    · rw [hsame]
      exact (SameView.refl _).sameSnapshots
    · exact absurd hrefused (hfits ref s gvr now hop)
  · rintro ref s gvr now rfl hrefused
    have hstep : t.step ext (.beginType ref gvr now) = typeLimited t ref :=
      congrArg Prod.fst (beginType_of_refused hrefused)
    rw [hstep]
    have hknown := hwithin.known s (List.mem_of_getElem? hrefused.session)
    exact hrefused.marks.limitedLater hwf (hknown.resolve_left hrefused.source) ext

/-- The session `s` at position 0 can register all of `types`. -/
structure Registering (t : CoverageTracker) (s : CoverageSession)
    (types : List GroupVersionResource) : Prop where
  session : t.sessions[0]? = some s
  source : s.source ≠ .core
  top : s.parent = none
  active : t.activeLocked 0 s = true
  valid : ∀ gvr ∈ types, validCoverageScope s.cluster [gvr] = true ∧
    ¬ (gvr.group = "" ∧ gvr.resource = "secrets")
  fresh : ∀ gvr ∈ types, s.resources.lookup gvr = none
  distinct : types.Nodup
  room : s.resources.size + types.length ≤ maxCoverageTypes

variable {types : List GroupVersionResource}

/-- One type after another is registered, and the session holds them
all. -/
theorem Registering.continued (ext : Externals) {now : Time} (hnow : now ≠ 0)
    (h : Registering t s types) :
    ∃ s', Registering (continued ext t (types.map fun gvr => .beginType 0 gvr now)) s' [] ∧
      s'.cluster = s.cluster ∧ s'.source = s.source ∧
      s'.resources.size = s.resources.size + types.length ∧
      ∀ gvr ∉ types, s'.resources.lookup gvr = s.resources.lookup gvr := by
  induction types generalizing t s with
  | nil => exact ⟨s, h, rfl, rfl, rfl, fun _ _ => rfl⟩
  | cons gvr types ih =>
    have hnone := h.fresh gvr List.mem_cons_self
    have hvalid := h.valid gvr List.mem_cons_self
    have hroom := h.room
    rw [List.length_cons] at hroom
    have hopens : TypeOpens t 0 s gvr now :=
      ⟨h.session, h.source, h.top, hvalid.1, hnow, hvalid.2, h.active, by simp [hnone],
        fun _ => by omega⟩
    have hstep : t.step ext (.beginType 0 gvr now) = Coverage.typeOpened t 0 s gvr now :=
      congrArg Prod.fst (beginType_of_opens hopens)
    have hsession : (Coverage.typeOpened t 0 s gvr now).sessions[0]?
        = some { s with resources := s.resources.insert gvr t.rows.length } :=
      getElem?_typeOpened h.session
    have hsize : GoMap.size (AList.insert gvr t.rows.length s.resources)
        = s.resources.size + 1 := GoMap.size_insert_of_none hnone
    have hnext : Registering (Coverage.typeOpened t 0 s gvr now)
        { s with resources := s.resources.insert gvr t.rows.length } types :=
      { session := hsession
        source := h.source
        top := h.top
        active := by
          have hactive := h.active
          unfold CoverageTracker.activeLocked at hactive ⊢
          simp only [h.top, Option.getD_none, h.session, hsession] at hactive ⊢
          exact hactive
        valid := fun g hg => h.valid g (List.mem_cons_of_mem _ hg)
        fresh := by
          intro g hg
          have hne : g ≠ gvr := fun heq => (List.nodup_cons.mp h.distinct).1 (heq ▸ hg)
          show AList.lookup g (AList.insert gvr t.rows.length s.resources) = none
          rw [AList.lookup_insert_ne hne]
          exact h.fresh g (List.mem_cons_of_mem _ hg)
        distinct := (List.nodup_cons.mp h.distinct).2
        room := by
          show GoMap.size (AList.insert gvr t.rows.length s.resources) + _ ≤ _
          omega }
    obtain ⟨s', hs', hcluster, hsource, hcount, hother⟩ := ih hnext
    refine ⟨s', ?_, hcluster, hsource, ?_, ?_⟩
    · show Registering (Coverage.continued ext (t.step ext (.beginType 0 gvr now)) _) s' []
      rw [hstep]
      exact hs'
    · rw [List.length_cons]
      have hcount' : s'.resources.size
          = GoMap.size (AList.insert gvr t.rows.length s.resources) + types.length := hcount
      omega
    · intro g hg
      rw [List.mem_cons, not_or] at hg
      rw [hother g hg.2]
      exact AList.lookup_insert_ne hg.1

/-- A source that registers types, one after another. -/
def crowdedRun (types : List GroupVersionResource) : List Op :=
  .beginSource "c" .crd 1 :: types.map fun gvr => .beginType 0 gvr 2

/-- Once a source has 256 types, it has no room for one more. -/
theorem refused_of_crowded
    (hvalid : ∀ gvr ∈ types, validCoverageScope "c" [gvr] = true ∧ ¬ (gvr.group = "" ∧ gvr.resource
      = "secrets")) (hdistinct : types.Nodup) (hlength : types.length = maxCoverageTypes)
    (hnew : widgets ∉ types) :
    ∃ s, TypeRefused (.run plainExternals 0 (crowdedRun types)) 0 s widgets 3 ∧
      s.cluster = "c" ∧ s.source = .crd := by
  have hready : Registering (.run plainExternals 0 [.beginSource "c" .crd 1])
      { generation := 1, cluster := "c", source := .crd, resources := ∅ } types :=
    { session := rfl
      source := by decide
      top := rfl
      active := rfl
      valid := hvalid
      fresh := fun _ _ => rfl
      distinct := hdistinct
      room := by
        show 0 + types.length ≤ maxCoverageTypes
        omega }
  obtain ⟨s, hs, hcluster, hsource, hsize, hother⟩ :=
    hready.continued plainExternals (show (2 : Time) ≠ 0 by decide)
  refine ⟨s, ?_, hcluster, hsource⟩
  exact
    { session := hs.session
      source := hs.source
      top := hs.top
      scope := by
        rw [hcluster]
        decide
      time := by decide
      secret := by decide
      active := hs.active
      fresh := by
        rw [hother widgets hnew]
        rfl
      crowded := by omega }

/-- Sixteen names, and a type for each pair of them. -/
def shortNames : List String :=
  ["a", "b", "c", "d", "e", "f", "g", "h", "i", "j", "k", "l", "m", "n", "o", "p"]

def manyTypes : List GroupVersionResource :=
  (shortNames ×ˢ shortNames).map fun name => ⟨name.1, "v1", name.2⟩

theorem manyTypes_length : manyTypes.length = maxCoverageTypes := by
  rw [manyTypes, List.length_map, List.length_product]
  rfl

theorem manyTypes_nodup : manyTypes.Nodup := by
  have hnames : shortNames.Nodup := by decide
  refine (hnames.product hnames).map ?_
  rintro ⟨group, resource⟩ ⟨group', resource'⟩ heq
  simpa using heq

theorem mem_manyTypes (h : gvr ∈ manyTypes) :
    gvr.group ∈ shortNames ∧ gvr.version = "v1" ∧ gvr.resource ∈ shortNames := by
  obtain ⟨⟨group, resource⟩, hpair, rfl⟩ := List.mem_map.mp h
  have hnames := List.mem_product.mp hpair
  exact ⟨hnames.1, rfl, hnames.2⟩

theorem manyTypes_valid (h : gvr ∈ manyTypes) :
    validCoverageScope "c" [gvr] = true ∧ ¬ (gvr.group = "" ∧ gvr.resource = "secrets") := by
  have hname : ∀ name ∈ shortNames, name ≠ "" ∧ Strings.len name = 1 ∧
      Strings.containsAny name ['/', ':', '\x00'] = false := by decide
  obtain ⟨hgroup, hversion, hresource⟩ := mem_manyTypes h
  obtain ⟨hempty, hlen, hchars⟩ := hname _ hgroup
  obtain ⟨hempty', hlen', hchars'⟩ := hname _ hresource
  have hjoined : Strings.containsAny (gvr.group ++ "v1" ++ gvr.resource) ['/', ':', '\x00']
      = false := by
    unfold Strings.containsAny at hchars hchars' ⊢
    rw [String.toList_append, String.toList_append, List.any_append, List.any_append, hchars,
      hchars']
    rfl
  refine ⟨?_, fun hsecret => hempty hsecret.1⟩
  unfold validCoverageScope
  simp [hlen, hlen', hversion, hjoined, hempty', maxCoverageTypes]
  decide

/-- One more type is refused, and the source is limited from there
on. -/
theorem crowded_source_stays_limited :
    let t := CoverageTracker.run plainExternals 0 (crowdedRun manyTypes)
    Fails t (.beginType 0 widgets 3) ∧
      LimitedLater plainExternals "c" .crd t (t.step plainExternals (.beginType 0 widgets 3)) := by
  intro t
  have hnew : widgets ∉ manyTypes := fun hmem => absurd (mem_manyTypes hmem).1 (by decide)
  obtain ⟨s, hrefused, hcluster, hsource⟩ :=
    refused_of_crowded (fun _ => manyTypes_valid) manyTypes_nodup manyTypes_length hnew
  have hfails : Fails t (.beginType 0 widgets 3) :=
    ⟨.scope, congrArg Prod.snd (beginType_of_refused hrefused)⟩
  have hlater := ((tracker_bounded_and_atomic plainExternals 0 (crowdedRun manyTypes)).2.2 _
    hfails).2 0 s widgets 3 rfl hrefused
  rw [hcluster, hsource] at hlater
  exact ⟨hfails, hlater⟩

end KubeAtlas.Proofs.Coverage
