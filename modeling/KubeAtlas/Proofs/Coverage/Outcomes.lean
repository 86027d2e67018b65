import KubeAtlas.Operations.Coverage

/-!
# `KubeAtlas.Proofs.Coverage.Outcomes`: what each operation can do

Every operation of the tracker is refused and changes nothing, or
writes one thing. There is one lemma here for each operation: it
names the tracker that results and all the guards that were passed.
`Effect` puts them together, and the invariants of the tracker are
derived from it, without looking at the operations again.
-/

set_option autoImplicit false

namespace KubeAtlas.Proofs.Coverage

open Lib Operations
open Operations.CoverageTracker (Op)

variable {t : CoverageTracker}

/-- The current session of a cluster and source. -/
def current (t : CoverageTracker) (cluster : String) (source : CoverageSource) :
    Option CoverageSession :=
  (t.sessionLocked cluster source).bind fun ref => t.sessions[ref]?

/-! ### Sessions and types -/

/-- The rows of the session that `begin` opens. -/
def openedRows (t : CoverageTracker) (cluster : String) (source : CoverageSource)
    (gvrs : List GroupVersionResource) (now : Time) :
    GoMap GroupVersionResource CoverageResource :=
  let old := ((current t cluster source).map fun s => s.resources.deref t.rows).getD ∅
  (gvrs.foldl (fun acc gvr => acc.insert gvr (.fresh gvr now 0 (old.lookup gvr)))
    (old.mapValues (CoverageResource.carry now))).mapValues
      fun r => { r with continuityRevision := 1 }

/-- The session that `begin` opens. -/
def openedSession (t : CoverageTracker) (cluster : String) (source : CoverageSource)
    (gvrs : List GroupVersionResource) (now : Time) : CoverageSession :=
  { generation := t.nextGeneration + 1, cluster := cluster, source := source
    resources := (openedRows t cluster source gvrs now).addresses t.rows.length
    limited := (current t cluster source).any fun s => s.limited }

/-- The tracker after a successful `begin`. -/
def opened (t : CoverageTracker) (cluster : String) (source : CoverageSource)
    (gvrs : List GroupVersionResource) (now : Time) : CoverageTracker :=
  { t with
    nextGeneration := t.nextGeneration + 1
    rows := t.rows ++ (openedRows t cluster source gvrs now).stored
    sessions := t.sessions ++ [openedSession t cluster source gvrs now]
    clusters := if source = .core then t.clusters.insert cluster t.sessions.length else t.clusters
    sources := if source = .core then t.sources
      else t.sources.put cluster source t.sessions.length }

/-- When `begin` finds room for the cluster and its types. -/
structure Opens (t : CoverageTracker) (cluster : String) (source : CoverageSource)
    (gvrs : List GroupVersionResource) (now : Time) : Prop where
  scope : validCoverageScope cluster gvrs = true
  time : now ≠ 0
  room : t.full cluster = false
  size : (openedRows t cluster source gvrs now).size ≤ maxCoverageTypes

section

variable (t : CoverageTracker) (cluster : String) (source : CoverageSource)

section

variable (gvrs : List GroupVersionResource) (now : Time)

/-- `begin` fails and changes nothing, or it opens a session. -/
theorem begin_eq :
    t.begin cluster source gvrs now =
      if !validCoverageScope cluster gvrs || now.IsZero then (t, .error .scope)
      else if t.full cluster then (t, .error .scope)
      else if (openedRows t cluster source gvrs now).size > maxCoverageTypes then
        (t, .error .scope)
      else (opened t cluster source gvrs now, .ok t.sessions.length) := by
  unfold openedRows
  rw [GoMap.size_mapValues]
  rfl

/-- `begin` fails and changes nothing, or the new session is open. -/
theorem begin_cases :
    t.begin cluster source gvrs now = (t, .error .scope) ∨
      (Opens t cluster source gvrs now ∧ t.begin cluster source gvrs now
          = (opened t cluster source gvrs now, .ok t.sessions.length)) := by
  rw [begin_eq]
  split
  · exact Or.inl rfl
  · rename_i hscope
    split
    · exact Or.inl rfl
    · rename_i hfull
      split
      · exact Or.inl rfl
      · rename_i hsize
        simp only [Bool.or_eq_true, Bool.not_eq_true', decide_eq_true_eq, not_or,
          Bool.not_eq_false] at hscope
        refine Or.inr ⟨⟨hscope.1, hscope.2, ?_, Nat.le_of_not_lt hsize⟩, rfl⟩
        exact Bool.eq_false_iff.mpr hfull

end

/-- `BeginSource` is `begin` without types, for the two sources it
knows. -/
theorem beginSource_cases (now : Time) :
    t.beginSource cluster source now = (t, .error .scope) ∨
      ((source = .crd ∨ source = .gatekeeper) ∧
        t.beginSource cluster source now = t.begin cluster source [] now) := by
  unfold CoverageTracker.beginSource
  split
  · exact Or.inl rfl
  · rename_i hsource
    refine Or.inr ⟨?_, rfl⟩
    by_cases hcrd : source = .crd
    · exact Or.inl hcrd
    · refine Or.inr (Classical.not_not.mp fun hgate => hsource ?_)
      simp [hcrd, hgate]

end

/-- The tracker after a successful `BeginType` of the session `s` at
`ref`. -/
def typeOpened (t : CoverageTracker) (ref : SessionRef) (s : CoverageSession)
    (gvr : GroupVersionResource) (now : Time) : CoverageTracker :=
  let old := (s.resources.lookup gvr).bind fun row => t.rows[row]?
  { t with
    rows := t.rows ++
      [.fresh gvr now ((old.map fun r => r.continuityRevision).getD 0 + 1) old]
    sessions := (t.sessions.modify ref fun s =>
        { s with resources := s.resources.insert gvr t.rows.length }) ++
      [{ cluster := s.cluster, source := s.source, parent := some ref
         resources := AList.singleton gvr t.rows.length }] }

/-- The tracker after a type did not fit. -/
def typeLimited (t : CoverageTracker) (ref : SessionRef) : CoverageTracker :=
  { t with sessions := t.sessions.modify ref fun s => { s with limited := true } }

/-- When `BeginType` finds room for the type. -/
structure TypeOpens (t : CoverageTracker) (ref : SessionRef) (s : CoverageSession)
    (gvr : GroupVersionResource) (now : Time) : Prop where
  session : t.sessions[ref]? = some s
  source : s.source ≠ .core
  top : s.parent = none
  scope : validCoverageScope s.cluster [gvr] = true
  time : now ≠ 0
  secret : ¬ (gvr.group = "" ∧ gvr.resource = "secrets")
  active : t.activeLocked ref s = true
  stopped : ∀ r, ((s.resources.lookup gvr).bind fun row => t.rows[row]?) = some r →
    r.stopped = true
  room : ((s.resources.lookup gvr).bind fun row => t.rows[row]?) = none →
    s.resources.size < maxCoverageTypes

/-- When `BeginType` is refused because the session has no room for
one more type. -/
structure TypeRefused (t : CoverageTracker) (ref : SessionRef) (s : CoverageSession)
    (gvr : GroupVersionResource) (now : Time) : Prop where
  session : t.sessions[ref]? = some s
  source : s.source ≠ .core
  top : s.parent = none
  scope : validCoverageScope s.cluster [gvr] = true
  time : now ≠ 0
  secret : ¬ (gvr.group = "" ∧ gvr.resource = "secrets")
  active : t.activeLocked ref s = true
  fresh : ((s.resources.lookup gvr).bind fun row => t.rows[row]?) = none
  crowded : maxCoverageTypes ≤ s.resources.size

/-- `BeginType` is refused, remembers that the type did not fit, or
registers it. -/
theorem beginType_cases (t : CoverageTracker) (ref : SessionRef) (gvr : GroupVersionResource)
    (now : Time) :
    t.beginType ref gvr now = (t, .error .scope) ∨
      (∃ s, TypeRefused t ref s gvr now ∧
        t.beginType ref gvr now = (typeLimited t ref, .error .scope)) ∨
      ∃ s, TypeOpens t ref s gvr now ∧
        t.beginType ref gvr now = (typeOpened t ref s gvr now, .ok t.sessions.length) := by
  unfold CoverageTracker.beginType
  cases hs : t.sessions[ref]? with
  | none => exact Or.inl rfl
  | some s =>
    simp only
    split
    · exact Or.inl rfl
    · rename_i hguard
      split
      · exact Or.inl rfl
      · rename_i hactive
        rw [Bool.not_eq_true', Bool.not_eq_false] at hactive
        split
        · exact Or.inl rfl
        · rename_i hlive
          simp only [Bool.or_eq_true, decide_eq_true_eq, not_or, Bool.not_eq_true',
            Bool.not_eq_false] at hguard
          obtain ⟨⟨⟨⟨hsource, hparent⟩, hscope⟩, htime⟩, hsecret⟩ := hguard
          have htop : s.parent = none := by simpa using hparent
          have hkind : ¬ (gvr.group = "" ∧ gvr.resource = "secrets") := by simpa using hsecret
          split
          · rename_i hfull
            rw [Bool.and_eq_true, decide_eq_true_eq, Option.isNone_iff_eq_none] at hfull
            refine Or.inr (Or.inl ⟨s, ?_, rfl⟩)
            exact ⟨hs, hsource, htop, hscope, htime, hkind, hactive, hfull.1, hfull.2⟩
          · rename_i hroom
            refine Or.inr (Or.inr ⟨s, ?_, rfl⟩)
            refine ⟨hs, hsource, htop, hscope, htime, hkind, hactive, ?_, ?_⟩
            · intro r hr
              rw [hr] at hlive
              simpa using hlive
            · intro hr
              rw [hr] at hroom
              simpa using hroom

variable {now : Time} {gvr : GroupVersionResource} {s : CoverageSession}

/-- The guards of `BeginType` that do not look at the session's
types. -/
theorem typeGuards_eq_false (hsource : s.source ≠ .core) (htop : s.parent = none)
    (hscope : validCoverageScope s.cluster [gvr] = true) (htime : now ≠ 0)
    (hsecret : ¬ (gvr.group = "" ∧ gvr.resource = "secrets")) :
    (s.source = .core || s.parent.isSome || !validCoverageScope s.cluster [gvr] ||
      now.IsZero || (gvr.group = "" && gvr.resource = "secrets")) = false := by
  simpa [hsource, htop, hscope, htime] using hsecret

variable {ref : SessionRef}

theorem beginType_of_refused (h : TypeRefused t ref s gvr now) :
    t.beginType ref gvr now = (typeLimited t ref, .error .scope) := by
  have hguard := typeGuards_eq_false h.source h.top h.scope h.time h.secret
  unfold CoverageTracker.beginType
  simp only [h.session, hguard, h.active, h.fresh, h.crowded]
  rfl

theorem beginType_of_opens (h : TypeOpens t ref s gvr now) :
    t.beginType ref gvr now = (typeOpened t ref s gvr now, .ok t.sessions.length) := by
  have hguard := typeGuards_eq_false h.source h.top h.scope h.time h.secret
  have hlive : (((s.resources.lookup gvr).bind fun row => t.rows[row]?).any
      fun r => !r.stopped) = false := by
    cases hold : (s.resources.lookup gvr).bind fun row => t.rows[row]? with
    | none => rfl
    | some r => simp [h.stopped r hold]
  have hroom : (((s.resources.lookup gvr).bind fun row => t.rows[row]?).isNone &&
      maxCoverageTypes ≤ s.resources.size) = false := by
    cases hold : (s.resources.lookup gvr).bind fun row => t.rows[row]? with
    | none => simpa using h.room hold
    | some r => rfl
  unfold CoverageTracker.beginType
  simp only [h.session, hguard, h.active, hlive, hroom]
  rfl

/-- The tracker after an active session has stopped. -/
def halt (t : CoverageTracker) (ref : SessionRef) (s : CoverageSession) (now : Time) :
    CoverageTracker :=
  { t with
    rows := s.resources.entries.foldl
      (fun rows e =>
        if t.ownsTypeLocked s e.1 e.2 then
          rows.modify e.2 fun r => if r.stopped then r else r.halted now
        else rows) t.rows
    sessions := t.sessions.modify ref fun s => { s with stopped := true } }

section

variable (t : CoverageTracker)

/-- `stop` acts on the active session only. -/
theorem stop_cases (ref : SessionRef) (now : Time) :
    (t.stop ref now = t ∧ ∀ s, t.sessions[ref]? = some s → t.activeLocked ref s = false) ∨
      ∃ s, t.sessions[ref]? = some s ∧ t.activeLocked ref s = true ∧
        t.stop ref now = halt t ref s now := by
  unfold CoverageTracker.stop
  cases hs : t.sessions[ref]? with
  | none => exact Or.inl ⟨rfl, by simp⟩
  | some s =>
    simp only
    split
    · rename_i hactive
      refine Or.inl ⟨rfl, ?_⟩
      rintro s' ⟨⟩
      simpa using hactive
    · rename_i hactive
      exact Or.inr ⟨s, rfl, by simpa using hactive, rfl⟩

/-! ### Discovery and the inventory -/

/-- The tracker after `RecordDiscovery` of the session `s` at `ref`. -/
def discovered (t : CoverageTracker) (ref : SessionRef) (s : CoverageSession)
    (state : SourceDiscoveryState) (checked : Time) : CoverageTracker :=
  let revision := (s.discovery.map fun d => d.revision).getD 0 + 1
  { t with sessions := t.sessions.modify ref fun s =>
      { s with discovery := some ⟨state, checked, revision, false⟩ } }

/-- `RecordDiscovery` changes nothing, or the evidence of an active
Gatekeeper session. -/
theorem recordDiscovery_cases (ref : SessionRef) (state : SourceDiscoveryState) (checked : Time) :
    (t.recordDiscovery ref state checked).1 = t ∨
      ∃ s, t.sessions[ref]? = some s ∧ s.parent = none ∧ s.source = .gatekeeper ∧
        validSourceDiscoveryState state = true ∧ (state = .unknown ↔ checked = 0) ∧
        t.activeLocked ref s = true ∧
        (t.recordDiscovery ref state checked).1 = discovered t ref s state checked := by
  unfold CoverageTracker.recordDiscovery
  cases hs : t.sessions[ref]? with
  | none => exact Or.inl rfl
  | some s =>
    simp only
    split
    · exact Or.inl rfl
    · rename_i hguard
      split
      · exact Or.inl rfl
      · rename_i hactive
        simp only [Bool.or_eq_true, decide_eq_true_eq, not_or, Bool.not_eq_true',
          Bool.not_eq_false, ne_eq, Classical.not_not, eq_iff_iff] at hguard
        obtain ⟨⟨⟨hparent, hsource⟩, hvalid⟩, hunknown⟩ := hguard
        exact Or.inr ⟨s, rfl, by simpa using hparent, hsource, hvalid, hunknown,
          by simpa using hactive, rfl⟩

/-- The tracker after `BeginAPIInventory`. -/
def inventoryOpened (t : CoverageTracker) (cluster : String) : CoverageTracker :=
  { t with
    nextGeneration := t.nextGeneration + 1
    inventorySessions := t.inventorySessions ++
      [{ clusterID := cluster, generation := t.nextGeneration + 1 }]
    inventories := t.inventories.insert cluster t.inventorySessions.length }

/-- The same for the session of an inventory. -/
theorem beginAPIInventory_cases (cluster : String) :
    t.beginAPIInventory cluster = (t, .error .scope) ∨
      (t.full cluster = false ∧ t.beginAPIInventory cluster
        = (inventoryOpened t cluster, .ok t.inventorySessions.length)) := by
  unfold CoverageTracker.beginAPIInventory
  split
  · exact Or.inl rfl
  · split
    · exact Or.inl rfl
    · rename_i hfull
      exact Or.inr ⟨Bool.eq_false_iff.mpr hfull, rfl⟩

/-- The tracker after an inventory session was written. -/
def inventoryWritten (t : CoverageTracker) (ref : InventoryRef)
    (f : APIInventoryEvidence → APIInventoryEvidence) : CoverageTracker :=
  { t with inventorySessions := t.inventorySessions.modify ref f }

/-- `Record` changes nothing, or the evidence of the current
inventory session. -/
theorem recordInventory_cases (ext : Externals) (ref : InventoryRef)
    (state : APIInventoryState) (resources : List APIResourceDescriptor) (limited : Bool)
    (checked : Time) :
    (t.recordInventory ext ref state resources limited checked).1 = t ∨
      ∃ e owned, t.inventorySessions[ref]? = some e ∧
        CoverageTracker.recordable ext state resources limited checked = some owned ∧
        e.stopped = false ∧ t.inventories.lookup e.clusterID = some ref ∧
        (t.recordInventory ext ref state resources limited checked).1
          = inventoryWritten t ref fun e =>
              { e with state := state, checkedAt := checked, limited := limited
                       resources := owned, revision := e.revision + 1 } := by
  unfold CoverageTracker.recordInventory
  cases he : t.inventorySessions[ref]? with
  | none => exact Or.inl rfl
  | some e =>
    cases howned : CoverageTracker.recordable ext state resources limited checked with
    | none => exact Or.inl rfl
    | some owned =>
      simp only
      split
      · exact Or.inl rfl
      · rename_i hguard
        simp only [Bool.or_eq_true, decide_eq_true_eq, not_or, Bool.not_eq_true, ne_eq,
          Classical.not_not] at hguard
        exact Or.inr ⟨e, owned, rfl, rfl, hguard.1, hguard.2, rfl⟩

/-- `Stop` of an inventory session changes nothing, or stops the
current one. -/
theorem stopInventory_cases (ref : InventoryRef) :
    (t.stopInventory ref = t ∧ ∀ e, t.inventorySessions[ref]? = some e →
      t.inventories.lookup e.clusterID ≠ some ref) ∨
      ∃ e, t.inventorySessions[ref]? = some e ∧ t.inventories.lookup e.clusterID = some ref ∧
        t.stopInventory ref = inventoryWritten t ref fun e => { e with stopped := true } := by
  unfold CoverageTracker.stopInventory
  cases he : t.inventorySessions[ref]? with
  | none => exact Or.inl ⟨rfl, by simp⟩
  | some e =>
    simp only
    split
    · rename_i hcurrent
      exact Or.inr ⟨e, rfl, hcurrent, rfl⟩
    · rename_i hother
      refine Or.inl ⟨rfl, ?_⟩
      rintro e' ⟨⟩
      exact hother

end

/-! ### Callbacks -/

/-- A callback that has a target passed every guard. -/
theorem target_eq_some {row : RowRef} (h : t.target ref gvr = some row) :
    ∃ s r, t.sessions[ref]? = some s ∧ t.activeLocked ref s = true ∧
      s.resources.lookup gvr = some row ∧ t.ownsTypeLocked s gvr row = true ∧
      t.rows[row]? = some r ∧ r.stopped = false := by
  unfold CoverageTracker.target at h
  cases hs : t.sessions[ref]? with
  | none =>
    rw [hs] at h
    contradiction
  | some s =>
    rw [hs] at h
    simp only at h
    split at h
    · rename_i hactive
      cases hrow : s.resources.lookup gvr with
      | none =>
        rw [hrow] at h
        contradiction
      | some row' =>
        rw [hrow] at h
        simp only at h
        split at h
        · rename_i hguard
          cases h
          rw [Bool.and_eq_true] at hguard
          cases hr : t.rows[row]? with
          | none =>
            rw [hr] at hguard
            exact absurd hguard.1 (by simp)
          | some r =>
            rw [hr] at hguard
            exact ⟨s, r, rfl, hactive, hrow, hguard.2, rfl, by simpa using hguard.1⟩
        · contradiction
    · contradiction

theorem target_of_guards {row : RowRef} {r : CoverageResource} (hs : t.sessions[ref]? = some s)
    (hactive : t.activeLocked ref s = true) (hrow : s.resources.lookup gvr = some row)
    (howns : t.ownsTypeLocked s gvr row = true) (hr : t.rows[row]? = some r)
    (hlive : r.stopped = false) : t.target ref gvr = some row := by
  unfold CoverageTracker.target
  rw [hs]
  simp only [hactive, hrow, howns, hr, if_true]
  simp [hlive]

/-- The owner of an active session is the current session. -/
theorem sessionLocked_of_active (h : t.activeLocked ref s = true) :
    t.sessionLocked s.cluster s.source = some (s.parent.getD ref) := by
  unfold CoverageTracker.activeLocked at h
  simp only [Bool.and_eq_true, decide_eq_true_eq] at h
  exact h.2

/-! ### One operation of a run -/

/-- The operations that have nothing to do with rows. -/
def isAside : Op → Bool
  | .recordDiscovery _ _ _ | .beginAPIInventory _ | .recordInventory _ _ _ _ _
  | .stopInventory _ => true
  | _ => false

/-- The session an operation is called on. -/
def opSession : Op → Option SessionRef
  | .beginType ref _ _ | .initialDeliveryComplete ref _ | .listResult ref _ _ _ _
  | .watchStarted ref _ | .watchEnded ref _ _ _ _ | .recordGap ref _ _ _ | .stop ref _
  | .recordDiscovery ref _ _ => some ref
  | .begin _ _ _ | .beginSource _ _ _ | .beginAPIInventory _ | .recordInventory _ _ _ _ _
  | .stopInventory _ => none

/-- What an operation makes of a tracker: nothing, or one write that
passed its guards. -/
inductive Effect (t : CoverageTracker) (ext : Externals) : Op → CoverageTracker → Prop
  | refused (op : Op) : Effect t ext op t
  | begin {cluster : String} {gvrs : List GroupVersionResource} {now : Time}
      (h : Opens t cluster .core gvrs now) :
      Effect t ext (.begin cluster gvrs now) (opened t cluster .core gvrs now)
  | beginSource {cluster : String} {source : CoverageSource} {now : Time}
      (hsource : source = .crd ∨ source = .gatekeeper) (h : Opens t cluster source [] now) :
      Effect t ext (.beginSource cluster source now) (opened t cluster source [] now)
  | limit {ref : SessionRef} {s : CoverageSession} {gvr : GroupVersionResource} {now : Time}
      (h : TypeRefused t ref s gvr now) :
      Effect t ext (.beginType ref gvr now) (typeLimited t ref)
  | beginType {ref : SessionRef} {s : CoverageSession} {gvr : GroupVersionResource} {now : Time}
      (h : TypeOpens t ref s gvr now) :
      Effect t ext (.beginType ref gvr now) (typeOpened t ref s gvr now)
  | update {op : Op} (hop : isAside op = false) (row : RowRef)
      (f : CoverageResource → CoverageResource) {ref : SessionRef} {gvr : GroupVersionResource}
      (htarget : t.target ref gvr = some row) (hcalled : opSession op = some ref) :
      Effect t ext op { t with rows := t.rows.modify row f }
  | stop (ref : SessionRef) (s : CoverageSession) (now : Time) (hs : t.sessions[ref]? = some s)
      (hactive : t.activeLocked ref s = true) :
      Effect t ext (.stop ref now) (halt t ref s now)
  | recordDiscovery {ref : SessionRef} {s : CoverageSession} {state : SourceDiscoveryState}
      {checked : Time} (hs : t.sessions[ref]? = some s) (hsource : s.source = .gatekeeper)
      (hvalid : validSourceDiscoveryState state = true) (hunknown : state = .unknown ↔ checked = 0)
      (htop : s.parent = none) (hactive : t.activeLocked ref s = true) :
      Effect t ext (.recordDiscovery ref state checked) (discovered t ref s state checked)
  | beginAPIInventory {cluster : String} (hroom : t.full cluster = false) :
      Effect t ext (.beginAPIInventory cluster) (inventoryOpened t cluster)
  | recordInventory (ref : InventoryRef) {state : APIInventoryState}
      {resources owned : List APIResourceDescriptor} {limited : Bool} {checked : Time}
      (howned : CoverageTracker.recordable ext state resources limited checked = some owned)
      {e : APIInventoryEvidence} (he : t.inventorySessions[ref]? = some e)
      (hlive : e.stopped = false) (hfiled : t.inventories.lookup e.clusterID = some ref) :
      Effect t ext (.recordInventory ref state resources limited checked)
        (inventoryWritten t ref fun e =>
          { e with state := state, checkedAt := checked, limited := limited
                   resources := owned, revision := e.revision + 1 })
  | stopInventory (ref : InventoryRef) {e : APIInventoryEvidence}
      (he : t.inventorySessions[ref]? = some e)
      (hfiled : t.inventories.lookup e.clusterID = some ref) :
      Effect t ext (.stopInventory ref)
        (inventoryWritten t ref fun e => { e with stopped := true })

/-- The effect of both ways to register a session. -/
theorem effect_begin {ext : Externals} {op : Op} {cluster : String} {source : CoverageSource}
    {gvrs : List GroupVersionResource}
    (h : Opens t cluster source gvrs now → Effect t ext op (opened t cluster source gvrs now)) :
    Effect t ext op (t.begin cluster source gvrs now).1 := by
  rcases begin_cases t cluster source gvrs now with heq | ⟨hopens, heq⟩ <;> rw [heq]
  · exact .refused op
  · exact h hopens

/-- **One step.** What an operation does, case by case; the
invariants of the tracker are proved over these cases. -/
theorem effect (t : CoverageTracker) (ext : Externals) (op : Op) :
    Effect t ext op (t.step ext op) := by
  have hupdate : ∀ ref gvr f, isAside op = false → opSession op = some ref →
      Effect t ext op (t.update ref gvr f) := by
    intro ref gvr f hop hcalled
    unfold CoverageTracker.update
    cases htarget : t.target ref gvr with
    | none => exact .refused op
    | some row => exact .update hop row f htarget hcalled
  cases op with
  | begin cluster gvrs now => exact effect_begin .begin
  | beginSource cluster source now =>
    show Effect t ext _ (t.beginSource cluster source now).1
    rcases beginSource_cases t cluster source now with h | ⟨hsource, h⟩ <;> rw [h]
    · exact .refused _
    · exact effect_begin (.beginSource hsource)
  | beginType ref gvr now =>
    show Effect t ext _ (t.beginType ref gvr now).1
    rcases beginType_cases t ref gvr now with h | ⟨s, hrefused, h⟩ | ⟨s, hopens, h⟩ <;> rw [h]
    · exact .refused _
    · exact .limit hrefused
    · exact .beginType hopens
  | initialDeliveryComplete ref gvr | listResult ref gvr | watchStarted ref gvr
  | watchEnded ref gvr | recordGap ref gvr => exact hupdate ref gvr _ rfl rfl
  | stop ref now =>
    show Effect t ext _ (t.stop ref now)
    rcases stop_cases t ref now with ⟨h, -⟩ | ⟨s, hs, hactive, h⟩ <;> rw [h]
    · exact .refused _
    · exact .stop ref s now hs hactive
  | recordDiscovery ref state checked =>
    show Effect t ext _ (t.recordDiscovery ref state checked).1
    rcases recordDiscovery_cases t ref state checked with
      h | ⟨s, hs, htop, hsource, hvalid, hunknown, hactive, h⟩ <;> rw [h]
    · exact .refused _
    · exact .recordDiscovery hs hsource hvalid hunknown htop hactive
  | beginAPIInventory cluster =>
    show Effect t ext _ (t.beginAPIInventory cluster).1
    rcases beginAPIInventory_cases t cluster with h | ⟨hroom, h⟩ <;> rw [h]
    · exact .refused _
    · exact .beginAPIInventory hroom
  | recordInventory ref state resources limited checked =>
    show Effect t ext _ (t.recordInventory ext ref state resources limited checked).1
    rcases recordInventory_cases t ext ref state resources limited checked with
      h | ⟨e, owned, he, howned, hlive, hfiled, h⟩ <;> rw [h]
    · exact .refused _
    · exact .recordInventory ref howned he hlive hfiled
  | stopInventory ref =>
    show Effect t ext _ (t.stopInventory ref)
    rcases stopInventory_cases t ref with ⟨h, -⟩ | ⟨e, he, hfiled, h⟩ <;> rw [h]
    · exact .refused _
    · exact .stopInventory ref he hfiled

end KubeAtlas.Proofs.Coverage
