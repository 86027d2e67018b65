import KubeAtlas.Proofs.Coverage.Counters
import KubeAtlas.Proofs.Coverage.Tracker

/-!
# `KubeAtlas.Proofs.Coverage.History`: the tracker follows its rows

`eventOf` says which event an operation is for the row of a type,
and `WellFormed.step_obeys` proves that the row changes by this
event and by nothing else. So the `history` of a type in a run is a
trace of its row (`trace_run`).
-/

set_option autoImplicit false

namespace KubeAtlas.Proofs.Coverage

open Lib Lib.EventLog Operations
open Operations.CoverageTracker (Op)

/-! ### Events of operations -/

variable (t : CoverageTracker) (κ : TypeKey)

/-- The event of a new session: it registers the type, or keeps a
row it found. -/
def openEvent (cluster : String) (source : CoverageSource) (gvrs : List GroupVersionResource)
    (now : Time) (ok : Bool) : Option RowEvent :=
  if ok && κ.cluster = cluster && κ.source = source then
    if κ.gvr ∈ gvrs then some (.registered now)
    else if (rowAt t κ).isSome then some (.retired now)
    else none
  else none

/-- The event of a callback. -/
def callEvent (ref : SessionRef) (gvr : GroupVersionResource) (e : RowEvent) : Option RowEvent :=
  if reached t κ ref gvr then some e else none

/-- What an operation is for the row of a type. -/
def eventOf : Op → Option RowEvent
  | .begin cluster gvrs now =>
    openEvent t κ cluster .core gvrs now (t.beginCore cluster gvrs now).2.isOk
  | .beginSource cluster source now =>
    openEvent t κ cluster source [] now (t.beginSource cluster source now).2.isOk
  | .beginType ref gvr now =>
    if κ.gvr = gvr && belongs t κ ref && (t.beginType ref gvr now).2.isOk then
      some (.typeRegistered now)
    else none
  | .initialDeliveryComplete ref gvr => callEvent t κ ref gvr .delivered
  | .listResult ref gvr success denied now =>
    callEvent t κ ref gvr (.listed success denied now)
  | .watchStarted ref gvr => callEvent t κ ref gvr (.watchStarted (t.watchStarted ref gvr).2)
  | .watchEnded ref gvr epoch reason now =>
    callEvent t κ ref gvr (.watchEnded epoch reason now)
  | .recordGap ref gvr reason now => callEvent t κ ref gvr (.gap reason now)
  | .stop ref now => callEvent t κ ref κ.gvr (.stopped now)
  | .recordDiscovery _ _ _ => none
  | .beginAPIInventory _ => none
  | .recordInventory _ _ _ _ _ => none
  | .stopInventory _ => none

/-- The time an operation is stamped with. The check time of
`RecordDiscovery` is part of its evidence: an unknown state comes
with the zero time. -/
def opStamp : Op → Option Time
  | .begin _ _ now | .beginSource _ _ now | .beginType _ _ now | .listResult _ _ _ _ now
  | .watchEnded _ _ _ _ now | .recordGap _ _ _ now | .stop _ now
  | .recordInventory _ _ _ _ now => some now
  | .initialDeliveryComplete _ _ | .watchStarted _ _ | .recordDiscovery _ _ _
  | .beginAPIInventory _ | .stopInventory _ => none

variable {t : CoverageTracker} {κ : TypeKey}

/-- An event has the stamp of its operation. -/
theorem stamp_eventOf {op : Op} {e : RowEvent} {now : Time} (he : eventOf t κ op = some e)
    (hnow : e.stamp = some now) : opStamp op = some now := by
  have hopen : ∀ {cluster source gvrs at' ok}, openEvent t κ cluster source gvrs at' ok = some e →
      at' = now := by
    intro cluster source gvrs at' ok h
    unfold openEvent at h
    split_ifs at h
    all_goals
      cases h
      exact Option.some.inj hnow
  have hcall : ∀ {ref gvr e'}, callEvent t κ ref gvr e' = some e → e = e' := by
    intro ref gvr e' h
    unfold callEvent at h
    split_ifs at h
    exact (Option.some.inj h).symm
  cases op with
  | begin | beginSource => exact congrArg some (hopen he)
  | beginType ref gvr at' =>
    simp only [eventOf] at he
    split at he
    · cases he
      exact hnow
    · contradiction
  | initialDeliveryComplete | watchStarted =>
    rw [hcall he] at hnow
    contradiction
  | listResult | watchEnded | recordGap | stop => rwa [hcall he] at hnow
  | recordDiscovery | beginAPIInventory | recordInventory | stopInventory => contradiction

/-! ### Callbacks -/

/-- The row changes by the event, and without one not at all. -/
def Obeys (κ : TypeKey) (t t' : CoverageTracker) : Option RowEvent → Prop
  | none => rowAt t' κ = rowAt t κ
  | some e => e.Enabled (rowAt t κ) ∧ rowAt t' κ = e.apply κ.gvr (rowAt t κ)

theorem rowAt_of_rowRef {row : RowRef} (h : rowRef t κ = some row) :
    rowAt t κ = t.rows[row]? := by
  rw [rowAt, h]
  rfl

theorem SameShape.rowAt {t' : CoverageTracker} (h : SameShape t t') (hrows : t'.rows = t.rows)
    (κ : TypeKey) : rowAt t' κ = rowAt t κ := by
  unfold Coverage.rowAt
  rw [h.rowRef, hrows]

/-- A step beside the rows leaves every row as it is. -/
theorem Aside.rowAt {t' : CoverageTracker} (h : Aside t t') (κ : TypeKey) :
    rowAt t' κ = rowAt t κ :=
  h.shape.rowAt h.rows κ

/-- A callback is its event for the row it reaches, and nothing for
the others. -/
theorem WellFormed.obeys_update (hwf : WellFormed t) (κ : TypeKey) (ref : SessionRef)
    (gvr : GroupVersionResource) {f : CoverageResource → CoverageResource} {e : RowEvent}
    (hf : ∀ old, e.apply κ.gvr old = old.map f)
    (henabled : ∀ r, ((t.target ref gvr).bind fun row => t.rows[row]?) = some r →
      r.stopped = false → e.Enabled (some r)) :
    Obeys κ t (t.update ref gvr f) (callEvent t κ ref gvr e) := by
  have hshape := sameShape_update t ref gvr f
  unfold callEvent
  split
  · rename_i hreached
    obtain ⟨row, htarget, hκ⟩ := (hwf.reached_iff ref gvr).mp hreached
    obtain ⟨s, r, -, -, -, -, hr, hlive⟩ := target_eq_some htarget
    have hrow : rowAt t κ = some r := (rowAt_of_rowRef hκ).trans hr
    refine ⟨hrow ▸ henabled r (by rw [htarget]; exact hr) hlive, ?_⟩
    rw [hf, hrow, rowAt_of_rowRef ((hshape.rowRef κ).trans hκ)]
    unfold CoverageTracker.update
    rw [htarget]
    simp only [List.getElem?_modify_eq, hr]
    rfl
  · rename_i hreached
    rw [hwf.reached_iff] at hreached
    show rowAt (t.update ref gvr f) κ = rowAt t κ
    unfold CoverageTracker.update
    cases htarget : t.target ref gvr with
    | none => rfl
    | some row =>
      show (rowRef t κ).bind (fun i => (t.rows.modify row f)[i]?) = rowAt t κ
      unfold rowAt
      cases hκ : rowRef t κ with
      | none => rfl
      | some i =>
        have hne : row ≠ i := fun heq => hreached ⟨row, htarget, heq ▸ hκ⟩
        exact List.getElem?_modify_ne f t.rows hne

/-- The rows after a stop: the current rows of the session's types
have stopped. -/
theorem getElem?_halt (t : CoverageTracker) (ref : SessionRef) (s : CoverageSession)
    (now : Time) (i : RowRef) :
    (halt t ref s now).rows[i]?
      = if ∃ e ∈ s.resources.entries, t.ownsTypeLocked s e.1 e.2 = true ∧ e.2 = i then
          t.rows[i]?.map fun r => if r.stopped then r else r.halted now
        else t.rows[i]? := by
  -- a second visit finds the row stopped
  have honce : ∀ r : CoverageResource,
      (fun r : CoverageResource => if r.stopped then r else r.halted now)
          (if r.stopped then r else r.halted now)
        = if r.stopped then r else r.halted now := by
    intro r
    by_cases hr : r.stopped = true
    · simp [hr]
    · simp [hr, CoverageResource.halted]
  exact Objects.getElem?_foldl_modify
    (f := fun r : CoverageResource => if r.stopped then r else r.halted now) honce
    (fun e : Σ _ : GroupVersionResource, RowRef => t.ownsTypeLocked s e.1 e.2)
    (fun e => e.2) s.resources.entries t.rows i

/-- Step: `stop` is the event `stopped` of the rows of the session. -/
theorem WellFormed.obeys_stop (hwf : WellFormed t) (κ : TypeKey) (ref : SessionRef)
    (now : Time) :
    Obeys κ t (t.stop ref now) (callEvent t κ ref κ.gvr (.stopped now)) := by
  rcases stop_cases t ref now with ⟨hsame, hinactive⟩ | ⟨s, hs, hactive, hstop⟩
  · have hnone : reached t κ ref κ.gvr = false := by
      rw [Bool.eq_false_iff]
      intro hreached
      obtain ⟨row, htarget, -⟩ := (hwf.reached_iff ref κ.gvr).mp hreached
      obtain ⟨s, -, hs, hactive, -⟩ := target_eq_some htarget
      rw [hinactive s hs] at hactive
      contradiction
    rw [callEvent, hnone, hsame]
    rfl
  · have hshape := sameShape_halt t ref s now
    rw [hstop, callEvent]
    split
    · rename_i hreached
      obtain ⟨row, htarget, hκ⟩ := (hwf.reached_iff ref κ.gvr).mp hreached
      obtain ⟨s', r, hs', -, hlookup, howns, hr, hlive⟩ := target_eq_some htarget
      rw [hs] at hs'
      cases hs'
      have hrow : rowAt t κ = some r := (rowAt_of_rowRef hκ).trans hr
      refine ⟨⟨r, hrow, hlive⟩, ?_⟩
      rw [hrow, rowAt_of_rowRef ((hshape.rowRef κ).trans hκ), getElem?_halt,
        if_pos ⟨⟨κ.gvr, row⟩, GoMap.lookup_eq_some_iff.mp hlookup, howns, rfl⟩, hr]
      show some (if r.stopped then r else r.halted now) = some (r.halted now)
      rw [hlive]
      rfl
    · rename_i hreached
      show rowAt (halt t ref s now) κ = rowAt t κ
      cases hκ : rowRef t κ with
      | none => rw [rowAt, rowAt, hshape.rowRef, hκ]; rfl
      | some row =>
        rw [rowAt_of_rowRef hκ, rowAt_of_rowRef ((hshape.rowRef κ).trans hκ), getElem?_halt]
        split
        · rename_i hvisited
          -- the session owns the row, so only a row that has stopped is not reached
          obtain ⟨⟨gvr, row'⟩, hmem, howns, rfl⟩ := hvisited
          have hlookup := GoMap.lookup_eq_some_iff.mpr hmem
          have hkey := hwf.separate _ _ _ hκ (hwf.rowRef_of_owned hs hactive hlookup howns)
          subst hkey
          cases hr : t.rows[row']? with
          | none => rfl
          | some r =>
            by_cases hlive : r.stopped = true
            · simp [hlive]
            · refine absurd ((hwf.reached_iff ref gvr).mpr ⟨row', ?_, hκ⟩) hreached
              exact target_of_guards hs hactive hlookup howns hr (by simpa using hlive)
        · rfl

/-! ### Registrations -/

/-- A registered type starts afresh, and the other types of the
session are carried over. -/
theorem lookup_openedRows (t : CoverageTracker) (cluster : String) (source : CoverageSource)
    (gvrs : List GroupVersionResource) (now : Time) (gvr : GroupVersionResource) :
    (openedRows t cluster source gvrs now).lookup gvr
      = if gvr ∈ gvrs then some (.fresh gvr now 1 (rowAt t ⟨cluster, source, gvr⟩))
        else (rowAt t ⟨cluster, source, gvr⟩).map fun r =>
          { r.carry now with continuityRevision := 1 } := by
  have hold : ∀ g, AList.lookup g (((current t cluster source).map fun s =>
      GoMap.deref t.rows s.resources).getD ∅) = rowAt t ⟨cluster, source, g⟩ := by
    intro g
    unfold rowAt rowRef
    cases hcur : current t cluster source with
    | none => rfl
    | some s => exact GoMap.lookup_deref t.rows s.resources g
  unfold openedRows
  simp only [GoMap.lookup_mapValues, GoMap.lookup_foldl_insert, hold]
  split
  · rfl
  · rw [Option.map_map]
    rfl

section

variable (hwf : WellFormed t) (κ : TypeKey) (cluster : String) (source : CoverageSource)
  (gvrs : List GroupVersionResource)
include hwf

/-- Only rows of the cluster and the source that are registered
change. -/
theorem WellFormed.rowAt_opened (now : Time) :
    rowAt (opened t cluster source gvrs now) κ
      = if κ.cluster = cluster ∧ κ.source = source then
          (openedRows t cluster source gvrs now).lookup κ.gvr
        else rowAt t κ := by
  unfold rowAt
  rw [hwf.rowRef_opened]
  split
  · exact GoMap.bind_lookup_addresses t.rows _ κ.gvr
  · cases hκ : rowRef t κ with
    | none => rfl
    | some row => exact List.getElem?_append_left (hwf.rowRef_lt hκ)

/-- Step: a registration that succeeds is an event of each row of
its source. -/
theorem WellFormed.obeys_opened {now : Time} (hnow : now ≠ 0) :
    Obeys κ t (opened t cluster source gvrs now)
      (openEvent t κ cluster source gvrs now true) := by
  have hrow := hwf.rowAt_opened κ cluster source gvrs now
  unfold openEvent
  by_cases hsame : κ.cluster = cluster ∧ κ.source = source
  · have hkey : (⟨cluster, source, κ.gvr⟩ : TypeKey) = κ := by
      rw [← hsame.1, ← hsame.2]
    rw [if_pos hsame, lookup_openedRows, hkey] at hrow
    rw [if_pos (by simp [hsame])]
    by_cases hmem : κ.gvr ∈ gvrs
    · rw [if_pos hmem] at hrow ⊢
      exact ⟨hnow, hrow⟩
    · rw [if_neg hmem] at hrow ⊢
      cases hold : rowAt t κ with
      | none =>
        rw [hold] at hrow
        exact hrow.trans hold.symm
      | some r =>
        refine ⟨⟨r, hold⟩, ?_⟩
        rw [hrow, hold]
        rfl
  · rw [if_neg (by simpa using hsame)]
    rw [if_neg hsame] at hrow
    exact hrow

/-- Step: and one that fails is none. -/
theorem WellFormed.obeys_begin (now : Time) :
    Obeys κ t (t.begin cluster source gvrs now).1
      (openEvent t κ cluster source gvrs now (t.begin cluster source gvrs now).2.isOk) := by
  rcases begin_cases t cluster source gvrs now with hfail | ⟨hopens, hok⟩
  · rw [hfail]
    rfl
  · rw [hok]
    exact hwf.obeys_opened κ cluster source gvrs hopens.time

end

theorem WellFormed.rowAt_typeOpened (hwf : WellFormed t) {ref : SessionRef}
    {s : CoverageSession} {gvr : GroupVersionResource} {now : Time}
    (h : TypeOpens t ref s gvr now) (κ : TypeKey) :
    rowAt (typeOpened t ref s gvr now) κ
      = if κ = ⟨s.cluster, s.source, gvr⟩ then
          (RowEvent.typeRegistered now).apply gvr (rowAt t ⟨s.cluster, s.source, gvr⟩)
        else rowAt t κ := by
  have hold : ((s.resources.lookup gvr).bind fun row => t.rows[row]?)
      = rowAt t ⟨s.cluster, s.source, gvr⟩ := by
    rw [rowAt, rowRef, h.current.2]
    rfl
  unfold rowAt
  rw [hwf.rowRef_typeOpened h]
  split
  · show (t.rows ++ [_])[t.rows.length]? = _
    rw [List.getElem?_concat_length, hold]
    rfl
  · cases hκ : rowRef t κ with
    | none => rfl
    | some row => exact List.getElem?_append_left (hwf.rowRef_lt hκ)

/-- Step: the registration of a type is an event of its own row
only. -/
theorem WellFormed.obeys_beginType (hwf : WellFormed t) (κ : TypeKey) (ref : SessionRef)
    (gvr : GroupVersionResource) (now : Time) :
    Obeys κ t (t.beginType ref gvr now).1
      (if κ.gvr = gvr && belongs t κ ref && (t.beginType ref gvr now).2.isOk then
        some (.typeRegistered now) else none) := by
  rcases beginType_cases t ref gvr now with hfail | ⟨s, -, hlimited⟩ | ⟨s, hopens, hok⟩
  · rw [hfail, Except.isOk, Except.toBool, Bool.and_false]
    rfl
  · rw [hlimited, Except.isOk, Except.toBool, Bool.and_false]
    exact (sameShape_typeLimited t ref).rowAt rfl κ
  · have hrow := hwf.rowAt_typeOpened hopens κ
    rw [hok, Except.isOk, Except.toBool, Bool.and_true]
    have hkey : (κ.gvr = gvr && belongs t κ ref) = true ↔ κ = ⟨s.cluster, s.source, gvr⟩ := by
      unfold belongs
      rw [hopens.session]
      cases κ
      simp only [Option.any_some, Bool.and_eq_true, decide_eq_true_eq, TypeKey.mk.injEq]
      tauto
    by_cases hκ : κ = ⟨s.cluster, s.source, gvr⟩
    · rw [if_pos (hkey.mpr hκ)]
      rw [if_pos hκ] at hrow
      subst hκ
      refine ⟨⟨hopens.time, ?_⟩, hrow⟩
      intro r hr
      refine hopens.stopped r ?_
      rw [rowAt, rowRef, hopens.current.2] at hr
      exact hr
    · rw [if_neg fun h => hκ (hkey.mp h)]
      rw [if_neg hκ] at hrow
      exact hrow

/-! ### Steps and runs -/

/-- One operation is its event for the row of a type, or leaves the
row alone. -/
theorem WellFormed.step_obeys (hwf : WellFormed t) (ext : Externals) (κ : TypeKey) (op : Op) :
    Obeys κ t (t.step ext op) (eventOf t κ op) := by
  -- callbacks are enabled by their target, which has not stopped
  have hcall : ∀ {e : RowEvent} {r : CoverageResource}, r.stopped = false →
      e.registers = false → e.begins = false → e.isWatchStarted = false → e.Enabled (some r) := by
    intro e r hlive hreg hbegins hwatch
    cases e with
    | registered | typeRegistered | retired | watchStarted => contradiction
    | _ => exact ⟨r, rfl, hlive⟩
  cases op with
  | begin cluster gvrs now => exact hwf.obeys_begin κ cluster .core gvrs now
  | beginSource cluster source now =>
    show Obeys κ t (t.beginSource cluster source now).1
      (openEvent t κ cluster source [] now (t.beginSource cluster source now).2.isOk)
    rcases beginSource_cases t cluster source now with h | ⟨-, h⟩ <;> rw [h]
    · rfl
    · exact hwf.obeys_begin κ cluster source [] now
  | beginType ref gvr now => exact hwf.obeys_beginType κ ref gvr now
  | initialDeliveryComplete ref gvr | listResult ref gvr =>
    exact hwf.obeys_update κ ref gvr (fun _ => rfl)
      fun r _ hlive => hcall hlive rfl rfl rfl
  | watchStarted ref gvr =>
    refine hwf.obeys_update κ ref gvr (fun _ => rfl) fun r hr hlive => ⟨r, rfl, hlive, ?_⟩
    show (((t.target ref gvr).bind fun row => t.rows[row]?).map _).getD 0 = _
    rw [hr]
    rfl
  | watchEnded ref gvr | recordGap ref gvr =>
    exact hwf.obeys_update κ ref gvr (fun _ => rfl)
      fun r _ hlive => hcall hlive rfl rfl rfl
  | stop ref now => exact hwf.obeys_stop κ ref now
  | _ => exact Aside.rowAt (aside_step t ext (by rfl)) κ

/-- The row of a type follows its events along every run. -/
theorem follows (ext : Externals) (κ : TypeKey) :
    Follows (fun t op => t.step ext op) (fun t op => eventOf t κ op) (fun t => rowAt t κ)
      (RowEvent.apply κ.gvr) RowEvent.Enabled WellFormed where
  quiet := by
    intro t op hwf hnone
    have h := hwf.step_obeys ext κ op
    rw [hnone] at h
    exact h
  event := by
    intro t op e hwf hsome
    have h := hwf.step_obeys ext κ op
    rw [hsome] at h
    exact h
  inv := fun _ op hwf => hwf.step ext op

/-- The events of a run for the row of a type, the latest first. -/
def history (ext : Externals) (κ : TypeKey) (t : CoverageTracker) (ops : List Op) :
    List RowEvent :=
  log (fun t op => t.step ext op) (fun t op => eventOf t κ op) t ops

theorem length_history_le (ext : Externals) (κ : TypeKey) (t : CoverageTracker) (ops : List Op) :
    (history ext κ t ops).length ≤ ops.length :=
  length_log_le t ops

/-- What holds of the stamps of all operations holds of the stamps
of the events. -/
theorem stamps_history {ext : Externals} {ops : List Op} {P : Time → Prop}
    (hops : ∀ op ∈ ops, ∀ now, opStamp op = some now → P now) {e : RowEvent}
    (he : e ∈ history ext κ t ops) {now : Time} (hnow : e.stamp = some now) : P now := by
  obtain ⟨t', op, hop, hemit⟩ := exists_of_mem_log he
  exact hops op hop now (stamp_eventOf hemit hnow)

/-- Run: the invariant holds in every reachable tracker. -/
theorem wellFormed_run (ext : Externals) (staleAfter : Duration) (ops : List Op) :
    WellFormed (.run ext staleAfter ops) :=
  (follows ext ⟨"", .core, ⟨"", "", ""⟩⟩).inv_foldl (wellFormed_new staleAfter) ops

/-- The history of a run explains the row it ends with. -/
theorem trace_run (ext : Externals) (staleAfter : Duration) (κ : TypeKey) (ops : List Op) :
    RowTrace κ.gvr none (history ext κ (.new staleAfter) ops)
      (rowAt (.run ext staleAfter ops) κ) := by
  have hnone : rowAt (.new staleAfter) κ = none := by
    rw [rowAt, rowRef_new]
    rfl
  have h := (follows ext κ).trace_run (wellFormed_new staleAfter) ops
  simp only [hnone] at h
  exact h

theorem gvr_of_rowAt {ext : Externals} {staleAfter : Duration} {ops : List Op}
    {r : CoverageResource} (hr : rowAt (.run ext staleAfter ops) κ = some r) : r.gvr = κ.gvr := by
  have htrace := trace_run ext staleAfter κ ops
  rw [hr] at htrace
  exact gvr_of_trace htrace

end KubeAtlas.Proofs.Coverage
