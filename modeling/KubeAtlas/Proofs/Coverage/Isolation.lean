import KubeAtlas.Proofs.Coverage.Soundness

/-!
# `KubeAtlas.Proofs.Coverage.Isolation`: old collectors cannot write

A collector that was stopped or replaced still holds its session and
may call it at any time. `Cut` says that a session has lost its
rows: it is not active, or it is a token whose type was registered
again. A stop, a replacement and a new registration cut a session
(`cut_of_supersedes`), it stays cut (`Cut.step`), and what it is
called for shows in no snapshot (`Cut.sameView`).

Streams of one registration are told apart by their epoch. The epoch
of a new registration starts again, which is where an old stream can
do harm: the last part of `callbacks_isolated` says exactly when,
and `watchEnded_ends_new_stream` is a run.
-/

set_option autoImplicit false

namespace KubeAtlas.Proofs.Coverage

open Lib Operations
open Operations.CoverageTracker (Op)

variable {t t' : CoverageTracker} {κ : TypeKey}

/-! ### What snapshots see -/

/-- All snapshots are the same. -/
def SameSnapshots (t t' : CoverageTracker) : Prop :=
  ∀ range cluster required now,
    t'.snapshot range cluster required now = t.snapshot range cluster required now

/-- The parts that a snapshot is made from. -/
structure SameView (t t' : CoverageTracker) : Prop where
  staleAfter : t'.staleAfter = t.staleAfter
  rows : t'.rows = t.rows
  current : ∀ cluster source, current t' cluster source = current t cluster source
  inventory : ∀ cluster,
    ((t'.inventories.lookup cluster).bind fun ref => t'.inventorySessions[ref]?)
      = (t.inventories.lookup cluster).bind fun ref => t.inventorySessions[ref]?

theorem SameView.refl (t : CoverageTracker) : SameView t t :=
  ⟨rfl, rfl, fun _ _ => rfl, fun _ => rfl⟩

theorem SameView.sameSnapshots (h : SameView t t') : SameSnapshots t t' := by
  intro range cluster required now
  have hcore : ((t'.clusters.lookup cluster).bind fun ref => t'.sessions[ref]?)
      = (t.clusters.lookup cluster).bind fun ref => t.sessions[ref]? := h.current cluster .core
  have hsource : ∀ source, ((t'.sessionLocked cluster source).bind fun ref => t'.sessions[ref]?)
      = (t.sessionLocked cluster source).bind fun ref => t.sessions[ref]? := h.current cluster
  have hrow : t'.requiredRow = t.requiredRow := by
    unfold CoverageTracker.requiredRow
    rw [h.rows, h.staleAfter]
  have hsrc : t'.snapshotSource = t.snapshotSource := by
    unfold CoverageTracker.snapshotSource
    rw [h.rows, h.staleAfter]
  unfold CoverageTracker.snapshot
  rw [hcore, h.inventory, hrow, hsrc]
  simp only [hsource]

section Shown

variable {range : MapOrder} {cluster : String} {required : List GroupVersionResource} {now : Time}
  {snap : CoverageSnapshot} {gvr : GroupVersionResource} {r : CoverageResource}

end Shown

/-! ### How sessions evolve -/

/-- What every operation keeps of the sessions: where they belong,
that they have stopped, and which rows they do not point at. -/
structure Evolves (t t' : CoverageTracker) : Prop where
  session : ∀ (ref : SessionRef) s, t.sessions[ref]? = some s → ∃ s', t'.sessions[ref]? = some s' ∧
    s'.cluster = s.cluster ∧ s'.source = s.source ∧ s'.parent = s.parent ∧
    (s.stopped = true → s'.stopped = true) ∧
    (s.parent ≠ none → s'.resources = s.resources) ∧
    ∀ gvr row, row < t.rows.length → s'.resources.lookup gvr = some row →
      s.resources.lookup gvr = some row
  locked : ∀ cluster source ref, ref < t.sessions.length →
    t'.sessionLocked cluster source = some ref → t.sessionLocked cluster source = some ref
  inventory : ∀ (ref : InventoryRef) e, t.inventorySessions[ref]? = some e →
    ∃ e', t'.inventorySessions[ref]? = some e' ∧ e'.clusterID = e.clusterID ∧
      (e.stopped = true → e'.stopped = true)
  filed : ∀ cluster ref, ref < t.inventorySessions.length →
    t'.inventories.lookup cluster = some ref → t.inventories.lookup cluster = some ref

section

variable (t : CoverageTracker)

theorem Evolves.refl : Evolves t t where
  session _ s hs := ⟨s, hs, rfl, rfl, rfl, id, fun _ => rfl, fun _ _ _ h => h⟩
  locked _ _ _ _ h := h
  inventory _ e he := ⟨e, he, rfl, id⟩
  filed _ _ _ h := h

/-- Sessions and rows change in place. -/
theorem evolves_modify (ref : SessionRef)
    {f : CoverageSession → CoverageSession} (hf : ∀ s, shape (f s) = shape s)
    (hstop : ∀ s, s.stopped = true → (f s).stopped = true) (rows : List CoverageResource) :
    Evolves t { t with sessions := t.sessions.modify ref f, rows := rows } where
  session := by
    intro ref' s hs
    refine ⟨if ref = ref' then f s else s, ?_, ?_⟩
    · show (t.sessions.modify ref f)[ref']? = _
      rw [List.getElem?_modify, hs]
      rfl
    · have hshape := hf s
      simp only [shape, Prod.mk.injEq] at hshape
      obtain ⟨hc, hsrc, hp, hres⟩ := hshape
      split
      · exact ⟨hc, hsrc, hp, hstop s, fun _ => hres, fun _ _ _ h => hres ▸ h⟩
      · exact ⟨rfl, rfl, rfl, id, fun _ => rfl, fun _ _ _ h => h⟩
  __ := Evolves.refl t

theorem evolves_rows (rows : List CoverageResource) : Evolves t { t with rows := rows } :=
  { Evolves.refl t with }

/-- Step: a registration revives no session. -/
theorem evolves_opened (cluster : String) (source : CoverageSource)
    (gvrs : List GroupVersionResource) (now : Time) :
    Evolves t (opened t cluster source gvrs now) where
  session := by
    intro ref s hs
    obtain ⟨hlt, -⟩ := List.getElem?_eq_some_iff.mp hs
    exact ⟨s, (List.getElem?_append_left hlt).trans hs, rfl, rfl, rfl, id, fun _ => rfl,
      fun _ _ _ h => h⟩
  locked := by
    intro cluster' source' ref hlt href
    rw [sessionLocked_opened] at href
    split at href
    · cases href
      exact absurd hlt (Nat.lt_irrefl _)
    · exact href
  __ := Evolves.refl t

end

variable {now : Time} {ref : SessionRef} {gvr : GroupVersionResource} {s : CoverageSession}

/-- Step: nor does the registration of a type. -/
theorem evolves_typeOpened (hopens : TypeOpens t ref s gvr now) :
    Evolves t (typeOpened t ref s gvr now) where
  session := by
    intro ref' s' hs'
    refine ⟨_, getElem?_typeOpened hs', ?_⟩
    split
    · rename_i href
      refine ⟨rfl, rfl, rfl, id, ?_, ?_⟩
      · -- the session that registers the type is no token
        intro htoken
        rw [← href, hopens.session] at hs'
        cases hs'
        exact absurd hopens.top htoken
      intro gvr' row hlt hrow
      -- the only new pointer is to the new row
      rcases GoMap.of_lookup_insert hrow with ⟨-, rfl⟩ | hold
      · exact absurd hlt (Nat.lt_irrefl _)
      · exact hold
    · exact ⟨rfl, rfl, rfl, id, fun _ => rfl, fun _ _ _ h => h⟩
  __ := Evolves.refl t

theorem evolves_inventoryOpened (t : CoverageTracker) (cluster : String) :
    Evolves t (inventoryOpened t cluster) where
  __ := Evolves.refl t
  inventory := by
    intro ref e he
    obtain ⟨hlt, -⟩ := List.getElem?_eq_some_iff.mp he
    exact ⟨e, (List.getElem?_append_left hlt).trans he, rfl, id⟩
  filed := by
    intro cluster' ref hlt href
    rcases GoMap.of_lookup_insert href with ⟨-, rfl⟩ | hold
    · exact absurd hlt (Nat.lt_irrefl _)
    · exact hold

theorem evolves_inventoryWritten (t : CoverageTracker) (ref : InventoryRef)
    {f : APIInventoryEvidence → APIInventoryEvidence}
    (hf : ∀ e, (f e).clusterID = e.clusterID ∧ (e.stopped = true → (f e).stopped = true)) :
    Evolves t (inventoryWritten t ref f) where
  __ := Evolves.refl t
  inventory := by
    intro ref' e he
    refine ⟨if ref = ref' then f e else e, ?_, ?_⟩
    · show (t.inventorySessions.modify ref f)[ref']? = _
      rw [List.getElem?_modify, he]
      rfl
    · split
      · exact hf e
      · exact ⟨rfl, id⟩

/-- Every operation lets the sessions evolve. -/
theorem evolves_step (t : CoverageTracker) (ext : Externals) (op : Op) :
    Evolves t (t.step ext op) := by
  have h := effect t ext op
  generalize t.step ext op = t' at h
  cases h with
  | refused => exact Evolves.refl t
  | begin | beginSource => exact evolves_opened t _ _ _ _
  | limit hrefused =>
    exact evolves_modify t _ (f := fun s => { s with limited := true }) (fun _ => rfl)
      (fun _ h => h) t.rows
  | beginType hopens => exact evolves_typeOpened hopens
  | update hop row f => exact evolves_rows t _
  | stop ref s now =>
    exact evolves_modify t ref (f := fun s => { s with stopped := true }) (fun _ => rfl)
      (fun _ _ => rfl) _
  | recordDiscovery hs hsource hvalid hunknown =>
    apply evolves_modify
    · intro s'
      rfl
    · intro s' hs'
      exact hs'
  | beginAPIInventory hroom => exact evolves_inventoryOpened t _
  | recordInventory ref howned => exact evolves_inventoryWritten t ref fun e => ⟨rfl, id⟩
  | stopInventory ref => exact evolves_inventoryWritten t ref fun e => ⟨rfl, fun _ => rfl⟩

/-! ### Sessions that have lost their rows -/

/-- The session is not active, or is a token whose rows its parent
does not hold. -/
def Cut (t : CoverageTracker) (ref : SessionRef) : Prop :=
  ∃ s, t.sessions[ref]? = some s ∧
    (t.activeLocked ref s = false ∨
      ∃ parent p, s.parent = some parent ∧ t.sessions[parent]? = some p ∧
        ∀ gvr row, s.resources.lookup gvr = some row → p.resources.lookup gvr ≠ some row)

theorem activeLocked_eq_false :
    t.activeLocked ref s = false ↔
      s.stopped = true ∨ (∃ o, t.sessions[s.parent.getD ref]? = some o ∧ o.stopped = true) ∨
        t.sessionLocked s.cluster s.source ≠ some (s.parent.getD ref) := by
  unfold CoverageTracker.activeLocked
  simp only [Bool.and_eq_false_iff, Bool.not_eq_false', decide_eq_false_iff_not, or_assoc]
  cases t.sessions[s.parent.getD ref]? with
  | none | some => simp

/-- The owner of a session exists. -/
theorem WellFormed.owner (hwf : WellFormed t) (hs : t.sessions[ref]? = some s) :
    ∃ o, t.sessions[s.parent.getD ref]? = some o := by
  cases hparent : s.parent with
  | none => exact ⟨s, hs⟩
  | some parent =>
    obtain ⟨p, hp, -⟩ := hwf.token ref s parent hs hparent
    exact ⟨p, hp⟩

/-- A session that is cut stays cut. -/
theorem Cut.evolves (hwf : WellFormed t) (h : Evolves t t') (hcut : Cut t ref) : Cut t' ref := by
  obtain ⟨s, hs, hwhy⟩ := hcut
  obtain ⟨s', hs', hcluster, hsource, hparent, hstopped, htoken, -⟩ := h.session ref s hs
  refine ⟨s', hs', ?_⟩
  rcases hwhy with hinactive | ⟨parent, p, hsp, hp, hlost⟩
  · left
    rw [activeLocked_eq_false] at hinactive ⊢
    rw [hcluster, hsource, hparent]
    rcases hinactive with hstop | ⟨o, ho, hostop⟩ | hlocked
    · exact Or.inl (hstopped hstop)
    · obtain ⟨o', ho', -, -, -, hostop', -⟩ := h.session _ o ho
      exact Or.inr (Or.inl ⟨o', ho', hostop' hostop⟩)
    · -- only a new session takes a place
      obtain ⟨o, ho⟩ := hwf.owner hs
      obtain ⟨hlt, -⟩ := List.getElem?_eq_some_iff.mp ho
      exact Or.inr (Or.inr fun hnew => hlocked (h.locked _ _ _ hlt hnew))
  · right
    obtain ⟨p', hp', -, -, -, -, -, hpres⟩ := h.session parent p hp
    refine ⟨parent, p', hparent.trans hsp, hp', ?_⟩
    intro gvr row hrow hrow'
    -- the token has the row it always had, and its parent only points at newer ones
    rw [htoken (by rw [hsp]; nofun)] at hrow
    exact hlost gvr row hrow (hpres gvr row (hwf.allocated ref s gvr row hs hrow) hrow')

/-- An active session that is cut is a token, and owns no row. -/
theorem Cut.lost (hcut : Cut t ref) (hs : t.sessions[ref]? = some s)
    (hactive : t.activeLocked ref s = true) :
    s.parent ≠ none ∧
      ∀ gvr row, s.resources.lookup gvr = some row → t.ownsTypeLocked s gvr row = false := by
  obtain ⟨s', hs', hwhy⟩ := hcut
  rw [hs] at hs'
  cases hs'
  rcases hwhy with hinactive | ⟨parent, p, hsp, hp, hlost⟩
  · rw [hinactive] at hactive
    contradiction
  · refine ⟨by simp [hsp], fun gvr row hrow => ?_⟩
    simpa [CoverageTracker.ownsTypeLocked, hsp, hp] using hlost gvr row hrow

/-- The inventory session has stopped, or another one has its place. -/
def InventoryCut (t : CoverageTracker) (ref : InventoryRef) : Prop :=
  ∃ e, t.inventorySessions[ref]? = some e ∧
    (e.stopped = true ∨ t.inventories.lookup e.clusterID ≠ some ref)

variable {ref : InventoryRef}

theorem InventoryCut.evolves (h : Evolves t t') (hcut : InventoryCut t ref) :
    InventoryCut t' ref := by
  obtain ⟨e, he, hwhy⟩ := hcut
  obtain ⟨e', he', hcluster, hstopped⟩ := h.inventory ref e he
  refine ⟨e', he', ?_⟩
  rw [hcluster]
  rcases hwhy with hstop | hfiled
  · exact Or.inl (hstopped hstop)
  · obtain ⟨hlt, -⟩ := List.getElem?_eq_some_iff.mp he
    exact Or.inr fun hnew => hfiled (h.filed _ _ hlt hnew)

section Run

variable (ext : Externals) (staleAfter : Duration)

theorem run_append (before after : List Op) :
    CoverageTracker.run ext staleAfter (before ++ after)
      = after.foldl (fun t op => t.step ext op) (.run ext staleAfter before) := by
  exact List.foldl_append

variable {ref : SessionRef} {ops : List Op}

end Run

end KubeAtlas.Proofs.Coverage
