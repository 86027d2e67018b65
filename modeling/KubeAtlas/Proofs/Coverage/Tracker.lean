import KubeAtlas.Proofs.Coverage.Outcomes

/-!
# `KubeAtlas.Proofs.Coverage.Tracker`: well-formed trackers

A `TypeKey` names the row of a type as a snapshot finds it: through
the current session of its cluster and source. `WellFormed` is what
makes rows follow their own history for every interleaving of old
and new collectors: the current sessions belong to where they are
filed, no two types share a row, and the token of a type belongs to
a session of its own cluster and source. Every operation keeps it.
-/

set_option autoImplicit false

namespace KubeAtlas.Proofs.Coverage

open Lib Operations
open Operations.CoverageTracker (Op)

/-! ### Finding a row -/

/-- A type of one source of one cluster. -/
structure TypeKey where
  cluster : String
  source : CoverageSource
  gvr : GroupVersionResource
  deriving DecidableEq, Repr

variable (t : CoverageTracker) (κ : TypeKey)

/-- The current row of a type. -/
def rowRef : Option RowRef :=
  (current t κ.cluster κ.source).bind fun s => s.resources.lookup κ.gvr

/-- The current row of a type, as a value. -/
def rowAt : Option CoverageResource := (rowRef t κ).bind fun row => t.rows[row]?

/-- The session `ref` is one for the cluster and source of the type. -/
def belongs (ref : SessionRef) : Bool :=
  t.sessions[ref]?.any fun s => s.cluster = κ.cluster && s.source = κ.source

/-- A callback of the session `ref` for `gvr` passes every guard,
and reaches the type. -/
def reached (ref : SessionRef) (gvr : GroupVersionResource) : Bool :=
  κ.gvr = gvr && belongs t κ ref && (t.target ref gvr).isSome

variable {t : CoverageTracker} {κ : TypeKey}

/-! ### Well-formed trackers -/

/-- What holds of sessions and rows in every reachable state. -/
structure WellFormed (t : CoverageTracker) : Prop where
  filed : ∀ cluster source ref, t.sessionLocked cluster source = some ref →
    ∃ s, t.sessions[ref]? = some s ∧ s.cluster = cluster ∧ s.source = source ∧ s.parent = none
  token : ∀ (ref : SessionRef) s parent, t.sessions[ref]? = some s → s.parent = some parent →
    ∃ p, t.sessions[parent]? = some p ∧ p.parent = none ∧
      p.cluster = s.cluster ∧ p.source = s.source
  single : ∀ (ref : SessionRef) s parent, t.sessions[ref]? = some s → s.parent = some parent →
    ∃ gvr row, s.resources = AList.singleton gvr row
  allocated : ∀ (ref : SessionRef) s gvr row, t.sessions[ref]? = some s →
    s.resources.lookup gvr = some row → row < t.rows.length
  separate : ∀ κ κ' row, rowRef t κ = some row → rowRef t κ' = some row → κ = κ'

theorem sessionLocked_new (staleAfter : Duration) (cluster : String) (source : CoverageSource) :
    (CoverageTracker.new staleAfter).sessionLocked cluster source = none := by
  unfold CoverageTracker.sessionLocked
  split <;> rfl

theorem rowRef_new (staleAfter : Duration) (κ : TypeKey) : rowRef (.new staleAfter) κ = none := by
  rw [rowRef, current, sessionLocked_new]
  rfl

theorem sessions_new (staleAfter : Duration) (ref : SessionRef) (s : CoverageSession) :
    (CoverageTracker.new staleAfter).sessions[ref]? ≠ some s := by
  show none ≠ some s
  simp

/-- The invariant holds of the empty tracker. -/
theorem wellFormed_new (staleAfter : Duration) : WellFormed (.new staleAfter) where
  filed cluster source ref h := by
    rw [sessionLocked_new] at h
    contradiction
  token ref s _ h := absurd h (sessions_new staleAfter ref s)
  single ref s _ h := absurd h (sessions_new staleAfter ref s)
  allocated ref s _ _ h := absurd h (sessions_new staleAfter ref s)
  separate κ κ' row h := by
    rw [rowRef_new] at h
    contradiction

theorem WellFormed.rowRef_lt (hwf : WellFormed t) {row : RowRef} (h : rowRef t κ = some row) :
    row < t.rows.length := by
  obtain ⟨s, hs, hlookup⟩ := Option.bind_eq_some_iff.mp h
  obtain ⟨ref, -, hget⟩ := Option.bind_eq_some_iff.mp hs
  exact hwf.allocated ref s κ.gvr row hget hlookup

/-- The row that an active session holds and owns is the current row
of its type. -/
theorem WellFormed.rowRef_of_owned (hwf : WellFormed t) {ref : SessionRef}
    {s : CoverageSession} {gvr : GroupVersionResource} {row : RowRef}
    (hs : t.sessions[ref]? = some s) (hactive : t.activeLocked ref s = true)
    (hrow : s.resources.lookup gvr = some row) (howns : t.ownsTypeLocked s gvr row = true) :
    rowRef t ⟨s.cluster, s.source, gvr⟩ = some row := by
  have howner := sessionLocked_of_active hactive
  unfold rowRef current
  rw [howner]
  cases hparent : s.parent with
  | none =>
    show t.sessions[ref]?.bind _ = _
    rw [hs]
    exact hrow
  | some parent =>
    -- a token only owns the row while its session points at it
    obtain ⟨p, hp, -, -, -⟩ := hwf.token ref s parent hs hparent
    unfold CoverageTracker.ownsTypeLocked at howns
    rw [hparent] at howns
    simp only [hp, Option.any_some, decide_eq_true_eq] at howns
    show t.sessions[parent]?.bind _ = _
    rw [hp]
    exact howns

/-- A callback reaches the type whose current row is its target. -/
theorem WellFormed.reached_iff (hwf : WellFormed t) (ref : SessionRef)
    (gvr : GroupVersionResource) :
    reached t κ ref gvr = true ↔
      ∃ row, t.target ref gvr = some row ∧ rowRef t κ = some row := by
  have hrefers : ∀ row, t.target ref gvr = some row → ∃ s, t.sessions[ref]? = some s ∧
      rowRef t ⟨s.cluster, s.source, gvr⟩ = some row := by
    intro row htarget
    obtain ⟨s, r, hs, hactive, hrow, howns, -, -⟩ := target_eq_some htarget
    exact ⟨s, hs, hwf.rowRef_of_owned hs hactive hrow howns⟩
  unfold reached belongs
  constructor
  · intro h
    simp only [Bool.and_eq_true, decide_eq_true_eq] at h
    obtain ⟨⟨hgvr, hbelongs⟩, hsome⟩ := h
    obtain ⟨row, htarget⟩ := Option.isSome_iff_exists.mp hsome
    obtain ⟨s, hs, href⟩ := hrefers row htarget
    rw [hs] at hbelongs
    simp only [Option.any_some, Bool.and_eq_true, decide_eq_true_eq] at hbelongs
    have hkey : (⟨s.cluster, s.source, gvr⟩ : TypeKey) = κ := by
      rw [hbelongs.1, hbelongs.2, ← hgvr]
    exact ⟨row, htarget, hkey ▸ href⟩
  · rintro ⟨row, htarget, hκ⟩
    obtain ⟨s, hs, href⟩ := hrefers row htarget
    have hkey := hwf.separate _ _ row hκ href
    subst hkey
    simp [hs, htarget]

/-! ### Operations that leave the sessions where they are -/

/-- What the rows are found by. -/
def shape (s : CoverageSession) :
    String × CoverageSource × Option SessionRef × GoMap GroupVersionResource RowRef :=
  (s.cluster, s.source, s.parent, s.resources)

/-- Rows are found as before. -/
structure SameShape (t t' : CoverageTracker) : Prop where
  clusters : t'.clusters = t.clusters
  sources : t'.sources = t.sources
  sessions : t'.sessions.map shape = t.sessions.map shape
  rows : t'.rows.length = t.rows.length

namespace SameShape

variable {t' : CoverageTracker}

section

variable (h : SameShape t t')
include h

theorem sessionLocked (cluster : String) (source : CoverageSource) :
    t'.sessionLocked cluster source = t.sessionLocked cluster source := by
  unfold CoverageTracker.sessionLocked
  rw [h.clusters, h.sources]

/-- Sessions correspond, position by position. -/
theorem session (ref : SessionRef) :
    t'.sessions[ref]?.map shape = t.sessions[ref]?.map shape := by
  rw [← List.getElem?_map, ← List.getElem?_map, h.sessions]

theorem exists_session {ref : SessionRef} {s : CoverageSession}
    (hs : t.sessions[ref]? = some s) : ∃ s', t'.sessions[ref]? = some s' ∧
      s'.cluster = s.cluster ∧ s'.source = s.source ∧ s'.parent = s.parent ∧
      s'.resources = s.resources := by
  have hmap := h.session ref
  rw [hs] at hmap
  simpa only [shape, Prod.mk.injEq] using Option.map_eq_some_iff.mp hmap

theorem symm : SameShape t' t :=
  ⟨h.clusters.symm, h.sources.symm, h.sessions.symm, h.rows.symm⟩

theorem rowRef (κ : TypeKey) : rowRef t' κ = rowRef t κ := by
  have hread : ∀ o o' : Option CoverageSession, o'.map shape = o.map shape →
      (o'.bind fun s => s.resources.lookup κ.gvr) = o.bind fun s => s.resources.lookup κ.gvr := by
    intro o o' heq
    have hview : ∀ x : Option CoverageSession, (x.bind fun s => s.resources.lookup κ.gvr)
        = (x.map shape).bind fun v => AList.lookup κ.gvr v.2.2.2 := by
      intro x
      cases x <;> rfl
    rw [hview, hview, heq]
  unfold Coverage.rowRef current
  rw [h.sessionLocked]
  cases t.sessionLocked κ.cluster κ.source with
  | none => rfl
  | some ref => exact hread _ _ (h.session ref)

theorem wellFormed (hwf : WellFormed t) : WellFormed t' where
  filed := by
    intro cluster source ref href
    rw [h.sessionLocked] at href
    obtain ⟨s, hs, hcluster, hsource, hparent⟩ := hwf.filed cluster source ref href
    obtain ⟨s', hs', hc, hsrc, hp, -⟩ := h.exists_session hs
    exact ⟨s', hs', hc.trans hcluster, hsrc.trans hsource, hp.trans hparent⟩
  token := by
    intro ref s' parent hs' hparent
    obtain ⟨s, hs, hc, hsrc, hp, -⟩ := h.symm.exists_session hs'
    obtain ⟨p, hpget, hnone, hpc, hpsrc⟩ := hwf.token ref s parent hs (hp.trans hparent)
    obtain ⟨p', hpget', hc', hsrc', hp', -⟩ := h.exists_session hpget
    exact ⟨p', hpget', hp'.trans hnone, (hc'.trans hpc).trans hc, (hsrc'.trans hpsrc).trans hsrc⟩
  single := by
    intro ref s' parent hs' hparent
    obtain ⟨s, hs, -, -, hp, hres⟩ := h.symm.exists_session hs'
    rw [← hres]
    exact hwf.single ref s parent hs (hp.trans hparent)
  allocated := by
    intro ref s' gvr row hs' hrow
    obtain ⟨s, hs, -, -, -, hres⟩ := h.symm.exists_session hs'
    rw [h.rows]
    exact hwf.allocated ref s gvr row hs (hres ▸ hrow)
  separate := by
    intro κ κ' row hrow hrow'
    rw [h.rowRef] at hrow hrow'
    exact hwf.separate κ κ' row hrow hrow'

end

end SameShape

section

variable (t : CoverageTracker) (ref : SessionRef)

/-- A session is changed in a field that no row is found by. -/
theorem sameShape_modify {f : CoverageSession → CoverageSession} (hf : ∀ s, shape (f s) = shape s)
    {rows : List CoverageResource} (hrows : rows.length = t.rows.length) :
    SameShape t { t with sessions := t.sessions.modify ref f, rows := rows } :=
  ⟨rfl, rfl, Objects.map_modify_of_eq shape f hf t.sessions ref, hrows⟩

/-- A write to a row moves no session. -/
theorem sameShape_update (gvr : GroupVersionResource)
    (f : CoverageResource → CoverageResource) : SameShape t (t.update ref gvr f) := by
  unfold CoverageTracker.update
  cases t.target ref gvr with
  | none => exact ⟨rfl, rfl, rfl, rfl⟩
  | some row => exact ⟨rfl, rfl, rfl, List.length_modify ..⟩

/-- Stopping sets flags and moves no session. -/
theorem sameShape_halt (s : CoverageSession) (now : Time) : SameShape t (halt t ref s now) := by
  apply sameShape_modify t ref (f := fun s => { s with stopped := true }) (fun _ => rfl)
  refine List.foldlRecOn
    (motive := fun rows : List CoverageResource => rows.length = t.rows.length) _ _ rfl ?_
  intro rows hlength e _
  split
  · rw [List.length_modify, hlength]
  · exact hlength

theorem sameShape_typeLimited :
    SameShape t (typeLimited t ref) :=
  sameShape_modify t ref (f := fun s => { s with limited := true }) (fun _ => rfl) rfl

theorem sameShape_discovered (s : CoverageSession) (state : SourceDiscoveryState) (checked : Time) :
    SameShape t (discovered t ref s state checked) := by
  apply sameShape_modify
  · intro s'
    rfl
  · rfl

end

/-- Sessions and rows are where they were, and rows are what they
were. -/
structure Aside (t t' : CoverageTracker) : Prop where
  shape : SameShape t t'
  rows : t'.rows = t.rows
  generations : (t'.sessions.map fun s => s.generation) = t.sessions.map fun s => s.generation

/-- Discovery and the inventory leave sessions and rows where they
are. -/
theorem aside_step (t : CoverageTracker) (ext : Externals) {op : Op} (hop : isAside op = true) :
    Aside t (t.step ext op) := by
  have h := effect t ext op
  generalize t.step ext op = t' at h
  cases h with
  | recordDiscovery hs hsource hvalid hunknown =>
    refine ⟨sameShape_discovered t _ _ _ _, rfl, ?_⟩
    apply Objects.map_modify_of_eq
    intro s
    rfl
  | update hno row f =>
    rw [hno] at hop
    contradiction
  | refused | beginAPIInventory | recordInventory | stopInventory =>
      exact ⟨⟨rfl, rfl, rfl, rfl⟩, rfl, rfl⟩
  | _ => contradiction

/-! ### New sessions -/

/-- A registration is current at its own key and leaves the other
keys alone. -/
theorem sessionLocked_opened (t : CoverageTracker) (cluster cluster' : String)
    (source source' : CoverageSource) (gvrs : List GroupVersionResource) (now : Time) :
    (opened t cluster source gvrs now).sessionLocked cluster' source'
      = if cluster' = cluster ∧ source' = source then some t.sessions.length
        else t.sessionLocked cluster' source' := by
  unfold CoverageTracker.sessionLocked opened
  by_cases hcore : source' = .core
  · subst hcore
    rw [if_pos rfl, if_pos rfl]
    by_cases hsource : source = .core
    · subst hsource
      simp only [if_true, and_true]
      split
      · rename_i hcluster
        rw [hcluster, AList.lookup_insert]
      · rename_i hcluster
        exact AList.lookup_insert_ne hcluster
    · simp only [if_neg hsource]
      rw [if_neg fun h => hsource h.2.symm]
  · rw [if_neg hcore, if_neg hcore]
    by_cases hsource : source = .core
    · subst hsource
      simp only [if_true]
      rw [if_neg fun h => hcore h.2]
    · simp only [if_neg hsource, NestedMap.get?_put]

/-- The current session after a new one was opened. -/
theorem WellFormed.current_opened (hwf : WellFormed t) (cluster cluster' : String)
    (source source' : CoverageSource) (gvrs : List GroupVersionResource) (now : Time) :
    current (opened t cluster source gvrs now) cluster' source'
      = if cluster' = cluster ∧ source' = source then some (openedSession t cluster source gvrs now)
        else current t cluster' source' := by
  unfold current
  rw [sessionLocked_opened]
  split
  · show (t.sessions ++ [_])[t.sessions.length]? = _
    exact List.getElem?_concat_length
  · cases href : t.sessionLocked cluster' source' with
    | none => rfl
    | some ref =>
      obtain ⟨s, hs, -⟩ := hwf.filed cluster' source' ref href
      obtain ⟨hlt, -⟩ := List.getElem?_eq_some_iff.mp hs
      exact List.getElem?_append_left hlt

/-- It gets new rows, at addresses that were free, and the rows of
the other sources stay. -/
theorem WellFormed.rowRef_opened (hwf : WellFormed t) (κ : TypeKey) (cluster : String)
    (source : CoverageSource) (gvrs : List GroupVersionResource) (now : Time) :
    rowRef (opened t cluster source gvrs now) κ
      = if κ.cluster = cluster ∧ κ.source = source then
          ((openedRows t cluster source gvrs now).addresses t.rows.length).lookup κ.gvr
        else rowRef t κ := by
  unfold rowRef
  rw [hwf.current_opened]
  split
  · rfl
  · rfl

/-- Step: a registration keeps the invariant. -/
theorem wellFormed_opened (hwf : WellFormed t) (cluster : String) (source : CoverageSource)
    (gvrs : List GroupVersionResource) (now : Time) :
    WellFormed (opened t cluster source gvrs now) where
  filed := by
    intro cluster' source' ref href
    have hcur := hwf.current_opened cluster cluster' source source' gvrs now
    unfold current at hcur
    rw [href] at hcur
    split at hcur
    · rename_i hsame
      exact ⟨_, hcur, hsame.1.symm, hsame.2.symm, rfl⟩
    · rename_i hother
      rw [sessionLocked_opened, if_neg hother] at href
      rw [href] at hcur
      obtain ⟨s, hs, hrest⟩ := hwf.filed cluster' source' ref href
      exact ⟨s, hcur.trans hs, hrest⟩
  token := by
    intro ref s parent hs hparent
    rcases Objects.getElem?_concat_eq_some hs with hs | ⟨-, rfl⟩
    · obtain ⟨p, hp, hrest⟩ := hwf.token ref s parent hs hparent
      obtain ⟨hlt, -⟩ := List.getElem?_eq_some_iff.mp hp
      exact ⟨p, (List.getElem?_append_left hlt).trans hp, hrest⟩
    · contradiction
  single := by
    intro ref s parent hs hparent
    rcases Objects.getElem?_concat_eq_some hs with hs | ⟨-, rfl⟩
    · exact hwf.single ref s parent hs hparent
    · contradiction
  allocated := by
    intro ref s gvr row hs hrow
    show row < (t.rows ++ _).length
    rw [List.length_append]
    rcases Objects.getElem?_concat_eq_some hs with hs | ⟨-, rfl⟩
    · exact Nat.lt_add_right _ (hwf.allocated ref s gvr row hs hrow)
    · have hrange := GoMap.le_of_lookup_addresses hrow
      unfold GoMap.stored
      rw [List.length_map]
      exact hrange.2
  separate := by
    intro κ κ' row hκ hκ'
    rw [hwf.rowRef_opened] at hκ hκ'
    -- rows of the new session are new, and the other ones were separate before
    have hnew : ∀ {g}, ((openedRows t cluster source gvrs now).addresses t.rows.length).lookup g
        = some row → ∀ {κ₀}, rowRef t κ₀ = some row → False := by
      intro g hg κ₀ hκ₀
      have hle := (GoMap.le_of_lookup_addresses hg).1
      exact absurd (hwf.rowRef_lt hκ₀) (Nat.not_lt.mpr hle)
    split at hκ <;> split at hκ'
    · rename_i hsame hsame'
      have hgvr := GoMap.addresses_inj hκ hκ'
      cases κ
      cases κ'
      simp_all
    · exact (hnew hκ hκ').elim
    · exact (hnew hκ' hκ).elim
    · exact hwf.separate κ κ' row hκ hκ'

/-! ### New types -/

section TypeOpened

variable {ref : SessionRef} {s : CoverageSession} {gvr : GroupVersionResource} {now : Time}

theorem TypeOpens.current (h : TypeOpens t ref s gvr now) :
    t.sessionLocked s.cluster s.source = some ref ∧ current t s.cluster s.source = some s := by
  have href := sessionLocked_of_active h.active
  rw [h.top] at href
  refine ⟨href, ?_⟩
  rw [Coverage.current, href]
  exact h.session

variable {ref' : SessionRef} {s' : CoverageSession}

/-- Registering a type changes one session of the list and adds one. -/
theorem getElem?_typeOpened (hs' : t.sessions[ref']? = some s') :
    (typeOpened t ref s gvr now).sessions[ref']?
      = some (if ref = ref' then
          { s' with resources := s'.resources.insert gvr t.rows.length } else s') := by
  obtain ⟨hlt, -⟩ := List.getElem?_eq_some_iff.mp hs'
  show (t.sessions.modify ref _ ++ [_])[ref']? = _
  rw [List.getElem?_append_left (by rw [List.length_modify]; exact hlt), List.getElem?_modify, hs']
  rfl

/-- A session after a type was registered: one of before, or the
token of the type. -/
theorem session_typeOpened (hs' : (typeOpened t ref s gvr now).sessions[ref']? = some s') :
    (∃ s₀, t.sessions[ref']? = some s₀ ∧ s' = if ref = ref' then
        { s₀ with resources := s₀.resources.insert gvr t.rows.length } else s₀) ∨
      s' = { cluster := s.cluster, source := s.source, parent := some ref
             resources := AList.singleton gvr t.rows.length } := by
  rcases Objects.getElem?_concat_eq_some hs' with hs' | ⟨-, rfl⟩
  · rw [List.getElem?_modify] at hs'
    obtain ⟨s₀, hs₀, rfl⟩ := Option.map_eq_some_iff.mp hs'
    exact Or.inl ⟨s₀, hs₀, rfl⟩
  · exact Or.inr rfl

/-- A type that is registered gets a new row; no other type does. -/
theorem WellFormed.rowRef_typeOpened (hwf : WellFormed t) (h : TypeOpens t ref s gvr now)
    (κ : TypeKey) :
    rowRef (typeOpened t ref s gvr now) κ
      = if κ = ⟨s.cluster, s.source, gvr⟩ then some t.rows.length else rowRef t κ := by
  have hlocked : ∀ c src, (typeOpened t ref s gvr now).sessionLocked c src
      = t.sessionLocked c src := fun _ _ => rfl
  obtain ⟨href, hcur⟩ := h.current
  unfold rowRef current
  rw [hlocked]
  cases hκ : t.sessionLocked κ.cluster κ.source with
  | none =>
    rw [if_neg]
    · rfl
    · rintro rfl
      rw [href] at hκ
      contradiction
  | some ref' =>
    obtain ⟨s', hs', hcluster, hsource, -⟩ := hwf.filed _ _ _ hκ
    simp only [Option.bind_some, hs', getElem?_typeOpened hs']
    by_cases hsame : ref = ref'
    · -- the session of the type: only the new type is found elsewhere
      subst hsame
      rw [h.session] at hs'
      cases hs'
      rw [if_pos rfl]
      by_cases hgvr : κ.gvr = gvr
      · rw [if_pos (by rw [hcluster, hsource, ← hgvr]), hgvr]
        exact AList.lookup_insert _
      · rw [if_neg (by rintro rfl; exact hgvr rfl)]
        exact AList.lookup_insert_ne hgvr
    · rw [if_neg hsame, if_neg]
      rintro rfl
      rw [href] at hκ
      exact hsame (Option.some.inj hκ)

/-- Step: the registration of a type keeps the invariant. -/
theorem wellFormed_typeOpened (hwf : WellFormed t) (h : TypeOpens t ref s gvr now) :
    WellFormed (typeOpened t ref s gvr now) where
  filed := by
    intro cluster source ref' href'
    obtain ⟨s', hs', hcluster, hsource, hparent⟩ := hwf.filed cluster source ref' href'
    refine ⟨_, getElem?_typeOpened hs', ?_⟩
    split <;> exact ⟨hcluster, hsource, hparent⟩
  token := by
    intro ref' s' parent hs' hparent
    -- the parent is still there
    have hfind : ∀ p, t.sessions[parent]? = some p → p.parent = none → p.cluster = s'.cluster →
        p.source = s'.source → ∃ p', (typeOpened t ref s gvr now).sessions[parent]? = some p' ∧
          p'.parent = none ∧ p'.cluster = s'.cluster ∧ p'.source = s'.source := by
      intro p hp hnone hc hsrc
      refine ⟨_, getElem?_typeOpened hp, ?_⟩
      split <;> exact ⟨hnone, hc, hsrc⟩
    rcases session_typeOpened hs' with ⟨s₀, hs₀, rfl⟩ | rfl
    · have hkeep : s₀.parent = some parent := by
        rw [← hparent]
        split <;> rfl
      obtain ⟨p, hp, hnone, hc, hsrc⟩ := hwf.token ref' s₀ parent hs₀ hkeep
      refine hfind p hp hnone ?_ ?_
      · rw [hc]
        split <;> rfl
      · rw [hsrc]
        split <;> rfl
    · cases hparent
      exact hfind s h.session h.top rfl rfl
  single := by
    intro ref' s' parent hs' hparent
    rcases session_typeOpened hs' with ⟨s₀, hs₀, rfl⟩ | rfl
    · have hother : ref ≠ ref' := by
        rintro rfl
        rw [h.session] at hs₀
        cases hs₀
        rw [if_pos rfl, h.top] at hparent
        contradiction
      rw [if_neg hother] at hparent ⊢
      exact hwf.single ref' s₀ parent hs₀ hparent
    · exact ⟨gvr, t.rows.length, rfl⟩
  allocated := by
    intro ref' s' gvr' row hs' hrow
    show row < (t.rows ++ [_]).length
    rw [List.length_append, List.length_singleton]
    rcases session_typeOpened hs' with ⟨s₀, hs₀, rfl⟩ | rfl
    · split at hrow
      · rcases GoMap.of_lookup_insert hrow with ⟨-, rfl⟩ | hold
        · exact Nat.lt_succ_self _
        · exact Nat.lt_succ_of_lt (hwf.allocated ref' s₀ gvr' row hs₀ hold)
      · exact Nat.lt_succ_of_lt (hwf.allocated ref' s₀ gvr' row hs₀ hrow)
    · rcases GoMap.of_lookup_insert (m := ∅) hrow with ⟨-, rfl⟩ | hold
      · exact Nat.lt_succ_self _
      · contradiction
  separate := by
    intro κ κ' row hκ hκ'
    rw [hwf.rowRef_typeOpened h] at hκ hκ'
    split at hκ <;> split at hκ'
    · rename_i hκ₀ hκ₀'
      exact hκ₀.trans hκ₀'.symm
    · cases hκ
      exact absurd (hwf.rowRef_lt hκ') (Nat.lt_irrefl _)
    · cases hκ'
      exact absurd (hwf.rowRef_lt hκ) (Nat.lt_irrefl _)
    · exact hwf.separate κ κ' row hκ hκ'

end TypeOpened

/-! ### Runs -/

/-- One operation keeps the tracker well-formed. -/
theorem WellFormed.step (hwf : WellFormed t) (ext : Externals) (op : Op) :
    WellFormed (t.step ext op) := by
  have h := effect t ext op
  generalize t.step ext op = t' at h
  cases h with
  | begin | beginSource => exact wellFormed_opened hwf _ _ _ _
  | beginType hopens => exact wellFormed_typeOpened hwf hopens
  -- the rest writes in place
  | limit hrefused => exact (sameShape_typeLimited t _).wellFormed hwf
  | update hop row f =>
    exact SameShape.wellFormed (t := t) ⟨rfl, rfl, rfl, List.length_modify ..⟩ hwf
  | stop ref s now => exact (sameShape_halt t ref s now).wellFormed hwf
  | recordDiscovery hs hsource hvalid hunknown =>
    exact (sameShape_discovered t _ _ _ _).wellFormed hwf
  | _ => exact SameShape.wellFormed (t := t) ⟨rfl, rfl, rfl, rfl⟩ hwf

end KubeAtlas.Proofs.Coverage
