import KubeAtlas.Proofs.Coverage.History

/-!
# `KubeAtlas.Proofs.Coverage.Generations`: the generation of a session

Each new session gets the next generation, over all clusters,
sources and inventories. As long as the counter does not wrap, a
generation that is seen twice belongs to one session
(`generation_run`), and it is never zero (`genBound_run`). A run of
fewer than `2 ^ 64` operations does not wrap it.
-/

set_option autoImplicit false

namespace KubeAtlas.Proofs.Coverage

open Lib Lib.EventLog Operations
open Operations.CoverageTracker (Op)

variable {t t' : CoverageTracker}

/-- The generation of the current session of a cluster and source. -/
def genAt (t : CoverageTracker) (cluster : String) (source : CoverageSource) : Option UInt64 :=
  (current t cluster source).map fun s => s.generation

theorem genAt_eq (t : CoverageTracker) (cluster : String) (source : CoverageSource) :
    genAt t cluster source = (t.sessionLocked cluster source).bind fun ref =>
      (t.sessions.map fun s => s.generation)[ref]? := by
  unfold genAt current
  cases t.sessionLocked cluster source with
  | none => rfl
  | some ref => exact List.getElem?_map.symm

/-- Sessions that change in place keep their generation. -/
theorem SameShape.genAt (h : SameShape t t')
    (hgen : (t'.sessions.map fun s => s.generation) = t.sessions.map fun s => s.generation)
    (cluster : String) (source : CoverageSource) :
    genAt t' cluster source = genAt t cluster source := by
  rw [genAt_eq, genAt_eq, h.sessionLocked, hgen]

theorem Aside.genAt (h : Aside t t') (cluster : String) (source : CoverageSource) :
    genAt t' cluster source = genAt t cluster source :=
  h.shape.genAt h.generations cluster source

/-! ### One operation -/

/-- What an operation does to the generation of a cluster and
source: nothing, and then it opens no session there, or it opens the
next one. -/
def Renews (ext : Externals) (t : CoverageTracker) (cluster : String) (source : CoverageSource)
    (op : Op) : Prop :=
  (genAt (t.step ext op) cluster source = genAt t cluster source ∧
      ∀ gvr e, eventOf t ⟨cluster, source, gvr⟩ op = some e → e.begins = false) ∨
    (genAt (t.step ext op) cluster source = some (t.nextGeneration + 1) ∧
      (t.step ext op).nextGeneration = t.nextGeneration + 1)

variable {ref : SessionRef} {gvr : GroupVersionResource}

theorem begins_callEvent {κ : TypeKey} {e e' : RowEvent} (he' : e'.begins = false)
    (h : callEvent t κ ref gvr e' = some e) :
    e.begins = false := by
  unfold callEvent at h
  split at h
  · cases h
    exact he'
  · contradiction

theorem WellFormed.genAt_begin (hwf : WellFormed t) (cluster cluster' : String)
    (source source' : CoverageSource) (gvrs : List GroupVersionResource) (now : Time) :
    (genAt (t.begin cluster' source' gvrs now).1 cluster source = genAt t cluster source ∧
        ∀ gvr e, openEvent t ⟨cluster, source, gvr⟩ cluster' source' gvrs now
          (t.begin cluster' source' gvrs now).2.isOk = some e → e.begins = false) ∨
      (genAt (t.begin cluster' source' gvrs now).1 cluster source = some (t.nextGeneration + 1) ∧
        (t.begin cluster' source' gvrs now).1.nextGeneration = t.nextGeneration + 1) := by
  rcases begin_cases t cluster' source' gvrs now with h | ⟨-, h⟩ <;> rw [h]
  · refine Or.inl ⟨rfl, ?_⟩
    intro gvr e he
    unfold openEvent at he
    contradiction
  · by_cases hsame : cluster = cluster' ∧ source = source'
    · refine Or.inr ⟨?_, rfl⟩
      rw [genAt, hwf.current_opened, if_pos hsame]
      rfl
    · refine Or.inl ⟨?_, ?_⟩
      · show genAt (opened t cluster' source' gvrs now) cluster source = _
        rw [genAt, hwf.current_opened, if_neg hsame]
        rfl
      · intro gvr e he
        unfold openEvent at he
        rw [if_neg (by simp only [Bool.and_eq_true, decide_eq_true_eq]; tauto)] at he
        contradiction

/-- The registration of a type begins no generation. -/
theorem WellFormed.genAt_typeOpened (hwf : WellFormed t) {s : CoverageSession} {now : Time}
    (cluster : String) (source : CoverageSource) :
    genAt (typeOpened t ref s gvr now) cluster source = genAt t cluster source := by
  unfold genAt current
  show Option.map _ ((t.sessionLocked cluster source).bind _) = _
  cases href : t.sessionLocked cluster source with
  | none => rfl
  | some ref' =>
    obtain ⟨s', hs', -⟩ := hwf.filed cluster source ref' href
    simp only [Option.bind_some, getElem?_typeOpened hs', hs', Option.map_some]
    split <;> rfl

/-- Step: an operation keeps the generation, or begins the next one. -/
theorem WellFormed.renews (hwf : WellFormed t) (ext : Externals) (cluster : String)
    (source : CoverageSource) (op : Op) : Renews ext t cluster source op := by
  -- sessions are not touched, and the event is the one of a callback
  have hcall : ∀ ref gvr f e, e.begins = false →
      genAt (t.update ref gvr f) cluster source = genAt t cluster source ∧
        ∀ gvr' e', callEvent t ⟨cluster, source, gvr'⟩ ref gvr e = some e' →
          e'.begins = false := by
    intro ref gvr f e he
    refine ⟨(sameShape_update t ref gvr f).genAt ?_ cluster source, ?_⟩
    · unfold CoverageTracker.update
      cases t.target ref gvr <;> rfl
    · intro gvr' e'
      exact begins_callEvent he
  cases op with
  | begin cluster' gvrs now => exact hwf.genAt_begin cluster cluster' source .core gvrs now
  | beginSource cluster' source' now =>
    show (genAt (t.beginSource cluster' source' now).1 cluster source = _ ∧
      ∀ gvr e, openEvent t ⟨cluster, source, gvr⟩ cluster' source' [] now
        (t.beginSource cluster' source' now).2.isOk = some e → _) ∨
      (genAt (t.beginSource cluster' source' now).1 cluster source = _ ∧
        (t.beginSource cluster' source' now).1.nextGeneration = _)
    rcases beginSource_cases t cluster' source' now with h | ⟨-, h⟩ <;> rw [h]
    · refine Or.inl ⟨rfl, ?_⟩
      intro gvr e he
      unfold openEvent at he
      contradiction
    · exact hwf.genAt_begin cluster cluster' source source' [] now
  | beginType ref gvr now =>
    refine Or.inl ⟨?_, ?_⟩
    · show genAt (t.beginType ref gvr now).1 cluster source = _
      rcases beginType_cases t ref gvr now with h | ⟨s, -, h⟩ | ⟨s, hopens, h⟩ <;> rw [h]
      · refine (sameShape_typeLimited t ref).genAt ?_ cluster source
        exact Objects.map_modify_of_eq (fun s => s.generation)
          (fun s => { s with limited := true }) (fun _ => rfl) t.sessions ref
      · exact hwf.genAt_typeOpened cluster source
    · intro gvr' e he
      simp only [eventOf] at he
      split at he
      · cases he
        rfl
      · contradiction
  | initialDeliveryComplete ref gvr => exact Or.inl (hcall ref gvr _ .delivered rfl)
  | listResult ref gvr success denied now =>
    exact Or.inl (hcall ref gvr _ (.listed success denied now) rfl)
  | watchStarted ref gvr =>
    exact Or.inl (hcall ref gvr _ (.watchStarted (t.watchStarted ref gvr).2) rfl)
  | watchEnded ref gvr epoch reason now =>
    exact Or.inl (hcall ref gvr _ (.watchEnded epoch reason now) rfl)
  | recordGap ref gvr reason now => exact Or.inl (hcall ref gvr _ (.gap reason now) rfl)
  | stop ref now =>
    refine Or.inl ⟨?_, ?_⟩
    · show genAt (t.stop ref now) cluster source = _
      rcases stop_cases t ref now with ⟨h, -⟩ | ⟨s, -, -, h⟩ <;> rw [h]
      refine (sameShape_halt t ref s now).genAt ?_ cluster source
      exact Objects.map_modify_of_eq (fun s => s.generation)
        (fun s => { s with stopped := true }) (fun _ => rfl) t.sessions ref
    · intro gvr e
      exact begins_callEvent rfl
  | _ => exact Or.inl ⟨Aside.genAt (aside_step t ext (by rfl)) cluster source, by simp [eventOf]⟩

/-- The counter is kept or counts up. -/
theorem nextGeneration_step (t : CoverageTracker) (ext : Externals) (op : Op) :
    (t.step ext op).nextGeneration = t.nextGeneration ∨
      (t.step ext op).nextGeneration = t.nextGeneration + 1 := by
  have h := effect t ext op
  generalize t.step ext op = t' at h
  cases h with
  | begin | beginSource | beginAPIInventory => exact Or.inr rfl
  | _ => exact Or.inl rfl

/-! ### Runs -/

/-- After `n` operations: generations in use are positive and the
counter is beyond none of them. -/
structure GenBound (t : CoverageTracker) (n : Nat) : Prop where
  next : t.nextGeneration.toNat ≤ n
  current : ∀ cluster source g, genAt t cluster source = some g →
    0 < g.toNat ∧ g.toNat ≤ t.nextGeneration.toNat

theorem genBound_new (staleAfter : Duration) : GenBound (.new staleAfter) 0 where
  next := Nat.le_refl 0
  current := by
    intro cluster source g hg
    rw [genAt, Coverage.current, sessionLocked_new] at hg
    contradiction

variable {n : Nat}

/-- The counter after an operation, as a number. -/
theorem GenBound.next_step (h : GenBound t n) (hn : n + 1 < 2 ^ 64) (ext : Externals) (op : Op) :
    t.nextGeneration.toNat ≤ (t.step ext op).nextGeneration.toNat ∧
      (t.step ext op).nextGeneration.toNat ≤ t.nextGeneration.toNat + 1 := by
  rcases nextGeneration_step t ext op with hnext | hnext <;> rw [hnext]
  · omega
  · rw [toNat_succ h.next hn]
    omega

/-- Step: the counter goes up by at most one, and stays ahead of all
generations. -/
theorem GenBound.step (h : GenBound t n) (hwf : WellFormed t) (hn : n + 1 < 2 ^ 64)
    (ext : Externals) (op : Op) : GenBound (t.step ext op) (n + 1) where
  next := by
    have hnext := (h.next_step hn ext op).2
    have := h.next
    omega
  current := by
    intro cluster source g hg
    have hmono := (h.next_step hn ext op).1
    rcases hwf.renews ext cluster source op with ⟨hsame, -⟩ | ⟨hnew, hnext⟩
    · rw [hsame] at hg
      obtain ⟨hpos, hle⟩ := h.current cluster source g hg
      exact ⟨hpos, by omega⟩
    · rw [hnew] at hg
      cases hg
      rw [hnext, toNat_succ h.next hn]
      omega

theorem genBound_foldl (h : GenBound t n) (hwf : WellFormed t) (ext : Externals) (ops : List Op)
    (hn : n + ops.length < 2 ^ 64) :
    GenBound (ops.foldl (fun t op => t.step ext op) t) (n + ops.length) := by
  induction ops generalizing t n with
  | nil => exact h
  | cons op ops ih =>
    rw [List.length_cons] at hn ⊢
    rw [List.foldl_cons, show n + (ops.length + 1) = n + 1 + ops.length by omega]
    exact ih (h.step hwf (by omega) ext op) (hwf.step ext op) (by omega)

/-- Run: so a run of fewer than `2 ^ 64` operations uses no
generation twice. -/
theorem genBound_run (ext : Externals) (staleAfter : Duration) (ops : List Op)
    (hlen : ops.length < 2 ^ 64) : GenBound (.run ext staleAfter ops) ops.length := by
  have h := genBound_foldl (genBound_new staleAfter) (wellFormed_new staleAfter) ext ops (by omega)
  rw [Nat.zero_add] at h
  exact h

/-- Over a run, the current session is the same one, or a newer one
has a generation that was not given out before. -/
theorem generation_run (h : GenBound t n) (hwf : WellFormed t) (ext : Externals) (ops : List Op)
    (hn : n + ops.length < 2 ^ 64) (cluster : String) (source : CoverageSource) :
    (genAt (ops.foldl (fun t op => t.step ext op) t) cluster source = genAt t cluster source ∧
        ∀ gvr, ∀ e ∈ history ext ⟨cluster, source, gvr⟩ t ops, e.begins = false) ∨
      ∃ g, genAt (ops.foldl (fun t op => t.step ext op) t) cluster source = some g ∧
        t.nextGeneration.toNat < g.toNat := by
  induction ops generalizing t n with
  | nil => exact Or.inl ⟨rfl, fun gvr e he => absurd he List.not_mem_nil⟩
  | cons op ops ih =>
    rw [List.length_cons] at hn
    have hstep := h.step hwf (by omega) ext op
    have hmono := (h.next_step (by omega) ext op).1
    rcases ih hstep (hwf.step ext op) (by omega) with ⟨hlater, hquiet⟩ | ⟨g, hg, hlt⟩
    · rcases hwf.renews ext cluster source op with ⟨hsame, hevent⟩ | ⟨hnew, -⟩
      · refine Or.inl ⟨hlater.trans hsame, ?_⟩
        intro gvr e he
        rw [history, log, List.mem_append, Option.mem_toList] at he
        rcases he with he | he
        · exact hquiet gvr e he
        · exact hevent gvr e he
      · refine Or.inr ⟨_, hlater.trans hnew, ?_⟩
        rw [toNat_succ h.next (by omega)]
        omega
    · exact Or.inr ⟨g, hg, by omega⟩

/-- A generation that is seen again belongs to the session that had
it. -/
theorem same_session {ext : Externals} {staleAfter : Duration} {ops between : List Op}
    (hlen : (ops ++ between).length < 2 ^ 64) {cluster : String} {source : CoverageSource}
    {g : UInt64} (hg : genAt (.run ext staleAfter ops) cluster source = some g)
    (hg' : genAt (.run ext staleAfter (ops ++ between)) cluster source = some g)
    (gvr : GroupVersionResource) :
    ∀ e ∈ history ext ⟨cluster, source, gvr⟩ (.run ext staleAfter ops) between,
      e.begins = false := by
  rw [List.length_append] at hlen
  have hbound := genBound_run ext staleAfter ops (by omega)
  have hrun : CoverageTracker.run ext staleAfter (ops ++ between)
      = between.foldl (fun t op => t.step ext op) (.run ext staleAfter ops) := List.foldl_append
  rw [hrun] at hg'
  rcases generation_run hbound (wellFormed_run ext staleAfter ops) ext between hlen cluster source
    with ⟨-, hquiet⟩ | ⟨g', hnew, hlt⟩
  · exact hquiet gvr
  · rw [hg'] at hnew
    cases hnew
    have := (hbound.current cluster source g hg).2
    omega

end KubeAtlas.Proofs.Coverage
