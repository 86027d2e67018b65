import KubeAtlas.Proofs.Store.Contents
import KubeAtlas.Store.History

/-!
# `KubeAtlas.Proofs.Store.SecretBoundary`: nothing of a Secret is kept

The store is written by callers that have read Secrets.
`AgreeUpToSecrets` relates two writes that differ only in what must
not be kept: the fields of a Secret beyond its identity, and the
payload of an event. Two such writes leave the same store, so two
histories of them cannot be told apart by any read
(`secret_boundary`).
-/

set_option autoImplicit false

namespace KubeAtlas.Proofs.Store

open KubeAtlas.Graph Lib
open Operations (Time)
open KubeAtlas.Store
open KubeAtlas.Store.LoggedStore (Op Read)

/-! ### Two writes -/

/-- The identity of a Secret: what an observer may learn of it. -/
structure SameSecret (r r' : Resource) : Prop where
  kind : r.kind = "Secret"
  kind' : r'.kind = "Secret"
  ns : r.ns = r'.ns
  name : r.name = r'.name
  clusterID : r.clusterID = r'.clusterID

/-- Two writes that are equal except for the fields of Secrets
beyond their identity, and for the payload of an event. -/
inductive AgreeUpToSecrets : Op → Op → Prop
  | same (op : Op) : AgreeUpToSecrets op op
  | secret {r r' : Resource} (h : SameSecret r r') :
      AgreeUpToSecrets (.graph (.upsertResource r)) (.graph (.upsertResource r'))
  | event {e e' : ResourceEvent} (h : { e with data := e'.data } = e') (now : Time) :
      AgreeUpToSecrets (.appendEvent e now) (.appendEvent e' now)

theorem SameSecret.sanitizeResource_eq {r r' : Resource} (h : SameSecret r r') :
    sanitizeResource r = sanitizeResource r' := by
  rw [sanitizeResource_of_secret r h.kind, sanitizeResource_of_secret r' h.kind', h.ns, h.name,
    h.clusterID]

/-- Two such writes leave the same store. -/
theorem AgreeUpToSecrets.step_eq {op op' : Op} (h : AgreeUpToSecrets op op') (range : MapOrder)
    (s : LoggedStore) : s.step range op = s.step range op' := by
  cases h with
  | same => rfl
  | secret h =>
    -- the store only sees the sanitized resource
    have hput : ∀ m : MemoryStore, m.upsertResource _ = m.upsertResource _ := fun m =>
      show { m with resources := m.resources.insert _ _ } = _ by
        rw [h.sanitizeResource_eq]
        rfl
    exact congrArg (fun m => { s with toMemoryStore := m }) (hput s.toMemoryStore)
  | event h now =>
    rename_i e e'
    have hmeta : metadataOnlyEvent e = metadataOnlyEvent e' := by
      rw [← h]
      rfl
    show s.appendEvent e now = s.appendEvent e' now
    unfold LoggedStore.appendEvent
    rw [hmeta]

theorem AgreeUpToSecrets.run_eq {ops ops' : List Op} (h : List.Forall₂ AgreeUpToSecrets ops ops')
    (range : MapOrder) : LoggedStore.run range ops = .run range ops' := by
  -- over the two histories at once, from any store
  have hfold :
      ∀ s, ops.foldl (LoggedStore.step range) s = ops'.foldl (LoggedStore.step range) s := by
    induction h with
    | nil => exact fun _ => rfl
    | cons hop _ ih =>
      intro s
      rw [List.foldl_cons, List.foldl_cons, hop.step_eq range s]
      exact ih _
  exact hfold _

/-! ### Reachable stores -/

/-- The graph of a history is the graph of its graph writes. -/
def graphOps (ops : List Op) : List MemoryStore.Op :=
  ops.filterMap fun
    | .graph op => some op
    | _ => none

variable (range : MapOrder) (ops : List Op)

theorem toMemoryStore_run :
    (LoggedStore.run range ops).toMemoryStore = MemoryStore.run range (graphOps ops) := by
  have hfold : ∀ s : LoggedStore, (ops.foldl (LoggedStore.step range) s).toMemoryStore
      = (graphOps ops).foldl (MemoryStore.step range) s.toMemoryStore := by
    induction ops with
    | nil => exact fun _ => rfl
    | cons op ops ih =>
      intro s
      rw [List.foldl_cons, ih, LoggedStore.toMemoryStore_step]
      cases op with
      | graph op => rfl
      | _ => rfl
  exact hfold _

/-- No buffered event has a payload. -/
theorem data_of_mem_events :
    ∀ e ∈ (LoggedStore.run range ops).events, e.data = none := by
  refine List.foldlRecOn
    (motive := fun s : LoggedStore => ∀ e ∈ s.events, e.data = none) _ _ ?_ ?_
  · exact fun e he => absurd he List.not_mem_nil
  · intro s hs op _ e he
    cases op with
    | graph op => exact hs e he
    | appendEvent new now =>
      change e ∈ (s.appendEvent new now).events at he
      rw [LoggedStore.events_appendEvent] at he
      rcases List.mem_append.mp (mem_of_mem_retained he) with hold | hnew
      · exact hs e hold
      · rw [List.mem_singleton.mp hnew]
        rfl
    | appendSnapshotMeta m now =>
      change e ∈ (s.appendSnapshotMeta m now).events at he
      rw [LoggedStore.events_appendSnapshotMeta] at he
      exact hs e he
    | deleteEventsBefore cutoff => exact hs e (List.mem_of_mem_filter he)

/-- A stored Secret is the reference to it, and nothing else. -/
theorem secret_of_stored {id : String} {r : Resource}
    (hget : (LoggedStore.run range ops).resources.lookup id = some r) (hkind : r.kind = "Secret") :
    r = secretReferenceResource r.ns r.name r.clusterID := by
  rw [toMemoryStore_run] at hget
  have hsanitized := (GraphState.run_wellFiled (graphOps ops)).sanitized id r
    (((run_represents range (graphOps ops)).resources id).symm.trans hget)
  rw [sanitizeResource_of_secret r hkind] at hsanitized
  exact hsanitized.symm

/-! ### The boundary -/

/-- Two histories that agree up to Secrets and event payloads give
the same answer to every read, whatever order the maps are ranged
in. In every reachable store a Secret is no more than the reference
to it, and no event has a payload. -/
theorem secret_boundary (range : MapOrder) (fold : Folding) :
    (∀ ops ops' : List Op, List.Forall₂ AgreeUpToSecrets ops ops' → ∀ read : Read,
      (LoggedStore.run range ops).answer range fold read
        = (LoggedStore.run range ops').answer range fold read) ∧
    ∀ ops : List Op,
      (∀ id r, (LoggedStore.run range ops).resources.lookup id = some r → r.kind = "Secret" →
        r = secretReferenceResource r.ns r.name r.clusterID) ∧
      ∀ e ∈ (LoggedStore.run range ops).events, e.data = none := by
  refine ⟨?_, fun ops => ⟨?_, data_of_mem_events range ops⟩⟩
  · intro ops ops' h read
    rw [AgreeUpToSecrets.run_eq h range]
  · exact fun id r hget hkind => secret_of_stored range ops hget hkind

/-- A Secret with its data, and the same Secret without. -/
def tokenSecret (labels : StringMap) (raw : Option Object) : Resource :=
  { kind := "Secret", name := "token", ns := "prod", labels := labels, raw := raw }

/-- A Secret is stored and an event about it is logged. -/
def secretHistory (labels : StringMap) (raw : Option Object) : List Op :=
  [.graph (.upsertResource (tokenSecret labels raw)),
    .graph (.upsertEdge ⟨"prod/Pod/web", "prod/Secret/token", .usesSecret, []⟩),
    .appendEvent { ns := "prod", kind := "Secret", name := "token", eventType := .add
                   data := raw } 7]

/-- The label statistics do not tell a labelled Secret from a bare
one. -/
theorem secret_boundary_token :
    (LoggedStore.run RangeOrder.inserted
        (secretHistory [("team", "payments")] (some [("data", .str "aHVudGVyMg==")]))).answer
          RangeOrder.inserted ⟨id⟩ .listLabelStats
      = (LoggedStore.run RangeOrder.inserted (secretHistory [] none)).answer
          RangeOrder.inserted ⟨id⟩ .listLabelStats :=
  (secret_boundary RangeOrder.inserted ⟨id⟩).1 _ _
    (.cons (.secret ⟨rfl, rfl, rfl, rfl, rfl⟩) (.cons (.same _) (.cons (.event rfl 7) .nil)))
    .listLabelStats

end KubeAtlas.Proofs.Store
