import KubeAtlas.Store.Memory

/-!
# `KubeAtlas.Proofs.Store.Contents`: the in-memory store is a graph

What the store is for: a graph is a map from identifiers to
resources and a map from `(from, to, type)` to edges. `GraphState`
is that, with the four writes in its own terms. The store keeps
every edge twice, in two maps of maps that are edited by separate
loops. `Represents` says that both of them are the edge map, and
each write keeps it so; a run of the store therefore represents the
run of the graph.

One write does more than its name says. An edge whose target reads
as the identifier of a Secret also files a reference node for that
Secret, replacing whatever was there. `upsertEdge_files_reference`
is the smallest run that shows it.
-/

set_option autoImplicit false

namespace KubeAtlas.Proofs.Store

open Function (update)
open KubeAtlas.Graph Lib KubeAtlas.Store KubeAtlas.Store.MemoryStore

/-! ### Graphs -/

/-- A graph, as the two maps its users think of. -/
structure GraphState where
  resources : String → Option Resource
  edges : EdgeKey → Option Edge

namespace GraphState

def empty : GraphState := ⟨fun _ => none, fun _ => none⟩

/-- File a resource under its identifier. -/
def putResource (a : GraphState) (r : Resource) : GraphState :=
  { a with resources := update a.resources r.ID (some r) }

/-- File an edge under its key. -/
def putEdge (a : GraphState) (e : Edge) : GraphState :=
  { a with edges := update a.edges e.key (some e) }

/-- Remove a resource and the edges incident on it. -/
def deleteResource (a : GraphState) (id : String) : GraphState where
  resources := update a.resources id none
  edges k := if k.fromID = id ∨ k.toID = id then none else a.edges k

/-- Remove one edge. -/
def deleteEdge (a : GraphState) (k : EdgeKey) : GraphState :=
  { a with edges := update a.edges k none }

/-- The Secret reference an edge brings with it. -/
def putReference (a : GraphState) (e : Edge) : GraphState :=
  match secretReferenceFromEdge e with
  | some ref => a.putResource ref
  | none => a

/-- The write `op`, where `reference` is what an edge does to the
resources. -/
def stepWith (reference : GraphState → Edge → GraphState) (a : GraphState) : Op → GraphState
  | .upsertResource r => a.putResource (sanitizeResource r)
  | .deleteResource id => a.deleteResource id
  | .upsertEdge e => (reference a e).putEdge e
  | .deleteEdge fromID toID t => a.deleteEdge ⟨fromID, toID, t⟩

/-- The write `op`. -/
def step : GraphState → Op → GraphState := stepWith putReference

/-- The graph a history describes. -/
def run (ops : List Op) : GraphState := ops.foldl step empty

/-- The graph of a history in which edges leave the resources alone. -/
def plainRun (ops : List Op) : GraphState := ops.foldl (stepWith fun a _ => a) empty

/-- Resources are filed under their own identifiers and are
sanitized; edges are filed under their own keys. -/
structure WellFiled (a : GraphState) : Prop where
  filed : ∀ id r, a.resources id = some r → r.ID = id
  sanitized : ∀ id r, a.resources id = some r → sanitizeResource r = r
  keyed : ∀ k e, a.edges k = some e → e.key = k

theorem secretReferenceFromEdge_sanitized {e : Edge} {ref : Resource}
    (h : secretReferenceFromEdge e = some ref) : sanitizeResource ref = ref := by
  obtain ⟨ns, name, clusterID, rfl⟩ := eq_secretReferenceResource h
  rfl

/-- A Secret reference is a resource: the edges stay. -/
@[simp] theorem putReference_edges (a : GraphState) (e : Edge) :
    (a.putReference e).edges = a.edges := by
  unfold GraphState.putReference
  cases secretReferenceFromEdge e <;> rfl

/-- What an updated map holds is the new entry or an old one. -/
theorem of_update_eq_some {K V : Type} [DecidableEq K] {f : K → Option V} {k k' : K}
    {new : Option V} {v : V} (h : update f k new k' = some v) :
    (k' = k ∧ new = some v) ∨ f k' = some v := by
  rw [Function.update_apply] at h
  by_cases hk : k' = k
  · rw [if_pos hk] at h
    exact Or.inl ⟨hk, h⟩
  · rw [if_neg hk] at h
    exact Or.inr h

namespace WellFiled

variable {a : GraphState} (h : WellFiled a)
include h

theorem putResource {r : Resource} (hr : sanitizeResource r = r) :
    WellFiled (a.putResource r) where
  filed id r' hget := by
    rcases of_update_eq_some hget with ⟨rfl, hnew⟩ | hold
    · rw [Option.some.inj hnew]
    · exact h.filed id r' hold
  sanitized id r' hget := by
    rcases of_update_eq_some hget with ⟨-, hnew⟩ | hold
    · rw [← Option.some.inj hnew, hr]
    · exact h.sanitized id r' hold
  keyed := h.keyed

theorem putEdge (e : Edge) : WellFiled (a.putEdge e) where
  filed := h.filed
  sanitized := h.sanitized
  keyed k e' hget := by
    rcases of_update_eq_some hget with ⟨rfl, hnew⟩ | hold
    · rw [Option.some.inj hnew]
    · exact h.keyed k e' hold

theorem deleteResource (id : String) : WellFiled (a.deleteResource id) where
  filed id' r hget := by
    rcases of_update_eq_some hget with ⟨-, hnew⟩ | hold
    · cases hnew
    · exact h.filed id' r hold
  sanitized id' r hget := by
    rcases of_update_eq_some hget with ⟨-, hnew⟩ | hold
    · cases hnew
    · exact h.sanitized id' r hold
  keyed k e hget := by
    have hedge : (if k.fromID = id ∨ k.toID = id then none else a.edges k) = some e := hget
    split at hedge
    · cases hedge
    · exact h.keyed k e hedge

theorem deleteEdge (k : EdgeKey) : WellFiled (a.deleteEdge k) where
  filed := h.filed
  sanitized := h.sanitized
  keyed k' e hget := by
    rcases of_update_eq_some hget with ⟨-, hnew⟩ | hold
    · cases hnew
    · exact h.keyed k' e hold

theorem putReference (e : Edge) : WellFiled (a.putReference e) := by
  unfold GraphState.putReference
  cases hr : secretReferenceFromEdge e with
  | none => exact h
  | some ref => exact h.putResource (secretReferenceFromEdge_sanitized hr)

theorem step (op : Op) : WellFiled (a.step op) := by
  cases op with
  | upsertResource r => exact h.putResource (sanitizeResource_sanitizeResource r)
  | deleteResource id => exact h.deleteResource id
  | upsertEdge e => exact (h.putReference e).putEdge e
  | deleteEdge fromID toID t => exact h.deleteEdge ⟨fromID, toID, t⟩

end WellFiled

/-- Along a run everything stays filed where it belongs. -/
theorem run_wellFiled (ops : List Op) : WellFiled (run ops) := by
  have hfold : ∀ a, WellFiled a → WellFiled (ops.foldl GraphState.step a) := by
    induction ops with
    | nil => exact fun _ h => h
    | cons op ops ih => exact fun a h => ih (a.step op) (h.step op)
  exact hfold empty ⟨by simp [empty], by simp [empty], by simp [empty]⟩

end GraphState

/-! ### Representing a graph -/

/-- Where the outgoing index keeps the edge `k`. -/
def outgoingAt (s : MemoryStore) (k : EdgeKey) : Option Edge :=
  s.outgoing.get? k.fromID ⟨k.toID, k.type⟩

/-- Where the incoming index keeps it. -/
def incomingAt (s : MemoryStore) (k : EdgeKey) : Option Edge :=
  s.incoming.get? k.toID ⟨k.fromID, k.type⟩

/-- The store holds the graph `a`: its resources are those of `a`,
and each of the two indexes is the edge map of `a`. -/
structure Represents (s : MemoryStore) (a : GraphState) : Prop where
  resources : ∀ id, s.resources.lookup id = a.resources id
  outgoing : ∀ k, outgoingAt s k = a.edges k
  incoming : ∀ k, incomingAt s k = a.edges k

variable {K V : Type} {f : K → Option V}

theorem lookup_insert_eq_update [DecidableEq K] (m : GoMap K V) (k : K) (v : V)
    (h : ∀ k, m.lookup k = f k) (k' : K) :
    (m.insert k v).lookup k' = update f k (some v) k' := by
  by_cases hk : k' = k
  · subst hk
    rw [AList.lookup_insert, Function.update_self]
  · rw [AList.lookup_insert_ne hk, Function.update_of_ne hk, h]

theorem lookup_erase_eq_update [DecidableEq K] (m : GoMap K V) (k : K) (h : ∀ k, m.lookup k = f k)
    (k' : K) :
    (m.erase k).lookup k' = update f k none k' := by
  by_cases hk : k' = k
  · subst hk
    rw [AList.lookup_erase, Function.update_self]
  · rw [AList.lookup_erase_ne hk, Function.update_of_ne hk, h]

/-- The place of an edge in the outgoing index determines its key. -/
theorem outgoing_place_iff (k k' : EdgeKey) :
    (k.fromID = k'.fromID ∧ (⟨k.toID, k.type⟩ : PeerKey) = ⟨k'.toID, k'.type⟩) ↔ k = k' := by
  cases k
  cases k'
  simp

/-- So does its place in the incoming index. -/
theorem incoming_place_iff (k k' : EdgeKey) :
    (k.toID = k'.toID ∧ (⟨k.fromID, k.type⟩ : PeerKey) = ⟨k'.fromID, k'.type⟩) ↔ k = k' := by
  cases k
  cases k'
  simp
  tauto

/-- A loop of `DeleteResource` removes the places whose peers it
ranged over. -/
theorem get?_detach (range : MapOrder) (id : String) (index : Adjacency)
    (peers : GoMap PeerKey Edge) (row : String) (p : PeerKey) :
    (detach range id index peers).get? row p
      = if p.other = id ∧ (peers.lookup ⟨row, p.typ⟩).isSome then none
        else index.get? row p := by
  unfold detach
  rw [NestedMap.get?_foldl_remove index (fun k : PeerKey => (k.other, (⟨id, k.typ⟩ : PeerKey)))]
  have hmem : (row, p) ∈ (GoMap.keys range peers).map
        (fun k : PeerKey => (k.other, (⟨id, k.typ⟩ : PeerKey)))
      ↔ p.other = id ∧ (peers.lookup ⟨row, p.typ⟩).isSome := by
    rw [List.mem_map, Option.isSome_iff_exists]
    constructor
    · rintro ⟨k, hk, heq⟩
      obtain ⟨rfl, rfl⟩ := Prod.ext_iff.mp heq
      exact ⟨rfl, (GoMap.mem_keys range peers).mp hk⟩
    · rintro ⟨rfl, hk⟩
      exact ⟨⟨row, p.typ⟩, (GoMap.mem_keys range peers).mpr hk, rfl⟩
  simp only [hmem]

namespace Represents

variable {s : MemoryStore} {a : GraphState} (h : Represents s a)
include h

theorem upsertResource (r : Resource) :
    Represents (s.upsertResource r) (a.putResource (sanitizeResource r)) where
  resources := lookup_insert_eq_update s.resources _ _ h.resources
  outgoing := h.outgoing
  incoming := h.incoming

theorem upsertEdge (e : Edge) :
    Represents (s.upsertEdge e) ((a.putReference e).putEdge e) := by
  refine ⟨fun id => ?_, fun k => ?_, fun k => ?_⟩
  · cases hr : secretReferenceFromEdge e with
    | none =>
      have hs : (s.upsertEdge e).resources = s.resources := by
        unfold MemoryStore.upsertEdge
        rw [hr]
      have ha : ((a.putReference e).putEdge e).resources = a.resources := by
        unfold GraphState.putEdge GraphState.putReference
        rw [hr]
      rw [hs, ha, h.resources]
    | some ref =>
      have hs : (s.upsertEdge e).resources = s.resources.insert ref.ID ref := by
        unfold MemoryStore.upsertEdge
        rw [hr]
      have ha : ((a.putReference e).putEdge e).resources
          = update a.resources ref.ID (some ref) := by
        unfold GraphState.putEdge GraphState.putReference
        rw [hr]
        rfl
      rw [hs, ha, lookup_insert_eq_update s.resources _ _ h.resources]
  · show (s.outgoing.put e.fromID ⟨e.toID, e.type⟩ e).get? k.fromID ⟨k.toID, k.type⟩
      = update (a.putReference e).edges e.key (some e) k
    have hplace := outgoing_place_iff k e.key
    rw [NestedMap.get?_put, GraphState.putReference_edges, Function.update_apply]
    exact if_congr hplace rfl (h.outgoing k)
  · show (s.incoming.put e.toID ⟨e.fromID, e.type⟩ e).get? k.toID ⟨k.fromID, k.type⟩
      = update (a.putReference e).edges e.key (some e) k
    have hplace := incoming_place_iff k e.key
    rw [NestedMap.get?_put, GraphState.putReference_edges, Function.update_apply]
    exact if_congr hplace rfl (h.incoming k)

theorem deleteEdge (fromID toID : String) (t : EdgeType) :
    Represents (s.deleteEdge fromID toID t) (a.deleteEdge ⟨fromID, toID, t⟩) := by
  refine ⟨h.resources, fun k => ?_, fun k => ?_⟩
  · show (s.outgoing.remove fromID ⟨toID, t⟩).get? k.fromID ⟨k.toID, k.type⟩
      = update a.edges ⟨fromID, toID, t⟩ none k
    have hplace := outgoing_place_iff k ⟨fromID, toID, t⟩
    rw [NestedMap.get?_remove, Function.update_apply]
    exact if_congr hplace rfl (h.outgoing k)
  · show (s.incoming.remove toID ⟨fromID, t⟩).get? k.toID ⟨k.fromID, k.type⟩
      = update a.edges ⟨fromID, toID, t⟩ none k
    have hplace := incoming_place_iff k ⟨fromID, toID, t⟩
    rw [NestedMap.get?_remove, Function.update_apply]
    exact if_congr hplace rfl (h.incoming k)

/-- After the first loop the incoming index has lost the edges that
leave `id`. -/
theorem incoming_detach (range : MapOrder) (id : String) (k : EdgeKey) :
    (detach range id s.incoming (s.outgoing.row id)).get? k.toID ⟨k.fromID, k.type⟩
      = if k.fromID = id then none else a.edges k := by
  rw [get?_detach]
  by_cases hfrom : k.fromID = id
  · -- an edge that leaves `id` is in its outgoing row, or nowhere
    have hrow : (s.outgoing.row id).lookup ⟨k.toID, k.type⟩ = a.edges k := by
      rw [← h.outgoing k, outgoingAt, NestedMap.get?, hfrom]
    rw [if_pos hfrom, hrow]
    show (if k.fromID = id ∧ (a.edges k).isSome then none else incomingAt s k) = none
    rw [h.incoming k]
    cases a.edges k <;> simp [hfrom]
  · rw [if_neg (fun hand => hfrom hand.1), if_neg hfrom]
    exact h.incoming k

theorem deleteResource (range : MapOrder) (id : String) :
    Represents (s.deleteResource range id) (a.deleteResource id) := by
  refine ⟨lookup_erase_eq_update s.resources id h.resources, fun k => ?_, fun k => ?_⟩
  · show (detach range id (s.outgoing.erase id)
        ((detach range id s.incoming (s.outgoing.row id)).row id)).get?
          k.fromID ⟨k.toID, k.type⟩
      = if k.fromID = id ∨ k.toID = id then none else a.edges k
    rw [get?_detach, NestedMap.get?_erase]
    by_cases hfrom : k.fromID = id
    · simp [hfrom]
    · rw [if_neg hfrom]
      by_cases hto : k.toID = id
      · -- an edge into `id` from elsewhere is still in the incoming row of `id`
        have hrow : ((detach range id s.incoming (s.outgoing.row id)).row id).lookup
            ⟨k.fromID, k.type⟩ = a.edges k := by
          have hget := h.incoming_detach range id k
          rw [if_neg hfrom, hto] at hget
          exact hget
        rw [hrow, if_pos (Or.inr hto)]
        show (if k.toID = id ∧ (a.edges k).isSome then none else outgoingAt s k) = none
        rw [h.outgoing k]
        cases a.edges k <;> simp [hto]
      · rw [if_neg (fun hand => hto hand.1), if_neg (fun hor => hor.elim hfrom hto)]
        exact h.outgoing k
  · show NestedMap.get? ((detach range id s.incoming (s.outgoing.row id)).erase id)
          k.toID ⟨k.fromID, k.type⟩
      = if k.fromID = id ∨ k.toID = id then none else a.edges k
    rw [NestedMap.get?_erase, h.incoming_detach range id k]
    by_cases hto : k.toID = id
    · rw [if_pos hto, if_pos (Or.inr hto)]
    · rw [if_neg hto]
      exact if_congr (or_iff_left hto).symm rfl rfl

/-- Every write keeps the representation. -/
theorem step (range : MapOrder) (op : Op) : Represents (s.step range op) (a.step op) := by
  cases op with
  | upsertResource r => exact h.upsertResource r
  | deleteResource id => exact h.deleteResource range id
  | upsertEdge e => exact h.upsertEdge e
  | deleteEdge fromID toID t => exact h.deleteEdge fromID toID t

end Represents

theorem foldl_represents (range : MapOrder) (ops : List Op) {s : MemoryStore} {a : GraphState}
    (h : Represents s a) : Represents (ops.foldl (step range) s) (ops.foldl GraphState.step a) := by
  induction ops generalizing s a with
  | nil => exact h
  | cons op ops ih => exact ih (h.step range op)

/-- The store after a history represents the graph of that history. -/
theorem run_represents (range : MapOrder) (ops : List Op) :
    Represents (run range ops) (GraphState.run ops) :=
  foldl_represents range ops ⟨fun _ => rfl, fun _ => rfl, fun _ => rfl⟩

/-! ### Reading the store -/

/-- The store and its queries are the graph `a`. -/
structure Faithful (range : MapOrder) (s : MemoryStore) (a : GraphState) : Prop where
  getResource : ∀ id r, s.getResource id = .ok r ↔ a.resources id = some r
  filed : ∀ id r, s.resources.lookup id = some r → r.ID = id ∧ sanitizeResource r = r
  mirror : ∀ k, outgoingAt s k = a.edges k ∧ incomingAt s k = a.edges k
  keyed : ∀ k e, a.edges k = some e → e.key = k
  outgoing : ∀ id, ∃ es, s.listEdges range id .outgoing = .ok es ∧ es.Nodup ∧
    ∀ e, e ∈ es ↔ e.fromID = id ∧ a.edges e.key = some e
  incoming : ∀ id, ∃ es, s.listEdges range id .incoming = .ok es ∧ es.Nodup ∧
    ∀ e, e ∈ es ↔ e.toID = id ∧ a.edges e.key = some e
  snapshot_edges : (s.snapshot range true).edges.Nodup ∧
    ∀ e, e ∈ (s.snapshot range true).edges ↔ a.edges e.key = some e
  snapshot_resources : ((s.snapshot range true).resources.map Resource.ID).Nodup ∧
    ∀ r, r ∈ (s.snapshot range true).resources ↔ a.resources r.ID = some r

/-- The edges in a row of an index that has every edge of `edges` at
one place. -/
theorem row_values {edges : EdgeKey → Option Edge} {index : Adjacency} {near far : Edge → String}
    (hindex : ∀ row p e, index.get? row p = some e ↔
      near e = row ∧ ⟨far e, e.type⟩ = p ∧ edges e.key = some e) (range : MapOrder) (id : String) :
    (GoMap.values range (index.row id)).Nodup ∧
      ∀ e, e ∈ GoMap.values range (index.row id) ↔ near e = id ∧ edges e.key = some e := by
  constructor
  · apply List.Nodup.of_map fun e : Edge => (⟨far e, e.type⟩ : PeerKey)
    apply GoMap.nodup_map_values
    intro p e hget
    exact ((hindex id p e).mp hget).2.1
  · intro e
    rw [NestedMap.mem_row_values]
    simp only [hindex]
    constructor
    · rintro ⟨p, hnear, -, hget⟩
      exact ⟨hnear, hget⟩
    · rintro ⟨hnear, hget⟩
      exact ⟨_, hnear, rfl, hget⟩

/-- Lists that have the same items, each of them once. -/
theorem perm_of_mem_iff {α : Type} {l l' : List α} {p : α → Prop}
    (h : l.Nodup ∧ ∀ x, x ∈ l ↔ p x) (h' : l'.Nodup ∧ ∀ x, x ∈ l' ↔ p x) : l.Perm l' := by
  rw [List.perm_ext_iff_of_nodup h.1 h'.1]
  intro x
  rw [h.2, h'.2]

namespace Represents

variable {s : MemoryStore} {a : GraphState} (h : Represents s a)
include h

theorem getResource_iff (id : String) (r : Resource) :
    s.getResource id = .ok r ↔ a.resources id = some r := by
  unfold MemoryStore.getResource
  rw [h.resources]
  cases a.resources id <;> simp

variable (hw : a.WellFiled)
include hw

/-- An edge sits in the outgoing index at its own place and nowhere
else. -/
theorem outgoing_get?_iff (row : String) (p : PeerKey) (e : Edge) :
    s.outgoing.get? row p = some e ↔ e.fromID = row ∧ ⟨e.toID, e.type⟩ = p ∧
      a.edges e.key = some e := by
  have hplace : s.outgoing.get? row p = a.edges ⟨row, p.other, p.typ⟩ :=
    h.outgoing ⟨row, p.other, p.typ⟩
  rw [hplace]
  constructor
  · intro hget
    have hkey := hw.keyed _ _ hget
    rw [← hkey] at hget
    exact ⟨congrArg EdgeKey.fromID hkey,
      congrArg (fun k : EdgeKey => (⟨k.toID, k.type⟩ : PeerKey)) hkey, hget⟩
  · rintro ⟨rfl, rfl, hget⟩
    exact hget

theorem incoming_get?_iff (row : String) (p : PeerKey) (e : Edge) :
    s.incoming.get? row p = some e ↔ e.toID = row ∧ ⟨e.fromID, e.type⟩ = p ∧
      a.edges e.key = some e := by
  have hplace : s.incoming.get? row p = a.edges ⟨p.other, row, p.typ⟩ :=
    h.incoming ⟨p.other, row, p.typ⟩
  rw [hplace]
  constructor
  · intro hget
    have hkey := hw.keyed _ _ hget
    rw [← hkey] at hget
    exact ⟨congrArg EdgeKey.toID hkey,
      congrArg (fun k : EdgeKey => (⟨k.fromID, k.type⟩ : PeerKey)) hkey, hget⟩
  · rintro ⟨rfl, rfl, hget⟩
    exact hget

variable (range : MapOrder)

theorem listEdges_outgoing (id : String) :
    (GoMap.values range (s.outgoing.row id)).Nodup ∧
      ∀ e, e ∈ GoMap.values range (s.outgoing.row id) ↔
        e.fromID = id ∧ a.edges e.key = some e :=
  row_values (h.outgoing_get?_iff hw) range id

theorem listEdges_incoming (id : String) :
    (GoMap.values range (s.incoming.row id)).Nodup ∧
      ∀ e, e ∈ GoMap.values range (s.incoming.row id) ↔
        e.toID = id ∧ a.edges e.key = some e :=
  row_values (h.incoming_get?_iff hw) range id

theorem edges_values :
    (s.outgoing.values range).Nodup ∧
      ∀ e, e ∈ s.outgoing.values range ↔ a.edges e.key = some e := by
  constructor
  · apply NestedMap.nodup_values s.outgoing range Edge.fromID fun e => ⟨e.toID, e.type⟩
    intro row p e hget
    obtain ⟨hfrom, hp, -⟩ := (h.outgoing_get?_iff hw row p e).mp hget
    exact ⟨hfrom, hp⟩
  · intro e
    rw [NestedMap.mem_values]
    simp only [h.outgoing_get?_iff hw]
    constructor
    · rintro ⟨row, p, -, -, hget⟩
      exact hget
    · intro hget
      exact ⟨_, _, rfl, rfl, hget⟩

theorem resources_values :
    ((GoMap.values range s.resources).map Resource.ID).Nodup ∧
      ∀ r, r ∈ GoMap.values range s.resources ↔ a.resources r.ID = some r := by
  have hfiled : ∀ id r, s.resources.lookup id = some r → r.ID = id := by
    intro id r hget
    exact hw.filed id r ((h.resources id).symm.trans hget)
  constructor
  · exact GoMap.nodup_map_values range s.resources hfiled
  · intro r
    rw [GoMap.mem_values, ← h.resources]
    constructor
    · rintro ⟨id, hget⟩
      rw [hfiled id r hget]
      exact hget
    · intro hget
      exact ⟨r.ID, hget⟩

/-- A store that represents a graph answers every query as the graph
does. -/
theorem faithful : Faithful range s a where
  getResource := h.getResource_iff
  filed id r hget := by
    rw [h.resources] at hget
    exact ⟨hw.filed id r hget, hw.sanitized id r hget⟩
  mirror k := ⟨h.outgoing k, h.incoming k⟩
  keyed := hw.keyed
  outgoing id := ⟨_, rfl, h.listEdges_outgoing hw range id⟩
  incoming id := ⟨_, rfl, h.listEdges_incoming hw range id⟩
  snapshot_edges := h.edges_values hw range
  snapshot_resources := by
    have hraw : (s.snapshot range true).resources = GoMap.values range s.resources :=
      List.map_id _
    rw [hraw]
    exact h.resources_values hw range

end Represents

/-- Two stores that no query tells apart, whatever order it ranges
in. -/
structure SameReads (range range' : MapOrder) (s s' : MemoryStore) : Prop where
  getResource : ∀ id, s.getResource id = s'.getResource id
  listEdges : ∀ id dir, (∃ es es', s.listEdges range id dir = .ok es ∧
      s'.listEdges range' id dir = .ok es' ∧ es.Perm es') ∨
    ∃ err, s.listEdges range id dir = .error err ∧ s'.listEdges range' id dir = .error err
  snapshot_resources : ∀ includeRaw, (s.snapshot range includeRaw).resources.Perm
    (s'.snapshot range' includeRaw).resources
  snapshot_edges : ∀ includeRaw, (s.snapshot range includeRaw).edges.Perm
    (s'.snapshot range' includeRaw).edges

section SameReads

variable {s s' : MemoryStore} {a : GraphState} (h : Represents s a) (h' : Represents s' a)
  (hw : a.WellFiled) (range range' : MapOrder)
include h h' hw

theorem Represents.resources_perm :
    (GoMap.values range s.resources).Perm (GoMap.values range' s'.resources) := by
  obtain ⟨hnodup, hmem⟩ := h.resources_values hw range
  obtain ⟨hnodup', hmem'⟩ := h'.resources_values hw range'
  exact perm_of_mem_iff ⟨.of_map _ hnodup, hmem⟩ ⟨.of_map _ hnodup', hmem'⟩

theorem Represents.edges_perm :
    (s.outgoing.values range).Perm (s'.outgoing.values range') :=
  perm_of_mem_iff (h.edges_values hw range) (h'.edges_values hw range')

/-- Stores that represent the same graph cannot be told apart. -/
theorem Represents.sameReads : SameReads range range' s s' where
  getResource id := by
    unfold MemoryStore.getResource
    rw [h.resources, h'.resources]
  listEdges id dir := by
    cases dir with
    | incoming =>
      exact Or.inl ⟨_, _, rfl, rfl, perm_of_mem_iff (h.listEdges_incoming hw range id)
        (h'.listEdges_incoming hw range' id)⟩
    | outgoing =>
      exact Or.inl ⟨_, _, rfl, rfl, perm_of_mem_iff (h.listEdges_outgoing hw range id)
        (h'.listEdges_outgoing hw range' id)⟩
    | other text => exact Or.inr ⟨_, rfl, rfl⟩
  snapshot_resources _ := (h.resources_perm h' hw range range').map _
  snapshot_edges _ := h.edges_perm h' hw range range'

end SameReads

/-- **The store is a graph.** After any history the store is the
graph of that history. Two histories of the same graph stay
indistinguishable whatever is written next, so an empty row left
behind in an index never shows. -/
theorem run_faithful (range range' : MapOrder) (ops ops' later : List Op) :
    Faithful range (run range ops) (GraphState.run ops) ∧
      (GraphState.run ops = GraphState.run ops' →
        SameReads range range' (run range (ops ++ later)) (run range' (ops' ++ later))) := by
  have hrun : ∀ prior, GraphState.run (prior ++ later)
      = later.foldl GraphState.step (GraphState.run prior) := by
    intro prior
    exact List.foldl_append ..
  constructor
  · exact (run_represents range ops).faithful (GraphState.run_wellFiled ops) range
  · intro hsame
    have hgraph : GraphState.run (ops ++ later) = GraphState.run (ops' ++ later) := by
      rw [hrun, hrun, hsame]
    have hrep := run_represents range' (ops' ++ later)
    rw [← hgraph] at hrep
    exact (run_represents range (ops ++ later)).sameReads hrep
      (GraphState.run_wellFiled _) range range'

/-- An edge of a Pod to a Secret. -/
def secretUse : Edge :=
  { fromID := "d/Pod/p", toID := "d/Secret/s", type := .usesSecret }

/-- A store from which an edge was deleted keeps two empty rows that
a fresh store does not have, and a self-loop written next reads
alike in both. -/
theorem run_faithful_emptyRows :
    SameReads RangeOrder.inserted RangeOrder.inserted
      (run RangeOrder.inserted
        [.upsertEdge ⟨"a", "b", .owns, []⟩, .deleteEdge "a" "b" .owns,
          .upsertEdge ⟨"a", "a", .owns, []⟩])
      (run RangeOrder.inserted [.upsertEdge ⟨"a", "a", .owns, []⟩]) := by
  have hsame : GraphState.run [.upsertEdge ⟨"a", "b", .owns, []⟩, .deleteEdge "a" "b" .owns]
      = GraphState.run [] := by
    have hedge : (⟨"a", "b", .owns, []⟩ : Edge).key = ⟨"a", "b", .owns⟩ := rfl
    have hreference : GraphState.putReference .empty ⟨"a", "b", .owns, []⟩ = .empty := rfl
    have hnone : update GraphState.empty.edges ⟨"a", "b", .owns⟩ none
        = GraphState.empty.edges := Function.update_eq_self_iff.mpr rfl
    show ((GraphState.putReference .empty ⟨"a", "b", .owns, []⟩).putEdge
      ⟨"a", "b", .owns, []⟩).deleteEdge ⟨"a", "b", .owns⟩ = GraphState.empty
    rw [hreference, GraphState.putEdge, GraphState.deleteEdge, hedge, Function.update_idem, hnone]
  exact (run_faithful RangeOrder.inserted RangeOrder.inserted _ [] _).2 hsame

/-- An edge alone brings a node: after one `UpsertEdge` to a Secret,
the store has the reference of that Secret, although no resource was
ever written. -/
theorem upsertEdge_files_reference :
    ((run RangeOrder.inserted [.upsertEdge secretUse]).resources.lookup "d/Secret/s").isSome
        = true ∧
      ((GraphState.plainRun [.upsertEdge secretUse]).resources "d/Secret/s").isSome
        = false := by
  decide +kernel

end KubeAtlas.Proofs.Store
