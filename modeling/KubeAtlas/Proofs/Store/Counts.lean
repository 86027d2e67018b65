import KubeAtlas.Lib.Tally
import KubeAtlas.Proofs.Store.Contents
import KubeAtlas.Store.Queries

/-!
# `KubeAtlas.Proofs.Store.Counts`: what the counting queries count

`CountKindsByNamespace` counts the resources of each namespace and
kind, and `CountCrossNamespaceEdges` the edges from each namespace
to each: those whose two ends are stored, whatever row they are
filed in.
-/

set_option autoImplicit false

namespace KubeAtlas.Proofs.Store

open KubeAtlas.Graph Lib KubeAtlas.Store Lib.Tally

/-- Where a resource is counted, if it is. -/
def kindKey (p : Resource → Bool) (r : Resource) : Option (String × String) :=
  if p r then some (r.ns, r.kind) else none

/-- Where an edge is counted: if both ends are stored and are
considered. -/
def pairKey (s : MemoryStore) (p : Resource → Bool) (fromID toID : String) :
    Option NamespacePair :=
  ((s.resources.lookup fromID).filter p).bind fun fromRes =>
    ((s.resources.lookup toID).filter p).map fun toRes => ⟨fromRes.ns, toRes.ns⟩

/-- A round of the counting loop over edges. -/
def countPair (s : MemoryStore) (p : Resource → Bool) (out : GoMap NamespacePair Nat)
    (place : String × PeerKey) : GoMap NamespacePair Nat :=
  (pairKey s p place.1 place.2.other).elim out fun pair =>
    out.insert pair ((out.lookup pair).getD 0 + 1)

theorem counts_countPair (s : MemoryStore) (p : Resource → Bool) :
    Counts (fun (m : GoMap NamespacePair Nat) k => m.lookup k)
      (fun place : String × PeerKey => pairKey s p place.1 place.2.other) (countPair s p) where
  skip m place hkey := by
    unfold countPair
    rw [hkey, Option.elim_none]
  bump m place pair hkey pair' := by
    unfold countPair
    rw [hkey, Option.elim_some, lookup_insert_ite]

/-- Every edge is filed under its own ends and type. -/
def Keyed (s : MemoryStore) : Prop :=
  ∀ row p e, s.outgoing.get? row p = some e → e.fromID = row ∧ ⟨e.toID, e.type⟩ = p

theorem keyed_run (range : MapOrder) (ops : List MemoryStore.Op) :
    Keyed (MemoryStore.run range ops) := by
  intro row p e he
  obtain ⟨hfrom, hpeer, -⟩ := ((run_represents range ops).outgoing_get?_iff
    (GraphState.run_wellFiled ops) row p e).mp he
  exact ⟨hfrom, hpeer⟩

section Counts

variable (range : MapOrder) (s : MemoryStore) (labels : StringMap)

theorem get?_countKindsByNamespace (ns kind : String) :
    (s.countKindsByNamespace range labels).get? ns kind
      = raised none ((GoMap.values range s.resources).countP fun r =>
          kindKey (fun r => labelsMatch r.labels labels) r = some (ns, kind)) := by
  have hcounts : Counts (fun (m : NestedMap String String Nat) (k : String × String) =>
      m.get? k.1 k.2) (kindKey fun r => labelsMatch r.labels labels)
      (fun out r => if labelsMatch r.labels labels then
        out.put r.ns r.kind ((out.get? r.ns r.kind).getD 0 + 1) else out) := by
    refine ⟨fun m r hkey => ?_, fun m r k hkey k' => ?_⟩
    · by_cases h : labelsMatch r.labels labels = true
      · simp [kindKey, h] at hkey
      · rw [if_neg h]
    · by_cases h : labelsMatch r.labels labels = true
      · simp only [kindKey, h, if_true, Option.some.injEq] at hkey
        subst hkey
        rw [if_pos h, NestedMap.get?_put]
        simp only [Prod.ext_iff]
      · simp [kindKey, h] at hkey
  exact hcounts.read_foldl _ ∅ (ns, kind)

/-- What the loops over the rows and their entries visit. -/
theorem mem_outgoingRows {row : String} {p : PeerKey} {e : Edge} :
    (∃ peers, (row, peers) ∈ s.outgoingRows range ∧ ⟨p, e⟩ ∈ (range _).order peers.entries) ↔
      s.outgoing.get? row p = some e := by
  have hentry : ∀ peers : GoMap PeerKey Edge, ⟨p, e⟩ ∈ (range _).order peers.entries ↔
      peers.lookup p = some e := fun peers =>
    ((range _).perm _).mem_iff.trans AList.mem_lookup_iff.symm
  have hrow (peers) :
      (row, peers) ∈ s.outgoingRows range ↔ s.outgoing.lookup row = some peers := by
    unfold MemoryStore.outgoingRows
    rw [List.mem_map, ← Option.mem_def, AList.mem_lookup_iff, ← ((range _).perm _).mem_iff]
    constructor
    · rintro ⟨entry, hmem, hentry⟩
      obtain ⟨rfl, rfl⟩ := Prod.mk.inj hentry
      exact hmem
    · intro hmem
      exact ⟨_, hmem, rfl⟩
  unfold NestedMap.get? NestedMap.row
  cases hlookup : s.outgoing.lookup row with
  | none => simp [hrow, hlookup]
  | some peers => simp [hrow, hlookup, hentry]

/-- The loops over the rows and their keys visit every edge of the
index. -/
theorem outgoing_places (hkeyed : Keyed s) :
    ((s.outgoingRows range).flatMap fun row => (GoMap.keys range row.2).map fun k => (row.1, k))
      = (s.outgoing.values range).map fun e => (e.fromID, (⟨e.toID, e.type⟩ : PeerKey)) := by
  have hvalues : s.outgoing.values range
      = (s.outgoingRows range).flatMap fun row => GoMap.values range row.2 := by
    unfold NestedMap.values GoMap.values MemoryStore.outgoingRows
    rw [List.flatMap_map, List.flatMap_map]
  rw [hvalues, List.map_flatMap]
  refine List.flatMap_congr fun row hrow => ?_
  unfold GoMap.keys GoMap.values
  rw [List.map_map, List.map_map]
  refine List.map_congr_left fun entry hentry => ?_
  obtain ⟨hfrom, hpeer⟩ := hkeyed _ _ _ ((mem_outgoingRows range s).mp ⟨row.2, hrow, hentry⟩)
  exact Prod.ext hfrom.symm hpeer.symm

/-- The edges of a namespace: both ends are resources of
the namespace. -/
theorem mem_getNamespaceSubgraph_edges (hkeyed : Keyed s) (ns : String) (e : Edge) :
    e ∈ (s.getNamespaceSubgraph range ns labels).edges ↔
      e ∈ s.outgoing.values range ∧
        e.fromID ∈ (s.getNamespaceSubgraph range ns labels).resources.map Resource.ID ∧
        e.toID ∈ (s.getNamespaceSubgraph range ns labels).resources.map Resource.ID := by
  rw [NestedMap.mem_values]
  unfold MemoryStore.getNamespaceSubgraph
  simp only [List.mem_flatMap, List.mem_filter, List.contains_iff_mem]
  constructor
  · rintro ⟨row, ⟨hrow, hfrom⟩, he⟩
    obtain ⟨entry, hentry, rfl⟩ := List.mem_map.mp he
    obtain ⟨hentry, hto⟩ := List.mem_filter.mp hentry
    have hplace := (mem_outgoingRows range s).mp ⟨row.2, hrow, hentry⟩
    obtain ⟨hrow', hpeer⟩ := hkeyed _ _ _ hplace
    rw [← hpeer] at hto
    rw [← hrow'] at hfrom
    exact ⟨⟨_, _, hplace⟩, hfrom, List.contains_iff_mem.mp hto⟩
  · rintro ⟨⟨row, p, hplace⟩, hfrom, hto⟩
    obtain ⟨hrow', hpeer⟩ := hkeyed _ _ _ hplace
    rw [hrow'] at hfrom
    obtain ⟨peers, hrow, hentry⟩ := (mem_outgoingRows range s).mpr hplace
    refine ⟨(row, peers), ⟨hrow, hfrom⟩, List.mem_map.mpr ⟨⟨p, e⟩, ?_, rfl⟩⟩
    rw [← hpeer]
    rw [← hpeer] at hentry
    exact List.mem_filter.mpr ⟨hentry, List.contains_iff_mem.mpr hto⟩

theorem lookup_countCrossNamespaceEdges (hkeyed : Keyed s) (pair : NamespacePair) :
    (s.countCrossNamespaceEdges range labels).lookup pair
      = raised none ((s.outgoing.values range).countP fun e =>
          pairKey s (fun r => labelsMatch r.labels labels) e.fromID e.toID = some pair) := by
  -- the two loops are one over the places of the index
  have hflat : s.countCrossNamespaceEdges range labels
      = ((s.outgoingRows range).flatMap fun row => (GoMap.keys range row.2).map fun k =>
          (row.1, k)).foldl (countPair s fun r => labelsMatch r.labels labels) ∅ := by
    rw [List.foldl_flatMap]
    refine List.foldl_ext _ _ _ fun out row _ => ?_
    rw [List.foldl_map]
    dsimp only
    cases hfrom : (s.resources.lookup row.1).filter fun r => labelsMatch r.labels labels with
    | none =>
      refine (List.foldl_fixed' (fun k => ?_) _).symm
      simp only [countPair, pairKey, hfrom, Option.bind_none, Option.elim_none]
    | some fromRes =>
      refine List.foldl_ext _ _ _ fun out k _ => ?_
      dsimp only [countPair, pairKey]
      rw [hfrom]
      cases (s.resources.lookup k.other).filter fun r => labelsMatch r.labels labels with
      | none | some => rfl
  rw [hflat, outgoing_places range s hkeyed, (counts_countPair s _).read_foldl, List.countP_map]
  rfl

end Counts

/-- Whatever was written, the counting queries agree with counting
in the snapshot, for each namespace and kind and for each pair of
namespaces. A count of zero has no entry. -/
theorem counts_eq_snapshot (range : MapOrder) (ops : List MemoryStore.Op) (labels : StringMap) :
    let s := MemoryStore.run range ops
    let g := s.snapshot range true
    let p := fun r : Resource => labelsMatch r.labels labels
    (∀ ns kind, (s.countKindsByNamespace range labels).get? ns kind
      = raised none (g.resources.countP fun r => kindKey p r = some (ns, kind))) ∧
    ∀ pair, (s.countCrossNamespaceEdges range labels).lookup pair
      = raised none (g.edges.countP fun e => pairKey s p e.fromID e.toID = some pair) := by
  intro s g p
  have hresources : g.resources = GoMap.values range s.resources := List.map_id _
  refine ⟨?_, lookup_countCrossNamespaceEdges range s labels (keyed_run range ops)⟩
  rw [hresources]
  exact get?_countKindsByNamespace range s labels

end KubeAtlas.Proofs.Store
