import KubeAtlas.Api.Rbac
import KubeAtlas.Extractor.References
import KubeAtlas.Proofs.Graph.Identifiers
import KubeAtlas.Proofs.Store.Contents

/-!
# `KubeAtlas.Proofs.Graph.Subjects`: the subjects that are reported for a binding

The extractor writes the identifier of a subject, the handler reads
it back. `subjectReported_iff`: the subject that is reported is the
subject of the binding exactly when the binding belongs to no named
cluster. The decoder knows nothing of the prefix that a cluster puts
in front of an identifier, and takes it for a part of the namespace.
-/

set_option autoImplicit false

namespace KubeAtlas.Proofs.Graph

open Api KubeAtlas.Extractor KubeAtlas.Graph Lib KubeAtlas.Store
open KubeAtlas.Proofs.Store

/-- The binding lists the subject. A ServiceAccount without
a namespace is one of the namespace of the RoleBinding. -/
def ListsSubject (r : Resource) (subject : RbacSubjectRef) : Prop :=
  ∃ sm, Json.obj sm ∈ nestedSlice (rawOf r) ["subjects"] ∧ subject.kind ≠ "" ∧ subject.name ≠ "" ∧
    (member sm "kind").text = subject.kind ∧ (member sm "name").text = subject.name ∧
    subject.ns = if subject.kind = "ServiceAccount" && (member sm "namespace").text = "" &&
      r.kind = "RoleBinding" then r.ns else (member sm "namespace").text

/-- The edge from a binding to a subject. -/
def subjectEdge (r : Resource) (subject : RbacSubjectRef) : Edge :=
  { fromID := r.ID, toID := target r subject.kind subject.ns subject.name, type := .bindsSubject }

/-- The decoder reads back the namespace, the kind and the name. -/
def Reversed (t : Resource) : Prop :=
  (decodeResourceID t.ID).ns = t.ns ∧ (decodeResourceID t.ID).kind = t.kind ∧
    (decodeResourceID t.ID).name = t.name

theorem subjectEdge_mem {r : Resource} {subject : RbacSubjectRef} (hbinding : isBinding r = true)
    (h : ListsSubject r subject) : subjectEdge r subject ∈ bindsSubjectEdges r := by
  obtain ⟨sm, hmem, hkind, hname, hk, hn, hns⟩ := h
  unfold bindsSubjectEdges
  rw [if_neg (by simp [hbinding])]
  refine List.mem_filterMap.mpr ⟨.obj sm, hmem, ?_⟩
  dsimp only
  rw [hk, hn, if_neg (by simp [hkind, hname]), ← hns]
  rfl

/-- Two slashes are found in a path whose first two parts have none. -/
theorem decodeResourceID_path {ns kind name : String} (hns : '/' ∉ ns.toList)
    (hkind : '/' ∉ kind.toList) :
    decodeResourceID (path ns kind name) = { ns := ns, kind := kind, name := name } := by
  unfold decodeResourceID path
  rw [Strings.cut_join hns]
  dsimp only
  rw [Strings.cut_join hkind]

/-- What is decoded spells the identifier, unless the name is all of
it. -/
theorem path_decodeResourceID (id : String) :
    (decodeResourceID id).name = id ∨
      path (decodeResourceID id).ns (decodeResourceID id).kind (decodeResourceID id).name = id := by
  rcases Strings.exists_join '/' id with hnone | ⟨ns, rest, hns, rfl⟩
  · left
    unfold decodeResourceID
    rw [Strings.cut_of_not_mem hnone]
  · rcases Strings.exists_join '/' rest with hnone | ⟨kind, name, hkind, rfl⟩
    · left
      unfold decodeResourceID
      rw [Strings.cut_join hns]
      dsimp only
      rw [Strings.cut_of_not_mem hnone]
    · right
      rw [show ns ++ String.singleton '/' ++ (kind ++ String.singleton '/' ++ name)
        = path ns kind name from rfl, decodeResourceID_path hns hkind]

/-- Decoding reverses the identifier exactly without a cluster. -/
theorem reversed_iff {t : Resource} (hns : '/' ∉ t.ns.toList) (hkind : '/' ∉ t.kind.toList) :
    Reversed t ↔ t.clusterID = "" := by
  constructor
  · rintro ⟨hns', hkind', hname'⟩
    by_contra hcluster
    -- with the prefix, the identifier is longer than the path of its parts
    have hlength := congrArg String.length (ID_of_cluster hcluster)
    have hdecoded := path_decodeResourceID t.ID
    rw [hns', hkind', hname'] at hdecoded
    rcases hdecoded with hname | hpath
    · rw [← hname] at hlength
      simp only [path, String.length_append, String.length_singleton] at hlength
      omega
    · rw [← hpath] at hlength
      simp only [String.length_append, String.length_singleton] at hlength
      omega
  · intro hcluster
    unfold Reversed
    rw [ID_of_no_cluster hcluster, decodeResourceID_path hns hkind]
    exact ⟨rfl, rfl, rfl⟩

/-- A stored edge of the binding is reported. -/
theorem mem_subjectsForBinding (range : MapOrder) (ops : List MemoryStore.Op) {e : Edge}
    (htype : e.type = .bindsSubject) :
    ∃ refs, subjectsForBinding range (MemoryStore.run range (ops ++ [.upsertEdge e])) e.fromID
      = .ok refs ∧ subjectOf e ∈ refs := by
  have hlisted := (run_represents range (ops ++ [.upsertEdge e])).listEdges_outgoing
    (GraphState.run_wellFiled _) range e.fromID
  have hstored : (GraphState.run (ops ++ [.upsertEdge e])).edges e.key = some e := by
    unfold GraphState.run
    rw [List.foldl_append]
    exact Function.update_self ..
  refine ⟨_, rfl, List.mem_map.mpr ⟨e, List.mem_filter.mpr ⟨?_, decide_eq_true htype⟩, rfl⟩⟩
  exact (hlisted.2 e).mpr ⟨rfl, hstored⟩

/-- The subject of a binding is reported as it is, and an identifier
is decoded to what it was made of, if and only if there is no
cluster. The decoder does not know the prefix that a cluster adds. -/
theorem subjectReported_iff (range : MapOrder) (ops : List MemoryStore.Op) (r : Resource)
    (subject : RbacSubjectRef) (hbinding : isBinding r = true) (hsubject : ListsSubject r subject)
    (hns : '/' ∉ subject.ns.toList) (hkind : '/' ∉ subject.kind.toList) :
    subjectEdge r subject ∈ bindsSubjectEdges r ∧
      (∃ refs, subjectsForBinding range
          (MemoryStore.run range (ops ++ [.upsertEdge (subjectEdge r subject)])) r.ID = .ok refs ∧
        subjectOf (subjectEdge r subject) ∈ refs) ∧
      (subjectOf (subjectEdge r subject) = subject ↔ r.clusterID = "") ∧
      ∀ t : Resource, '/' ∉ t.ns.toList → '/' ∉ t.kind.toList →
        (Reversed t ↔ t.clusterID = "") := by
  refine ⟨subjectEdge_mem hbinding hsubject, mem_subjectsForBinding range ops rfl, ?_,
    fun t => reversed_iff⟩
  have hrev := reversed_iff (t := { kind := subject.kind, name := subject.name, ns := subject.ns
                                    clusterID := r.clusterID }) hns hkind
  rw [← hrev]
  constructor
  · intro h
    exact ⟨congrArg RbacSubjectRef.ns h, congrArg RbacSubjectRef.kind h,
      congrArg RbacSubjectRef.name h⟩
  · rintro ⟨hns', hkind', hname'⟩
    exact RbacSubjectRef.mk.injEq .. |>.mpr ⟨hkind', hns', hname'⟩

/-- A role binding of the user alice, in the given cluster. -/
def aliceBinding (clusterID : String) : Resource :=
  { kind := "RoleBinding", name := "b", ns := "d", clusterID := clusterID
    raw := some [("subjects", .arr [.obj [("kind", .str "User"), ("name", .str "alice")]])] }

def alice : RbacSubjectRef := ⟨"User", "", "alice"⟩

theorem alice_listed (clusterID : String) : ListsSubject (aliceBinding clusterID) alice :=
  ⟨[("kind", .str "User"), ("name", .str "alice")], List.mem_singleton.mpr rfl, by decide,
    by decide, rfl, rfl, rfl⟩

theorem subjectReported_iff_alice :
    subjectOf (subjectEdge (aliceBinding "") alice) = alice :=
  (subjectReported_iff RangeOrder.inserted [] (aliceBinding "") alice rfl (alice_listed "")
    (by decide) (by decide)).2.2.1.mpr rfl

/-- With a cluster, the user is reported in the namespace `prod:`. -/
theorem decodeResourceID_keeps_cluster :
    bindsSubjectEdges (aliceBinding "prod") = [subjectEdge (aliceBinding "prod") alice] ∧
      subjectOf (subjectEdge (aliceBinding "prod") alice) = ⟨"User", "prod:", "alice"⟩ := by
  refine ⟨by decide +kernel, by decide +kernel⟩

end KubeAtlas.Proofs.Graph
