import KubeAtlas.Graph.Model

/-!
# `KubeAtlas.Graph.Security`: the Secret boundary

`pkg/graph/security.go`. A Secret is only ever kept as a
reference: namespace, name, cluster and a generated marker.
`sanitizeResource` is that reduction, and `secretReferenceFromEdge`
reads the same reference off the target of an edge.
-/

set_option autoImplicit false

namespace KubeAtlas.Graph

open Lib

/-- The marker of a node that stands for a reference. -/
def referenceOnlyAnnotation : String := "kubeatlas.io/reference-only"

/-- `SecretReferenceResource`. -/
def secretReferenceResource (ns name clusterID : String) : Resource :=
  { kind := "Secret", name := name, ns := ns,
    annotations := [.mk referenceOnlyAnnotation "true"], clusterID := clusterID }

/-- `SanitizeResource`. -/
def sanitizeResource (r : Resource) : Resource :=
  if r.kind ≠ "Secret" then r else secretReferenceResource r.ns r.name r.clusterID

/-- `SecretReferenceFromEdge`: the Secret an edge points at, if its
target is the identifier of one. -/
def secretReferenceFromEdge (e : Edge) : Option Resource :=
  let (clusterID, target) :=
    match Strings.cut e.toID ':' with
    | (before, after, true) => (before, after)
    | (_, _, false) => ("", e.toID)
  match Strings.splitN '/' 3 target with
  | [ns, kind, name] =>
    if ns = "" || kind ≠ "Secret" || name = "" then none
    else some (secretReferenceResource ns name clusterID)
  | _ => none

/-- What an edge names is a reference. -/
theorem eq_secretReferenceResource {e : Edge} {ref : Resource}
    (h : secretReferenceFromEdge e = some ref) :
    ∃ ns name clusterID, secretReferenceResource ns name clusterID = ref := by
  unfold secretReferenceFromEdge at h
  grind

section Sanitize

variable (r : Resource)

theorem sanitizeResource_of_ne (h : r.kind ≠ "Secret") : sanitizeResource r = r :=
  if_pos h

theorem sanitizeResource_of_secret (h : r.kind = "Secret") :
    sanitizeResource r = secretReferenceResource r.ns r.name r.clusterID :=
  if_neg (not_not.mpr h)

@[simp] theorem sanitizeResource_kind : (sanitizeResource r).kind = r.kind := by
  by_cases h : r.kind = "Secret"
  · rw [sanitizeResource_of_secret r h, h]
    rfl
  · rw [sanitizeResource_of_ne r h]

@[simp] theorem sanitizeResource_name : (sanitizeResource r).name = r.name := by
  by_cases h : r.kind = "Secret"
  · rw [sanitizeResource_of_secret r h]
    rfl
  · rw [sanitizeResource_of_ne r h]

@[simp] theorem sanitizeResource_ns : (sanitizeResource r).ns = r.ns := by
  by_cases h : r.kind = "Secret"
  · rw [sanitizeResource_of_secret r h]
    rfl
  · rw [sanitizeResource_of_ne r h]

@[simp] theorem sanitizeResource_clusterID : (sanitizeResource r).clusterID = r.clusterID := by
  by_cases h : r.kind = "Secret"
  · rw [sanitizeResource_of_secret r h]
    rfl
  · rw [sanitizeResource_of_ne r h]

/-- Sanitizing keeps the identifier. -/
@[simp] theorem sanitizeResource_ID : (sanitizeResource r).ID = r.ID :=
  Resource.ID_congr (by simp) (by simp) (by simp) (by simp)

/-- Sanitizing is idempotent: what it returns is already a
reference. -/
@[simp] theorem sanitizeResource_sanitizeResource :
    sanitizeResource (sanitizeResource r) = sanitizeResource r := by
  by_cases h : r.kind = "Secret"
  · rw [sanitizeResource_of_secret _ (by rw [sanitizeResource_kind, h])]
    rw [sanitizeResource_of_secret r h]
    rfl
  · rw [sanitizeResource_of_ne r h, sanitizeResource_of_ne r h]

end Sanitize

end KubeAtlas.Graph
