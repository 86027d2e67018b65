import KubeAtlas.Discovery.Informer

/-!
# `KubeAtlas.Crd.Discovery`: the callbacks for custom resources

`pkg/crd/discovery.go`: what the informers of discovered custom
resource types do with their objects. They write to the same store
as the informer manager, without its cache of versions and without a
cluster, and derive edges with the rule evaluator only. All
registrations of one CRD share a mutex, so their callbacks run one
after the other.

A callback looks at its context before every write, and after a
failed one.
-/

set_option autoImplicit false

namespace KubeAtlas.Crd

open Discovery KubeAtlas.Graph
open Operations (CoverageReason GroupVersionResource)

/-- `Discovery`, as far as the callbacks read it: `rego` is whether
there is an evaluator. -/
structure Discovery where
  rego : Bool

/-- The CRD of a type, by which registrations are kept.
`reconcileCRD` refuses others. -/
def crdName (gvr : GroupVersionResource) : String := gvr.resource ++ "." ++ gvr.group

/-- The tests of `reconcileCRD` on a served type, apart from
the syntax of its names. -/
def registrable (gvr : GroupVersionResource) (kind : String) : Bool :=
  gvr.group ≠ "" && kind ≠ "Secret"

/-- A gap, unless the context is over. -/
def recordGapUnlessOver (gvr : GroupVersionResource) (reason : CoverageReason) : Handler Unit := do
  if ← call .ctxErr then return ()
  call (.recordGap gvr reason)

/-- The loop over the edges of the evaluator. It stops when the
context is over. -/
def upsertRegoEdges (gvr : GroupVersionResource) : List Edge → Handler Unit
  | [] => return ()
  | e :: edges => do
      if ← call .ctxErr then return ()
      match ← call (.upsertEdge e) with
      | .ok () => upsertRegoEdges gvr edges
      | .error _ =>
        if ← call .ctxErr then return ()
        call (.recordGap gvr .persistenceFailed)
        upsertRegoEdges gvr edges

namespace Discovery

variable (d : Discovery)

/-- `handleUpsert`. -/
def handleUpsert (gvr : GroupVersionResource) (kind : String) (obj : Delivery) : Handler Unit := do
  if ← call .ctxErr then return ()
  match toUnstructured obj with
  | none => call (.recordGap gvr .processingFailed)
  | some u =>
    let r := unstructuredToResource u kind
    match ← call (.upsertResource r) with
    | .error _ => recordGapUnlessOver gvr .persistenceFailed
    | .ok () =>
      if ← call .ctxErr then return ()
      if !d.rego then return ()
      match ← call (.evaluateForResource r) with
      | .error _ => recordGapUnlessOver gvr .extractionFailed
      | .ok edges => upsertRegoEdges gvr edges

/-- `handleDelete`. -/
def handleDelete (gvr : GroupVersionResource) (obj : Delivery) (kind : String) : Handler Unit := do
  if ← call .ctxErr then return ()
  match toUnstructured (InformerManager.unwrapTombstone obj) with
  | none => call (.recordGap gvr .processingFailed)
  | some u =>
    match ← call (.deleteResource (unstructuredToResource u kind).ID) with
    | .error _ => recordGapUnlessOver gvr .persistenceFailed
    | .ok () => return ()

end Discovery

end KubeAtlas.Crd
