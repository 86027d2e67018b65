import KubeAtlas.Discovery.Informer

/-!
# `KubeAtlas.Collect.Scan`: the offline scan

`pkg/collect/collect.go`, from the point where the resources have
been read. All of them are stored before any edge is derived. The
first error ends the scan.
-/

set_option autoImplicit false

namespace KubeAtlas.Collect

open Discovery Extractor KubeAtlas.Graph

/-- The errors of the scan, with what went wrong underneath. -/
inductive ScanError where
  | upsertResource (id : String) (cause : ListError)
  | extract (id : String) (cause : ExtractError)
  | upsertEdge (fromID toID : String) (cause : ListError)
  deriving DecidableEq, Repr

/-- The texts of the errors. `quote` is the `%q` verb of `fmt`. -/
def ScanError.message (quote : String → String) : ScanError → String
  | .upsertResource id cause => "upsert resource " ++ id ++ ": " ++ cause
  | .extract id cause => "extract edges for " ++ id ++ ": " ++ cause.message quote
  | .upsertEdge fromID toID cause => "upsert edge " ++ fromID ++ " -> " ++ toID ++ ": " ++ cause

/-- The first loop: store every resource. -/
def storeResources : List Resource → Handler (Except ScanError Unit)
  | [] => return .ok ()
  | r :: resources => do
      match ← call (.upsertResource r) with
      | .error cause => return .error (.upsertResource r.ID cause)
      | .ok () => storeResources resources

/-- The inner loop of the second one: store the edges of one
resource. -/
def storeEdges : List Edge → Handler (Except ScanError Unit)
  | [] => return .ok ()
  | e :: edges => do
      match ← call (.upsertEdge e) with
      | .error cause => return .error (.upsertEdge e.fromID e.toID cause)
      | .ok () => storeEdges edges

/-- The second loop: derive and store the edges of every resource. -/
def extractEdges (extractor : Resource → Query Extraction) :
    List Resource → Handler (Except ScanError Unit)
  | [] => return .ok ()
  | r :: resources => do
      match ← (extractor r).embed Call.listResources fun _ reply => reply with
      | (_, some err) => return .error (.extract r.ID err)
      | (edges, none) =>
        match ← storeEdges edges with
        | .error err => return .error err
        | .ok () => extractEdges extractor resources

/-- `Cluster`, given the resources that `CollectAll` read. -/
def cluster (extractor : Resource → Query Extraction) (resources : List Resource) :
    Handler (Except ScanError Unit) := do
  match ← storeResources resources with
  | .error err => return .error err
  | .ok () => extractEdges extractor resources

end KubeAtlas.Collect
