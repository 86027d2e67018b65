import KubeAtlas.Lib.Json
import KubeAtlas.Lib.Strings

/-!
# `KubeAtlas.Graph.Model`: resources, edges and their identifiers

The data model of `pkg/graph/model.go`. A `Resource` is a Kubernetes
object as KubeAtlas keeps it; its `ID` is the text
`<namespace>/<kind>/<name>`, prefixed by `<clusterID>:` when the
resource belongs to a named cluster. An `Edge` relates two
identifiers, which need not belong to any stored resource.

An edge type is an open set of texts: rule packs add their own. The
built-in types are constants.
-/

set_option autoImplicit false

namespace KubeAtlas.Graph

open Lib

/-- `EdgeType` is a defined string type in the source. -/
abbrev EdgeType := String

namespace EdgeType

def owns : EdgeType := "OWNS"
def usesConfigMap : EdgeType := "USES_CONFIGMAP"
def usesSecret : EdgeType := "USES_SECRET"
def mountsVolume : EdgeType := "MOUNTS_VOLUME"
def selects : EdgeType := "SELECTS"
def usesServiceAccount : EdgeType := "USES_SERVICEACCOUNT"
def routesTo : EdgeType := "ROUTES_TO"
def attachedTo : EdgeType := "ATTACHED_TO"
def bindsSubject : EdgeType := "BINDS_SUBJECT"
def bindsRole : EdgeType := "BINDS_ROLE"
def selectsNP : EdgeType := "SELECTS_NP"
def allowsFrom : EdgeType := "ALLOWS_FROM"
def allowsTo : EdgeType := "ALLOWS_TO"
def bindsPlatformIdentity : EdgeType := "BINDS_PLATFORM_IDENTITY"
def scales : EdgeType := "SCALES"
def enforces : EdgeType := "ENFORCES"

/-- The runtime overlay's own type, which is not among the source's
`AllEdgeTypes`. -/
def callsAtRuntime : EdgeType := "CALLS_AT_RUNTIME"

end EdgeType

/-- An entry of `metadata.ownerReferences`. -/
structure OwnerRef where
  kind : String
  name : String
  uid : String
  deriving DecidableEq, Repr

/-- A Go `map[string]string`, as its list of entries. -/
abbrev StringMap := List (String × String)

/-- A Go `map[string]any`, as its list of members. -/
abbrev Object := List (String × Json)

/-- A Kubernetes resource. `raw` is the full object, `none` for a
nil map. -/
structure Resource where
  kind : String := ""
  name : String := ""
  ns : String := ""
  labels : StringMap := []
  groupVersion : String := ""
  uid : String := ""
  annotations : StringMap := []
  ownerReferences : List OwnerRef := []
  resourceVersion : String := ""
  raw : Option Object := none
  clusterID : String := ""
  deriving Inhabited

/-- `Resource.ID`. -/
def Resource.ID (r : Resource) : String :=
  let base := r.ns ++ "/" ++ r.kind ++ "/" ++ r.name
  if r.clusterID = "" then base else r.clusterID ++ ":" ++ base

/-- A directed dependency. `attributes` is free-form metadata. -/
structure Edge where
  fromID : String
  toID : String
  type : EdgeType
  attributes : StringMap := []
  deriving DecidableEq, Repr

/-- The triple that identifies an edge. -/
structure EdgeKey where
  fromID : String
  toID : String
  type : EdgeType
  deriving DecidableEq, Repr

/-- The key of an edge. -/
def Edge.key (e : Edge) : EdgeKey := ⟨e.fromID, e.toID, e.type⟩

end KubeAtlas.Graph

/-- `Graph`: a snapshot of the dependency graph. -/
structure KubeAtlas.Graph where
  resources : List Graph.Resource
  edges : List Graph.Edge

namespace KubeAtlas.Graph

/-- The identifier reads four fields only. -/
theorem Resource.ID_congr {r r' : Resource} (hk : r.kind = r'.kind) (hn : r.name = r'.name)
    (hns : r.ns = r'.ns) (hc : r.clusterID = r'.clusterID) : r.ID = r'.ID := by
  simp only [Resource.ID, hk, hn, hns, hc]

end KubeAtlas.Graph
