import KubeAtlas.Graph.Security
import KubeAtlas.Lib.Budget

/-!
# `KubeAtlas.Graph.Projection`: the allowlist projection of a snapshot

`pkg/graph/impact_reference_projection.go` and
`pkg/graph/impact_snapshot.go`. An impact snapshot copies a
resource's identity and, for the supported consumers of ConfigMaps,
Secrets and volumes, a narrow part of its raw object. That part is
described by a shape. Walking a shape over a value keeps allowlisted
keys, array positions and the emptiness of sub-paths, turns every
value of the wrong type into `null`, and charges the byte budget as
it goes.

Cancellation is not part of the model: the context is checked before
each unit of work, and a live context never changes a result.
-/

set_option autoImplicit false

namespace KubeAtlas.Graph

open Lib
open Lib.Budget (andThen free pay)

/-- The two errors of a snapshot read. -/
inductive SnapshotError where
  | options
  | limit
  deriving DecidableEq, Repr

/-- The texts of `ErrImpactSnapshotOptions` and
`ErrImpactSnapshotLimit`. -/
def SnapshotError.message : SnapshotError → String
  | .options => "impact snapshot: invalid options"
  | .limit => "impact snapshot: projection budget exceeded"

/-! ### Shapes -/

mutual

/-- `ImpactFieldShape`, one constructor for each of its kinds. -/
inductive ImpactFieldShape where
  | string
  | boolean
  | presenceString
  | object (fields : List ImpactProjectionField)
  | array (element : ImpactFieldShape)

/-- `ImpactProjectionField`: a key and the shape of its value. -/
inductive ImpactProjectionField where
  | mk (name : String) (shape : ImpactFieldShape)

end

/-- `ImpactPresentString` stands for any non-empty sub-path. -/
def impactPresentString : String := "<present>"

/-- `ImpactPodSpecPath`: where a supported kind keeps its pod spec. -/
def impactPodSpecPath (kind gv : String) : Option (List String) :=
  if kind = "Pod" && gv = "v1" then some ["spec"]
  else if ((kind = "Deployment" || kind = "ReplicaSet" || kind = "StatefulSet" ||
      kind = "DaemonSet") && gv = "apps/v1") || (kind = "Job" && gv = "batch/v1") then
    some ["spec", "template", "spec"]
  else if kind = "CronJob" && gv = "batch/v1" then
    some ["spec", "jobTemplate", "spec", "template", "spec"]
  else none

/-- A reference by `name`, with its `optional` flag. -/
def impactRefShape : ImpactFieldShape :=
  .object [.mk "name" .string, .mk "optional" .boolean]

def impactEnvFromShape : ImpactFieldShape :=
  .object [.mk "configMapRef" impactRefShape, .mk "secretRef" impactRefShape]

def impactEnvShape : ImpactFieldShape :=
  .object [.mk "valueFrom"
    (.object [.mk "configMapKeyRef" impactRefShape, .mk "secretKeyRef" impactRefShape])]

def impactVolumeMountShape : ImpactFieldShape :=
  .object [.mk "name" .string, .mk "subPath" .presenceString,
    .mk "subPathExpr" .presenceString]

def impactContainerShape : ImpactFieldShape :=
  .object [.mk "envFrom" (.array impactEnvFromShape), .mk "env" (.array impactEnvShape),
    .mk "volumeMounts" (.array impactVolumeMountShape)]

def impactProjectedSourceShape : ImpactFieldShape :=
  .object [.mk "configMap" impactRefShape, .mk "secret" impactRefShape]

def impactVolumeShape : ImpactFieldShape :=
  .object [.mk "name" .string, .mk "configMap" impactRefShape,
    .mk "secret" (.object [.mk "secretName" .string, .mk "optional" .boolean]),
    .mk "persistentVolumeClaim" (.object [.mk "claimName" .string]),
    .mk "projected" (.object [.mk "sources" (.array impactProjectedSourceShape)])]

def impactPodSpecShape : ImpactFieldShape :=
  .object [.mk "containers" (.array impactContainerShape),
    .mk "initContainers" (.array impactContainerShape),
    .mk "ephemeralContainers" (.array impactContainerShape),
    .mk "volumes" (.array impactVolumeShape)]

/-- The pod spec's shape below the keys of a path: the loop over
`path[1:]`, from its last key outwards. -/
def impactNestedShape : List String → ImpactFieldShape
  | [] => impactPodSpecShape
  | key :: rest => .object [.mk key (impactNestedShape rest)]

def impactMetadataShape : ImpactFieldShape :=
  .object [.mk "name" .string, .mk "namespace" .string, .mk "uid" .string,
    .mk "resourceVersion" .string]

/-- `makeImpactReferenceShape` for the path `first :: rest`. -/
def makeImpactReferenceShape (first : String) (rest : List String) : ImpactFieldShape :=
  .object [.mk "kind" .string, .mk "apiVersion" .string,
    .mk "metadata" impactMetadataShape, .mk first (impactNestedShape rest)]

/-- `ImpactReferenceShape`: the shape of a supported kind, told
apart by the length of its path. -/
def impactReferenceShape (kind gv : String) : Option ImpactFieldShape :=
  match (impactPodSpecPath kind gv).map List.length with
  | some 1 => some (makeImpactReferenceShape "spec" [])
  | some 3 => some (makeImpactReferenceShape "spec" ["template", "spec"])
  | some 5 =>
    some (makeImpactReferenceShape "spec" ["jobTemplate", "spec", "template", "spec"])
  | _ => none

/-! ### Walking a shape -/

/-- A step of the projection: the bytes left go in, a value and the
bytes left come out. -/
abbrev Projecting (α : Type) := Nat → Except SnapshotError (α × Nat)

/-- `ImpactProjectionBuilder.charge`. -/
def charge (overhead : Nat) (fields : List String) : Projecting Unit :=
  pay .limit overhead fields

/-- The loop over the items of an array. -/
def projectItems (project : Json → Projecting Json) : List Json → Projecting (List Json)
  | [] => free []
  | item :: items =>
    andThen (project item) fun head =>
      andThen (projectItems project items) fun tail => free (head :: tail)

mutual

/-- `projectImpactValue`. Each case charges 32 bytes first. -/
def projectImpactValue : ImpactFieldShape → Json → Projecting Json
  | .string, value =>
    andThen (charge 32 []) fun _ =>
      match value with
      | .str text => andThen (charge 0 [text]) fun _ => free (.str text)
      | _ => free .null
  | .presenceString, value =>
    andThen (charge 32 []) fun _ =>
      match value with
      | .str text =>
        if text = "" then free (.str "")
        else andThen (charge 0 [impactPresentString]) fun _ =>
          free (.str impactPresentString)
      | _ => free .null
  | .boolean, value =>
    andThen (charge 32 []) fun _ =>
      match value with
      | .bool flag => free (.bool flag)
      | _ => free .null
  | .object fields, value =>
    andThen (charge 32 []) fun _ =>
      match value with
      | .obj object => andThen (projectFields fields object) fun out => free (.obj out)
      | _ => free .null
  | .array element, value =>
    andThen (charge 32 []) fun _ =>
      match value with
      | .arr items =>
        andThen (projectItems (projectImpactValue element) items) fun out =>
          free (.arr out)
      | _ => free .null

/-- The loop over the fields of an object shape. -/
def projectFields : List ImpactProjectionField → Object → Projecting Object
  | [], _ => free []
  | field :: fields, object =>
    andThen (projectField field object) fun head =>
      andThen (projectFields fields object) fun tail => free (head ++ tail)

/-- One field: absent keys stay absent. -/
def projectField : ImpactProjectionField → Object → Projecting Object
  | .mk name shape, object =>
    match object.lookup name with
    | none => free []
    | some entry =>
      andThen (charge 8 [name]) fun _ =>
        andThen (projectImpactValue shape entry) fun projected =>
          free [(name, projected)]

end

/-- `projectReferenceFields`. An empty projection becomes a nil map. -/
def projectReferenceFields (r : Resource) : Projecting (Option Object) :=
  match impactReferenceShape r.kind r.groupVersion, r.raw with
  | some shape, some raw =>
    if r.uid = "" || r.resourceVersion = "" then free none
    else
      andThen (projectImpactValue shape (.obj raw)) fun value =>
        match value with
        | .obj (m :: ms) => free (some (m :: ms))
        | _ => free none
  | _, _ => free none

/-! ### The builder -/

/-- `ImpactSnapshotOptions`. -/
structure ImpactSnapshotOptions where
  clusterID : String := ""
  maxResources : Int := 0
  maxEdges : Int := 0
  maxBytes : Int := 0

/-- The defaults of `Normalize`: a bound of zero is unset. -/
def ImpactSnapshotOptions.withDefaults (o : ImpactSnapshotOptions) : ImpactSnapshotOptions where
  clusterID := o.clusterID
  maxResources := if o.maxResources = 0 then 20000 else o.maxResources
  maxEdges := if o.maxEdges = 0 then 100000 else o.maxEdges
  maxBytes := if o.maxBytes = 0 then 16 * 2 ^ 20 else o.maxBytes

/-- `ImpactSnapshotOptions.Normalize`. -/
def ImpactSnapshotOptions.normalize (opts : ImpactSnapshotOptions) :
    Except SnapshotError ImpactSnapshotOptions :=
  let o := opts.withDefaults
  if Strings.containsAny o.clusterID ['/', ':'] ||
      o.maxResources < 1 || o.maxResources > 100000 ||
      o.maxEdges < 1 || o.maxEdges > 500000 ||
      o.maxBytes < 1 || o.maxBytes > 64 * 2 ^ 20 then
    .error .options
  else .ok o

/-- `ImpactIDInCluster`: the cluster prefix sits before the first
slash. -/
def impactIDInCluster (id clusterID : String) : Bool :=
  match Strings.cut id '/' with
  | (_, _, false) => false
  | (head, _, true) =>
    match Strings.cut head ':' with
    | (cluster, _, true) => cluster = clusterID && cluster ≠ ""
    | (_, _, false) => clusterID = ""

/-- `ImpactProjectionBuilder`. -/
structure ImpactProjectionBuilder where
  graph : Graph
  opts : ImpactSnapshotOptions
  remaining : Nat

/-- `NewImpactProjectionBuilder`. -/
def newImpactProjectionBuilder (opts : ImpactSnapshotOptions) :
    Except SnapshotError ImpactProjectionBuilder := do
  let opts ← opts.normalize
  return { graph := ⟨[], []⟩, opts := opts, remaining := opts.maxBytes.toNat }

namespace ImpactProjectionBuilder

/-- The loop over the owner references of a resource. -/
def chargeOwners : List OwnerRef → Projecting Unit
  | [] => free ()
  | owner :: owners =>
    andThen (charge 64 [owner.kind, owner.name, owner.uid]) fun _ => chargeOwners owners

/-- The charges of `AddResource` and the projected resource they pay
for. -/
def projectResource (r : Resource) : Projecting Resource :=
  andThen (charge 512 [r.kind, r.name, r.ns, r.clusterID, r.groupVersion, r.uid,
    r.resourceVersion]) fun _ =>
  andThen (chargeOwners r.ownerReferences) fun _ =>
  andThen (projectReferenceFields r) fun raw =>
    free (sanitizeResource
      { kind := r.kind, name := r.name, ns := r.ns, clusterID := r.clusterID, uid := r.uid,
        resourceVersion := r.resourceVersion, groupVersion := r.groupVersion,
        ownerReferences := r.ownerReferences, raw := raw })

/-- `AddResource`. -/
def addResource (b : ImpactProjectionBuilder) (r : Resource) :
    Except SnapshotError ImpactProjectionBuilder :=
  if r.clusterID ≠ b.opts.clusterID then .ok b
  else if (b.graph.resources.length : Int) = b.opts.maxResources then .error .limit
  else
    match projectResource (sanitizeResource r) b.remaining with
    | .error e => .error e
    | .ok (projected, remaining) =>
      .ok { b with
        graph := { b.graph with resources := b.graph.resources ++ [projected] }
        remaining := remaining }

/-- `AddEdge`. The attributes stay behind. -/
def addEdge (b : ImpactProjectionBuilder) (e : Edge) :
    Except SnapshotError ImpactProjectionBuilder :=
  if !impactIDInCluster e.fromID b.opts.clusterID ||
      !impactIDInCluster e.toID b.opts.clusterID then .ok b
  else if (b.graph.edges.length : Int) = b.opts.maxEdges then .error .limit
  else
    match charge 96 [e.fromID, e.toID, e.type] b.remaining with
    | .error err => .error err
    | .ok (_, remaining) =>
      .ok { b with
        graph := { b.graph with
          edges := b.graph.edges ++ [{ fromID := e.fromID, toID := e.toID, type := e.type }] }
        remaining := remaining }

end ImpactProjectionBuilder

end KubeAtlas.Graph
