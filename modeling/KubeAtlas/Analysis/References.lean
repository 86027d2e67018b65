import KubeAtlas.Analysis.Identity
import KubeAtlas.Graph.Projection

/-!
# `KubeAtlas.Analysis.References`: explaining a reference edge

`pkg/graph/analysis/impact_references.go`. For an edge from a
consumer to a ConfigMap, Secret or claim, the reader looks up every
declaration in the consumer's pod spec that names the target.
Scanning and retained evidence are charged to one budget of entries
and bytes, shared across a query, and the parsed declarations of a
consumer are cached by its identifier.

The walk over a pod spec keeps its variables in
`ImpactPodReferences`. Of the consumer it reads the namespace and
the cluster only, and takes these two as parameters. An error ends
the query, but the budget it had consumed by then is part of the
state, so a step returns the state also when it fails.
-/

set_option autoImplicit false

namespace KubeAtlas.Analysis

open KubeAtlas.Graph Lib

/-- The `Mode` of a use. -/
inductive UseMode where
  | environment
  | volumeDeclaration
  | volumeMount
  | volumeSubpath
  deriving DecidableEq, Repr

/-- The `Optional` field of a use. -/
inductive UseOptional where
  | required
  | optional
  | notApplicable
  deriving DecidableEq, Repr

/-- The `Refresh` field of a use. -/
inductive UseRefresh where
  | unknown
  | storageDependent
  | containerRestartRequired
  | noAutomaticUpdates
  | eventualProjection
  deriving DecidableEq, Repr

/-- `ImpactReferenceUse`. -/
structure ImpactReferenceUse where
  fieldPath : String
  mountFieldPath : String
  mode : UseMode
  optional : UseOptional
  refresh : UseRefresh
  deriving DecidableEq, Repr

/-- The `Status` of an evidence record. -/
inductive EvidenceStatus where
  | unknown
  | versionBound
  deriving DecidableEq, Repr

/-- The `Reason` of an evidence record; the source writes `""` for
none. -/
inductive EvidenceReason where
  | none
  | referenceOnlySource
  | targetSchemaMismatch
  | missingSourceVersion
  | unsupportedSourceSchema
  | sourceFieldsUnavailable
  | sourceIdentityOrVersionMismatch
  | malformedReferenceFields
  | referenceNotFoundOrNotModeled
  deriving DecidableEq, Repr

/-- `ImpactReferenceEvidence`. -/
structure ImpactReferenceEvidence where
  fromID : String
  toID : String
  type : EdgeType
  sourceUID : String := ""
  sourceResourceVersion : String := ""
  status : EvidenceStatus := .unknown
  reason : EvidenceReason := .none
  uses : List ImpactReferenceUse := []
  deriving DecidableEq, Repr

/-- `impactReferenceTarget`. -/
structure ImpactReferenceTarget where
  id : String
  edgeType : EdgeType
  deriving DecidableEq, Repr

/-- `impactReferenceSource`. A nil `uses` map is the empty one. -/
structure ImpactReferenceSource where
  reason : EvidenceReason := .none
  uses : ImpactReferenceTarget → List ImpactReferenceUse := fun _ => []

/-- `impactReferenceReader`. -/
structure ImpactReferenceReader where
  entries : Nat
  bytes : Nat
  sources : ByID (Option ImpactReferenceSource)

/-- `newImpactReferenceReader`. -/
def newImpactReferenceReader : ImpactReferenceReader :=
  { entries := 100000, bytes := 16 * 2 ^ 20, sources := fun _ => none }

/-- `isImpactReference`. -/
def isImpactReference (edgeType : EdgeType) : Bool :=
  edgeType = .usesConfigMap || edgeType = .usesSecret || edgeType = .mountsVolume

/-- `impactReferenceReader.charge`. -/
def ImpactReferenceReader.charge (r : ImpactReferenceReader) (overhead : Nat)
    (fields : List String) : Except ImpactError Unit × ImpactReferenceReader :=
  if r.entries = 0 || overhead > r.bytes then (.error .referenceLimit, r)
  else
    match Budget.chargeFields (r.bytes - overhead) fields with
    | (bytes, true) => (.ok (), { r with entries := r.entries - 1, bytes := bytes })
    | (bytes, false) =>
      (.error .referenceLimit, { r with entries := r.entries - 1, bytes := bytes })

/-! ### The walk over a pod spec -/

/-- `impactReferenceMount`. -/
structure ImpactReferenceMount where
  path : String
  subPath : Bool
  deriving DecidableEq, Repr

/-- `impactPodReferences`, with the reader it charges and the uses
it collects. -/
structure ImpactPodReferences where
  reader : ImpactReferenceReader
  uses : ImpactReferenceTarget → List ImpactReferenceUse
  mounts : ByID (List ImpactReferenceMount)
  malformed : Bool

/-- A step of the walk. -/
abbrev Walking (α : Type) := ExceptT ImpactError (StateM ImpactPodReferences) α

/-- `refString`. -/
def refString (object : Object) (field : String) : String :=
  match object.lookup field with
  | some value => value.text
  | none => ""

namespace ImpactPodReferences

/-- `p.reader.charge`. -/
def charge (overhead : Nat) (fields : List String) : Walking Unit :=
  fun p =>
    let (result, reader) := p.reader.charge overhead fields
    (result, { p with reader := reader })

/-- `p.malformed = true`. -/
def markMalformed : Walking Unit :=
  fun p => (.ok (), { p with malformed := true })

/-- `p.array`: the items of an array field, none for an absent one. -/
def array (object : Object) (field : String) : Walking (List Json) :=
  match object.lookup field with
  | none => pure []
  | some value =>
    match value.items? with
    | some items => pure items
    | none => do
        markMalformed
        pure []

/-- `p.object`. A value that is no object reads like the empty one. -/
def object (value : Json) : Walking Object :=
  match value.members? with
  | some members => pure members
  | none => do
      markMalformed
      pure []

/-- A `for i, item := range items` loop that starts counting at `i`. -/
def forRange {α : Type} (body : Nat → α → Walking Unit) : Nat → List α → Walking Unit
  | _, [] => pure ()
  | i, item :: items => do
      body i item
      forRange body (i + 1) items

/-- A `for i, item := range p.array(object, field)` loop. -/
def forArray (object : Object) (field : String) (body : Nat → Json → Walking Unit) :
    Walking Unit := do
  forRange body 0 (← array object field)

/-- The `Refresh` of a use, by kind, mode and sub-path. -/
def useRefresh (kind : String) (mode : UseMode) (subPath : Bool) : UseRefresh :=
  if kind = "PersistentVolumeClaim" then .storageDependent
  else if mode = .environment then .containerRestartRequired
  else if subPath then .noAutomaticUpdates
  else if mode = .volumeMount then .eventualProjection
  else .unknown

/-- The edge type that leads to a target of a kind. -/
def useEdgeType (kind : String) : EdgeType :=
  if kind = "Secret" then .usesSecret
  else if kind = "PersistentVolumeClaim" then .mountsVolume
  else .usesConfigMap

/-- The `Optional` field: a flag that is present and no boolean is
malformed. -/
def useOptional (ref : Object) (kind : String) : Walking UseOptional :=
  if kind = "PersistentVolumeClaim" then pure .notApplicable
  else
    match ref.lookup "optional" with
    | none => pure .required
    | some (.bool true) => pure .optional
    | some (.bool false) => pure .required
    | some _ => do
        markMalformed
        pure .required

section Source

variable (ns clusterID : String)

/-- `p.add`, for a consumer in `ns` of `clusterID`. -/
def add (ref : Object) (kind nameField path : String) (mode : UseMode) (mountPath : String)
    (subPath : Bool) : Walking Unit := do
  let name := refString ref nameField
  charge 256 [name, path, mountPath, ns, clusterID]
  if name = "" || Strings.containsAny name ['/', ':'] then markMalformed
  else
    let lookup ← useOptional ref kind
    let use : ImpactReferenceUse :=
      { fieldPath := path, mountFieldPath := mountPath
        mode := if subPath then .volumeSubpath else mode
        optional := lookup, refresh := useRefresh kind mode subPath }
    let target : Resource :=
      { kind := kind, name := name, ns := ns, clusterID := clusterID }
    let key : ImpactReferenceTarget := ⟨target.ID, useEdgeType kind⟩
    modify fun p => { p with uses := Function.update p.uses key (p.uses key ++ [use]) }

/-- A reference below an optional key of an object: nothing when the
key is absent. -/
def addRef (object : Object) (kind path : String) (ref : String) : Walking Unit :=
  match object.lookup ref with
  | none => pure ()
  | some value => do
      let members ← ImpactPodReferences.object value
      add ns clusterID members kind "name" (path ++ "/" ++ ref) .environment "" false

/-- One entry of `envFrom`. -/
def envFromEntry (path : String) (i : Nat) (entry : Json) : Walking Unit := do
  charge 64 []
  let members ← object entry
  let entryPath := path ++ "/envFrom/" ++ toString i
  addRef ns clusterID members "ConfigMap" entryPath "configMapRef"
  addRef ns clusterID members "Secret" entryPath "secretRef"

/-- One entry of `env`. A literal `value` is never read. -/
def envEntry (path : String) (i : Nat) (entry : Json) : Walking Unit := do
  charge 64 []
  let members ← object entry
  match members.lookup "valueFrom" with
  | none => pure ()
  | some value => do
      let valueFrom ← object value
      let entryPath := path ++ "/env/" ++ toString i ++ "/valueFrom"
      addRef ns clusterID valueFrom "ConfigMap" entryPath "configMapKeyRef"
      addRef ns clusterID valueFrom "Secret" entryPath "secretKeyRef"

/-- Whether a sub-path field is set to a non-empty text. -/
def subPathField (mount : Object) (field : String) : Walking Bool :=
  match mount.lookup field with
  | none => pure false
  | some (.str text) => pure (text ≠ "")
  | some _ => do
      markMalformed
      pure false

/-- One entry of `volumeMounts`. -/
def volumeMountEntry (path : String) (i : Nat) (entry : Json) : Walking Unit := do
  charge 64 []
  let mount ← object entry
  let name := refString mount "name"
  if name = "" then markMalformed
  charge 64 [name]
  let subPath ← subPathField mount "subPath"
  let subPathExpr ← subPathField mount "subPathExpr"
  let mount : ImpactReferenceMount :=
    { path := path ++ "/volumeMounts/" ++ toString i, subPath := subPath || subPathExpr }
  modify fun p =>
    { p with mounts := Function.update p.mounts name (p.mounts name ++ [mount]) }

/-- One item of a container list. -/
def container (pathPrefix : String) (i : Nat) (item : Json) : Walking Unit := do
  charge 64 []
  let members ← object item
  let path := pathPrefix ++ "/" ++ toString i
  forArray members "envFrom" (envFromEntry ns clusterID path)
  forArray members "env" (envEntry ns clusterID path)
  forArray members "volumeMounts" (volumeMountEntry path)

/-- `p.containers`. -/
def containers (spec : Object) (field pathPrefix : String) : Walking Unit :=
  forArray spec field (container ns clusterID pathPrefix)

/-- The loop over the mounts of a volume. -/
def addMounts (ref : Object) (kind nameField path : String) :
    List ImpactReferenceMount → Walking Unit
  | [] => pure ()
  | mount :: mounts => do
      add ns clusterID ref kind nameField path .volumeMount mount.path mount.subPath
      addMounts ref kind nameField path mounts

/-- `p.volumeUse`. -/
def volumeUse (ref : Object) (kind nameField path volumeName : String) : Walking Unit := do
  match (← get).mounts volumeName with
  | [] => add ns clusterID ref kind nameField path .volumeDeclaration "" false
  | mount :: mounts => addMounts ns clusterID ref kind nameField path (mount :: mounts)

/-- A volume source below an optional key. -/
def volumeRef (volume : Object) (field kind nameField path volumeName : String) :
    Walking Unit :=
  match volume.lookup field with
  | none => pure ()
  | some value => do
      let members ← object value
      volumeUse ns clusterID members kind nameField (path ++ "/" ++ field) volumeName

/-- One entry of `projected.sources`. -/
def projectedSource (path volumeName : String) (j : Nat) (entry : Json) : Walking Unit := do
  charge 64 []
  let members ← object entry
  let entryPath := path ++ "/projected/sources/" ++ toString j
  volumeRef ns clusterID members "configMap" "ConfigMap" "name" entryPath volumeName
  volumeRef ns clusterID members "secret" "Secret" "name" entryPath volumeName

/-- One entry of `volumes`, with the names of the volumes before it. -/
def volume (pathPrefix : String) (i : Nat) (seen : List String) (entry : Json) :
    Walking String := do
  charge 64 []
  let members ← object entry
  let name := refString members "name"
  charge 64 [name]
  if name = "" || seen.contains name then markMalformed
  let path := pathPrefix ++ "/" ++ toString i
  volumeRef ns clusterID members "configMap" "ConfigMap" "name" path name
  volumeRef ns clusterID members "secret" "Secret" "secretName" path name
  volumeRef ns clusterID members "persistentVolumeClaim" "PersistentVolumeClaim" "claimName"
    path name
  match members.lookup "projected" with
  | none => pure ()
  | some value => do
      let projected ← object value
      forArray projected "sources" (projectedSource ns clusterID path name)
  pure name

/-- The loop of `p.volumes`. -/
def volumeLoop (pathPrefix : String) : Nat → List String → List Json → Walking Unit
  | _, _, [] => pure ()
  | i, seen, entry :: entries => do
      let name ← volume ns clusterID pathPrefix i seen entry
      volumeLoop pathPrefix (i + 1) (name :: seen) entries

/-- `p.volumes`. -/
def volumes (spec : Object) (pathPrefix : String) : Walking Unit := do
  volumeLoop ns clusterID pathPrefix 0 [] (← array spec "volumes")

/-- The whole walk over a pod spec. -/
def podSpec (spec : Object) (pathPrefix : String) : Walking Unit := do
  containers ns clusterID spec "containers" (pathPrefix ++ "/containers")
  containers ns clusterID spec "initContainers" (pathPrefix ++ "/initContainers")
  containers ns clusterID spec "ephemeralContainers" (pathPrefix ++ "/ephemeralContainers")
  volumes ns clusterID spec (pathPrefix ++ "/volumes")

end Source

end ImpactPodReferences

/-! ### Explaining one edge -/

/-- The pod spec below the keys of a path; `none` where a value is
no object. -/
def podSpecAt (raw : Object) : List String → Option Object
  | [] => some raw
  | key :: path => (raw.lookup key).bind fun value =>
    value.members?.bind fun members => podSpecAt members path

/-- The identity check of `parse`: the raw object is the stored
version of the resource. -/
def rawIdentityMatches (source : Resource) (raw : Object) : Bool :=
  let metadata := ((raw.lookup "metadata").bind Json.members?).getD []
  refString raw "kind" = source.kind && refString raw "apiVersion" = source.groupVersion &&
    refString metadata "name" = source.name && refString metadata "namespace" = source.ns &&
    refString metadata "uid" = source.uid &&
    refString metadata "resourceVersion" = source.resourceVersion

/-- `impactReferenceReader.parse`. -/
def ImpactReferenceReader.parse (r : ImpactReferenceReader) (source : Resource) :
    Except ImpactError ImpactReferenceSource × ImpactReferenceReader :=
  if source.uid = "" || source.resourceVersion = "" then
    (.ok { reason := .missingSourceVersion }, r)
  else
    match impactPodSpecPath source.kind source.groupVersion with
    | none => (.ok { reason := .unsupportedSourceSchema }, r)
    | some path =>
      match source.raw with
      | none => (.ok { reason := .sourceFieldsUnavailable }, r)
      | some raw =>
        if !rawIdentityMatches source raw then
          (.ok { reason := .sourceIdentityOrVersionMismatch }, r)
        else
          match podSpecAt raw path with
          | none => (.ok { reason := .sourceFieldsUnavailable }, r)
          | some spec =>
            let (result, p) :=
              ImpactPodReferences.podSpec source.ns source.clusterID spec
                ("/" ++ String.intercalate "/" path)
                { reader := r, uses := fun _ => []
                  mounts := fun _ => [], malformed := false }
            match result with
            | .error e => (.error e, p.reader)
            | .ok () =>
              if p.malformed then
                (.ok { reason := .malformedReferenceFields }, p.reader)
              else (.ok { uses := p.uses }, p.reader)

/-- The kind a reference edge must lead to. -/
def referenceTargetKind (edgeType : EdgeType) : String :=
  if edgeType = .usesSecret then "Secret"
  else if edgeType = .mountsVolume then "PersistentVolumeClaim"
  else "ConfigMap"

/-- The parsed declarations of a consumer, from the cache when it
holds them. -/
def ImpactReferenceReader.parsed (r : ImpactReferenceReader) (source : Resource) :
    Except ImpactError ImpactReferenceSource × ImpactReferenceReader :=
  match r.sources source.ID with
  | some parsed => (.ok parsed, r)
  | none =>
    match r.parse source with
    | (.error e, r) => (.error e, r)
    | (.ok parsed, r) =>
      (.ok parsed, { r with sources := Function.update r.sources source.ID (some parsed) })

/-- The loop that charges and copies the uses. -/
def ImpactReferenceReader.chargeUses (r : ImpactReferenceReader) :
    List ImpactReferenceUse → Except ImpactError Unit × ImpactReferenceReader
  | [] => (.ok (), r)
  | use :: uses =>
    match r.charge 192 [use.fieldPath, use.mountFieldPath] with
    | (.error e, r) => (.error e, r)
    | (.ok (), r) => r.chargeUses uses

/-- `impactReferenceReader.explain`. -/
def ImpactReferenceReader.explain (r : ImpactReferenceReader) (source target : Resource)
    (step : ImpactStep) : Except ImpactError ImpactReferenceEvidence × ImpactReferenceReader :=
  let out : ImpactReferenceEvidence :=
    { fromID := step.fromID, toID := step.toID, type := step.type }
  match r.charge 256 [step.fromID, step.toID] with
  | (.error e, r) => (.error e, r)
  | (.ok (), r) =>
    if source.kind = "Secret" then (.ok { out with reason := .referenceOnlySource }, r)
    else
      match r.charge 0 [source.uid, source.resourceVersion] with
      | (.error e, r) => (.error e, r)
      | (.ok (), r) =>
        let out := { out with
          sourceUID := source.uid, sourceResourceVersion := source.resourceVersion }
        if target.kind ≠ referenceTargetKind step.type ||
            (target.groupVersion ≠ "" && target.groupVersion ≠ "v1") then
          (.ok { out with reason := .targetSchemaMismatch }, r)
        else
          match r.parsed source with
          | (.error e, r) => (.error e, r)
          | (.ok parsed, r) =>
            if parsed.reason ≠ .none then (.ok { out with reason := parsed.reason }, r)
            else
              match parsed.uses ⟨step.toID, step.type⟩ with
              | [] => (.ok { out with reason := .referenceNotFoundOrNotModeled }, r)
              | use :: uses =>
                match r.chargeUses (use :: uses) with
                | (.error e, r) => (.error e, r)
                | (.ok (), r) =>
                  (.ok { out with status := .versionBound, uses := use :: uses }, r)

end KubeAtlas.Analysis
