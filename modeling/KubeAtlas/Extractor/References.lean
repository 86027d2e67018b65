import KubeAtlas.Extractor.Fields
import KubeAtlas.Extractor.Identity

/-!
# `KubeAtlas.Extractor.References`: edges an object names itself

The extractors of `pkg/extractor` that look at one object only:
`owns.go`, `configmap.go`, `secret.go`, `volume.go`,
`serviceaccount.go`, `routes.go`, `attached.go`, `rbac.go`,
`scales.go` and the three identity extractors. Most of them collect
the names in the object first and then emit one edge for each new
target. A target is an identifier that need not exist.
-/

set_option autoImplicit false

namespace KubeAtlas.Extractor

open KubeAtlas.Graph Lib

/-- The identifier of an object that `r` refers to: it lies in the
cluster of `r`. -/
def target (r : Resource) (kind ns name : String) : String :=
  ({ kind := kind, name := name, ns := ns, clusterID := r.clusterID } : Resource).ID

/-- One edge for each target that is not in `seen` yet. -/
def emitUnseen (fromID : String) (type : EdgeType) : List String → List String → List Edge
  | _, [] => []
  | seen, toID :: rest =>
    if seen.contains toID then emitUnseen fromID type seen rest
    else { fromID := fromID, toID := toID, type := type } ::
      emitUnseen fromID type (toID :: seen) rest

/-- A target that is named by kind, namespace and name. -/
structure Named where
  kind : String
  ns : String
  name : String

/-- The shared end of the extractors that keep a `seen` set: a
reference without a name is skipped, and each of the others gives
one edge. -/
def emitNamed (r : Resource) (type : EdgeType) (refs : List Named) : List Edge :=
  emitUnseen r.ID type []
    ((refs.filter fun ref => ref.name ≠ "").map fun ref => target r ref.kind ref.ns ref.name)

/-- A text, or a default for the empty one. -/
def orElse (s fallback : String) : String := if s = "" then fallback else s

/-! ### Workloads -/

/-- `OwnsExtractor.Extract`. -/
def ownsEdges (r : Resource) : List Edge :=
  r.ownerReferences.map fun o =>
    { fromID := r.ID, toID := target r o.kind r.ns o.name, type := .owns }

/-- The names `ConfigMapExtractor` finds, in its order. -/
def configMapNames (r : Resource) : List String :=
  ((podTemplateContainers r).flatMap fun c =>
    stringsAt (nestedSlice (asMap c) ["envFrom"]) ["configMapRef", "name"] ++
      stringsAt (nestedSlice (asMap c) ["env"]) ["valueFrom", "configMapKeyRef", "name"]) ++
    stringsAt (podTemplateVolumes r) ["configMap", "name"]

/-- `ConfigMapExtractor.Extract`. -/
def configMapEdges (r : Resource) : List Edge :=
  if r.kind ≠ "Pod" && !hasPodTemplate r.kind then []
  else emitNamed r .usesConfigMap ((configMapNames r).map (⟨"ConfigMap", r.ns, ·⟩))

/-- The Secrets a pod spec names: environment, volumes and pull
secrets. -/
def podSecretNames (r : Resource) : List String :=
  let spec := (podSpec r).getD []
  (["containers", "initContainers", "ephemeralContainers"].flatMap fun field =>
    (nestedSlice spec [field]).flatMap fun c =>
      stringsAt (nestedSlice (asMap c) ["envFrom"]) ["secretRef", "name"] ++
        stringsAt (nestedSlice (asMap c) ["env"]) ["valueFrom", "secretKeyRef", "name"]) ++
    ((podTemplateVolumes r).flatMap fun v =>
      nestedString (asMap v) ["secret", "secretName"] ::
        stringsAt (nestedSlice (asMap v) ["projected", "sources"]) ["secret", "name"]) ++
    stringsAt (nestedSlice spec ["imagePullSecrets"]) ["name"]

/-- The certificates a Gateway names. A reference may leave kind,
group and namespace to their defaults. -/
def certificateRefs (r : Resource) : List Named :=
  (nestedSlice (rawOf r) ["spec", "listeners"]).flatMap fun listener =>
    (nestedSlice (asMap listener) ["tls", "certificateRefs"]).filterMap fun ref =>
      let kind := nestedString (asMap ref) ["kind"]
      let group := nestedString (asMap ref) ["group"]
      if (kind = "" || kind = "Secret") && (group = "" || group = "core") then
        some ⟨"Secret", orElse (nestedString (asMap ref) ["namespace"]) r.ns,
          nestedString (asMap ref) ["name"]⟩
      else none

/-- What `SecretExtractor` finds, in its order. The four parts share
one `seen` set. -/
def secretRefs (r : Resource) : List Named :=
  let own (names : List String) : List Named := names.map (⟨"Secret", r.ns, ·⟩)
  (if r.kind = "Pod" || hasPodTemplate r.kind then own (podSecretNames r) else []) ++
    (if r.kind = "ServiceAccount" then
      own (["secrets", "imagePullSecrets"].flatMap fun field =>
        stringsAt (nestedSlice (rawOf r) [field]) ["name"])
    else []) ++
    (if r.kind = "Ingress" then
      own (stringsAt (nestedSlice (rawOf r) ["spec", "tls"]) ["secretName"])
    else []) ++
    (if r.kind = "Gateway" then certificateRefs r else [])

/-- `SecretExtractor.Extract`. -/
def secretEdges (r : Resource) : List Edge := emitNamed r .usesSecret (secretRefs r)

/-- `VolumeExtractor.Extract`. -/
def volumeEdges (r : Resource) : List Edge :=
  if r.kind ≠ "Pod" && !hasPodTemplate r.kind then []
  else
    emitNamed r .mountsVolume
      ((stringsAt (podTemplateVolumes r) ["persistentVolumeClaim", "claimName"]).map
        (⟨"PersistentVolumeClaim", r.ns, ·⟩))

/-- `ServiceAccountExtractor.Extract`: the field, its older name, or
the default account. -/
def serviceAccountEdges (r : Resource) : List Edge :=
  if r.kind ≠ "Pod" && !hasPodTemplate r.kind then []
  else
    match podSpec r with
    | none => []
    | some spec =>
      let name := orElse (nestedString spec ["serviceAccountName"])
        (orElse (nestedString spec ["serviceAccount"]) "default")
      [{ fromID := r.ID, toID := target r "ServiceAccount" r.ns name
         type := .usesServiceAccount }]

/-- `ScalesExtractor.Extract`. -/
def scalesEdges (r : Resource) : List Edge :=
  if r.kind ≠ "HorizontalPodAutoscaler" then []
  else
    let name := nestedString (rawOf r) ["spec", "scaleTargetRef", "name"]
    let kind := nestedString (rawOf r) ["spec", "scaleTargetRef", "kind"]
    if name = "" || kind = "" then []
    else [{ fromID := r.ID, toID := target r kind r.ns name, type := .scales }]

/-! ### Routes -/

/-- `ingressEdges`. -/
def ingressEdges (r : Resource) : List Edge :=
  emitNamed r .routesTo <|
    (nestedSlice (rawOf r) ["spec", "rules"]).flatMap fun rule =>
      (stringsAt (nestedSlice (asMap rule) ["http", "paths"]) ["backend", "service", "name"]).map
        (⟨"Service", r.ns, ·⟩)

/-- `openshiftRouteEdges`. -/
def openshiftRouteEdges (r : Resource) : List Edge :=
  let ref (m : Object) : Named :=
    ⟨orElse (nestedString m ["kind"]) "Service", r.ns, nestedString m ["name"]⟩
  emitNamed r .routesTo <|
    ref ((nestedMap (rawOf r) ["spec", "to"]).getD []) ::
      (nestedSlice (rawOf r) ["spec", "alternateBackends"]).map fun b => ref (asMap b)

/-- A reference of the Gateway API, with the kind and the namespace
it defaults to. -/
def gatewayRef (kind : String) (r : Resource) (item : Json) : Named :=
  ⟨orElse (nestedString (asMap item) ["kind"]) kind,
    orElse (nestedString (asMap item) ["namespace"]) r.ns, nestedString (asMap item) ["name"]⟩

/-- `httpRouteBackendEdges`. -/
def httpRouteBackendEdges (r : Resource) : List Edge :=
  emitNamed r .routesTo <|
    (nestedSlice (rawOf r) ["spec", "rules"]).flatMap fun rule =>
      (nestedSlice (asMap rule) ["backendRefs"]).map (gatewayRef "Service" r)

/-- `RoutesExtractor.Extract`. -/
def routesEdges (r : Resource) : List Edge :=
  if r.kind = "Ingress" then ingressEdges r
  else if r.kind = "HTTPRoute" then httpRouteBackendEdges r
  else if r.kind = "Route" then openshiftRouteEdges r
  else []

/-- `AttachedExtractor.Extract`. Parents of another kind are left
out. -/
def attachedEdges (r : Resource) : List Edge :=
  if r.kind ≠ "HTTPRoute" then []
  else
    emitNamed r .attachedTo <|
      ((nestedSlice (rawOf r) ["spec", "parentRefs"]).map (gatewayRef "Gateway" r)).filter
        fun ref => ref.kind = "Gateway"

/-! ### Role bindings -/

/-- `r.Kind` of the two RBAC extractors. -/
def isBinding (r : Resource) : Bool := r.kind = "RoleBinding" || r.kind = "ClusterRoleBinding"

/-- `BindsSubjectExtractor.Extract`. Subjects are not deduplicated. -/
def bindsSubjectEdges (r : Resource) : List Edge :=
  if !isBinding r then []
  else
    (nestedSlice (rawOf r) ["subjects"]).filterMap fun s =>
      match s with
      | .obj sm =>
        let kind := (member sm "kind").text
        let name := (member sm "name").text
        if kind = "" || name = "" then none
        else
          let ns := (member sm "namespace").text
          let ns :=
            if kind = "ServiceAccount" && ns = "" && r.kind = "RoleBinding" then r.ns else ns
          some { fromID := r.ID, toID := target r kind ns name, type := .bindsSubject }
      | _ => none

/-- `BindsRoleExtractor.Extract`. A ClusterRole has no namespace. -/
def bindsRoleEdges (r : Resource) : List Edge :=
  if !isBinding r then []
  else
    match nestedMap (rawOf r) ["roleRef"] with
    | none => []
    | some ref =>
      let kind := (member ref "kind").text
      let name := (member ref "name").text
      if kind = "" || name = "" then []
      else
        let targetNS := if kind = "Role" then r.ns else ""
        [{ fromID := r.ID, toID := target r kind targetNS name, type := .bindsRole }]

end KubeAtlas.Extractor
