import KubeAtlas.Analysis.Impact
import KubeAtlas.Operations.Coverage

/-!
# `KubeAtlas.Analysis.Observation`: coverage evidence in an impact analysis

`pkg/graph/analysis/impact_observation.go`, `impact_sources.go` and
`impact_inventory.go`. An observed analysis reads the coverage of a
cluster before and after it reads the graph. Each read is validated,
and the two are compared: only a window in which nothing changed
supports a conclusion from an empty result.

Validation copies the slices it passes on and sorts them. Copies are
not visible in values, so only the sorting is modelled. The provider
is a parameter, and so are the two readings of the clock around its
call. Cancellation is left out.
-/

set_option autoImplicit false

namespace KubeAtlas.Analysis

open Lib Operations

/-- `ErrImpactObservation`. -/
inductive ObservationError where
  | invalid
  deriving DecidableEq, Repr

def ObservationError.message : ObservationError → String
  | .invalid => "impact: invalid observation evidence"

/-! ### Required types -/

/-- `impactObservedType`. -/
structure ImpactObservedType where
  kind : String
  gvr : GroupVersionResource
  authorization : Bool
  deriving DecidableEq, Repr

/-- `impactObservedTypes`. -/
def impactObservedTypes : List ImpactObservedType :=
  [⟨"Namespace", ⟨"", "v1", "namespaces"⟩, false⟩,
    ⟨"Pod", ⟨"", "v1", "pods"⟩, true⟩,
    ⟨"Service", ⟨"", "v1", "services"⟩, false⟩,
    ⟨"ConfigMap", ⟨"", "v1", "configmaps"⟩, false⟩,
    ⟨"PersistentVolumeClaim", ⟨"", "v1", "persistentvolumeclaims"⟩, false⟩,
    ⟨"ServiceAccount", ⟨"", "v1", "serviceaccounts"⟩, true⟩,
    ⟨"Deployment", ⟨"apps", "v1", "deployments"⟩, true⟩,
    ⟨"ReplicaSet", ⟨"apps", "v1", "replicasets"⟩, true⟩,
    ⟨"StatefulSet", ⟨"apps", "v1", "statefulsets"⟩, true⟩,
    ⟨"DaemonSet", ⟨"apps", "v1", "daemonsets"⟩, true⟩,
    ⟨"Job", ⟨"batch", "v1", "jobs"⟩, true⟩,
    ⟨"CronJob", ⟨"batch", "v1", "cronjobs"⟩, true⟩,
    ⟨"HorizontalPodAutoscaler", ⟨"autoscaling", "v2", "horizontalpodautoscalers"⟩, false⟩,
    ⟨"Ingress", ⟨"networking.k8s.io", "v1", "ingresses"⟩, false⟩,
    ⟨"NetworkPolicy", ⟨"networking.k8s.io", "v1", "networkpolicies"⟩, false⟩,
    ⟨"Gateway", ⟨"gateway.networking.k8s.io", "v1", "gateways"⟩, false⟩,
    ⟨"HTTPRoute", ⟨"gateway.networking.k8s.io", "v1", "httproutes"⟩, false⟩,
    ⟨"Role", ⟨"rbac.authorization.k8s.io", "v1", "roles"⟩, true⟩,
    ⟨"RoleBinding", ⟨"rbac.authorization.k8s.io", "v1", "rolebindings"⟩, true⟩,
    ⟨"ClusterRole", ⟨"rbac.authorization.k8s.io", "v1", "clusterroles"⟩, true⟩,
    ⟨"ClusterRoleBinding", ⟨"rbac.authorization.k8s.io", "v1", "clusterrolebindings"⟩, true⟩,
    ⟨"ClusterPolicy", ⟨"kyverno.io", "v1", "clusterpolicies"⟩, false⟩,
    ⟨"Policy", ⟨"kyverno.io", "v1", "policies"⟩, false⟩,
    ⟨"PolicyReport", ⟨"wgpolicyk8s.io", "v1alpha2", "policyreports"⟩, false⟩,
    ⟨"ClusterPolicyReport", ⟨"wgpolicyk8s.io", "v1alpha2", "clusterpolicyreports"⟩, false⟩,
    ⟨"Route", ⟨"route.openshift.io", "v1", "routes"⟩, false⟩]

/-- `impactCoverageRequirements`. -/
def impactCoverageRequirements (authorization : Bool) : List GroupVersionResource :=
  (impactObservedTypes.filter fun r => !authorization || r.authorization).map fun r => r.gvr

/-! ### Validation -/

/-- The states that evidence may have. -/
def knownCoverageState : CoverageState → Bool
  | .other _ => false
  | _ => true

/-- The reasons that evidence may give. -/
def knownCoverageReasons : List CoverageReason :=
  [.notWatched, .initialPending, .listFailed, .listDenied, .watchPending, .watchClosed,
    .watchFailed, .watchDenied, .collectorStopped, .processingFailed, .extractionFailed,
    .persistenceFailed]

/-- What an observed row must not have. -/
def contradictsObserved (row : ResourceCoverage) : Bool :=
  !row.initialDeliveryDone || !row.watchEstablished || !row.reasons.isEmpty ||
    row.since.IsZero || row.continuityRevision = 0 || !decide row.watchGapSince.IsZero ||
    !decide row.processingGapSince.IsZero || !decide row.extractionGapSince.IsZero ||
    !decide row.persistenceGapSince.IsZero

/-- The times of a row. -/
def rowTimes (row : ResourceCoverage) : List Time :=
  [row.since, row.lastListSuccess, row.watchGapSince, row.processingGapSince,
    row.extractionGapSince, row.persistenceGapSince]

/-- `validImpactCoverageRow`. -/
def validImpactCoverageRow (row : ResourceCoverage) (captured : Time) : Bool :=
  knownCoverageState row.state &&
    row.reasons.length ≤ knownCoverageReasons.length &&
    -- each reason is known, and no earlier one is the same
    row.reasons.all (fun reason => knownCoverageReasons.contains reason) &&
    decide row.reasons.Nodup &&
    (rowTimes row).all (fun stamp => stamp ≤ captured) &&
    !(row.state = .observed && contradictsObserved row)

/-- The checks of `validateImpactSources` on discovery evidence. -/
def validImpactDiscovery (source : CoverageSourceSnapshot) (captured : Time)
    (d : SourceDiscoveryEvidence) : Bool :=
  source.source = .gatekeeper && validSourceDiscoveryState d.state && d.revision ≠ 0 &&
    decide ((d.state = .unknown) = d.checkedAt.IsZero) && d.checkedAt ≤ captured &&
    d.stale = checkStale d.checkedAt captured sourceDiscoveryMaxAge &&
    !(source.state = .observed && (d.state ≠ .advertised || d.stale))

/-- The checks of `validateImpactSources` on one row of a source. -/
def validImpactSourceRow (source : CoverageSourceSnapshot) (captured : Time)
    (row : ResourceCoverage) : Bool :=
  row.group ≠ "" && row.version ≠ "" && row.resource ≠ "" && Strings.len row.sortKey ≤ 770 &&
    !Strings.containsAny (row.group ++ row.version ++ row.resource) ['/', ':', '\x00'] &&
    validImpactCoverageRow row captured &&
    !(source.state = .observed && row.state ≠ .observed)

/-- The checks of `validateImpactSources` on one source. -/
def validImpactSource (clusterID : String) (captured : Time) (source : CoverageSourceSnapshot) :
    Bool :=
  (source.source = .crd || source.source = .gatekeeper) && source.clusterID = clusterID &&
    source.generation ≠ 0 && source.resources.length ≤ maxCoverageTypes &&
    source.discovery.all (validImpactDiscovery source captured) &&
    knownCoverageState source.state &&
    !(source.state = .observed && (source.inventoryLimited || source.resources.isEmpty)) &&
    source.resources.all (validImpactSourceRow source captured) &&
    decide (source.resources.map ResourceCoverage.sortKey).Nodup

/-- `validateImpactSources`. -/
def validateImpactSources (snapshot : CoverageSnapshot) :
    Except ObservationError CoverageSnapshot :=
  if snapshot.sources.length ≤ 2 &&
      snapshot.sources.all (validImpactSource snapshot.clusterID snapshot.capturedAt) &&
      decide (snapshot.sources.map fun s => s.source).Nodup then
    .ok { snapshot with
      sources := (snapshot.sources.map fun s =>
        { s with resources := sortRows s.resources }).insertionSort
          fun a b => a.source.text ≤ b.source.text }
  else .error .invalid

/-- The checks of `validateImpactInventory`. -/
def validImpactInventory (ext : Externals) (clusterID : String) (captured : Time)
    (e : APIInventoryEvidence) : Bool :=
  e.clusterID = clusterID && e.generation ≠ 0 && validAPIInventoryState e.state &&
    e.checkedAt ≤ captured && e.stale = checkStale e.checkedAt captured apiInventoryMaxAge &&
    e.resources.length ≤ maxInventoryResources && !(e.state = .complete && e.limited) &&
    (if e.state = .unknown then
      e.revision = 0 && e.checkedAt.IsZero && e.resources.isEmpty && !e.limited
    else e.revision ≠ 0 && !decide e.checkedAt.IsZero) &&
    !((e.state = .denied || e.state = .failed) && !e.resources.isEmpty) &&
    e.resources.all (validAPIResourceDescriptor ext) &&
    decide (e.resources.map APIResourceDescriptor.gvr).Nodup &&
    (e.resources.map APIResourceDescriptor.groupVersion).dedup.length ≤ maxInventoryGroupVersions

/-- `validateImpactInventory`. -/
def validateImpactInventory (ext : Externals) (snapshot : CoverageSnapshot) :
    Except ObservationError CoverageSnapshot :=
  match snapshot.apiInventory with
  | none => .ok snapshot
  | some e =>
    if validImpactInventory ext snapshot.clusterID snapshot.capturedAt e then
      .ok { snapshot with
        apiInventory := some { e with resources := sortDescriptors ext e.resources } }
    else .error .invalid

/-- The answer of `ImpactCoverageProvider.SnapshotCoverage`. Its
error text is not used. -/
abbrev CoverageProvider :=
  String → List GroupVersionResource → Except CoverageError CoverageSnapshot

/-- `readImpactCoverage`, called at the time `start` and checking
the answer at `finish`. -/
def readImpactCoverage (ext : Externals) (provider : Option CoverageProvider) (cluster : String)
    (start finish : Time) : Except ObservationError CoverageSnapshot :=
  let required := impactCoverageRequirements false
  match provider with
  | none => .ok { clusterID := cluster, capturedAt := start, state := .unknown }
  | some provide =>
    match provide cluster required with
    | .error _ => .error .invalid
    | .ok snapshot =>
      if snapshot.clusterID = cluster && start ≤ snapshot.capturedAt &&
          snapshot.capturedAt ≤ finish && snapshot.resources.length = required.length &&
          snapshot.resources.all (fun row => required.contains row.gvr &&
            validImpactCoverageRow row snapshot.capturedAt) &&
          decide (snapshot.resources.map ResourceCoverage.gvr).Nodup then do
        validateImpactInventory ext (← validateImpactSources snapshot)
      else .error .invalid

/-! ### Facets -/

/-- `ImpactAPIPresence`. -/
inductive ImpactAPIPresence where
  | unknown
  | advertised
  | notAdvertised
  | otherVersion
  | unsupported
  deriving DecidableEq, Repr

/-- `ImpactOptionalAPI`. -/
structure ImpactOptionalAPI where
  group : String
  version : String
  resource : String
  before : ImpactAPIPresence
  after : ImpactAPIPresence
  deriving DecidableEq, Repr

/-- `ImpactCoverageFacet`. -/
structure ImpactCoverageFacet where
  profile : String
  state : CoverageState
  typeScopeClosed : Bool := false
  stableWindow : Bool := false
  reasons : List String := []
  before : CoverageSnapshot
  after : CoverageSnapshot
  emptyResultAssessment : String := ""
  optionalAPIs : List ImpactOptionalAPI := []
  unobservedAPIs : List APIResourceDescriptor := []
  deriving DecidableEq, Repr

/-- The facet with one more reason. -/
def ImpactCoverageFacet.addReason (out : ImpactCoverageFacet) (reason : String) :
    ImpactCoverageFacet :=
  { out with reasons := out.reasons ++ [reason] }

/-- `slices.Index` in the order of `worseImpactCoverage`. -/
def coverageOrder : CoverageState → Int
  | .observed => 0
  | .unknown => 1
  | .initializing => 2
  | .partially => 3
  | .stale => 4
  | .other _ => -1

/-- `worseImpactCoverage`. -/
def worseImpactCoverage (a b : CoverageState) : CoverageState :=
  if coverageOrder b > coverageOrder a then b else a

/-- The row of a required type in a snapshot. -/
def requiredCoverage (snapshot : CoverageSnapshot) (gvr : GroupVersionResource) :
    ResourceCoverage :=
  (snapshot.resources.find? fun candidate => candidate.gvr = gvr).getD
    { group := gvr.group, version := gvr.version, resource := gvr.resource
      state := .unknown, reasons := [.notWatched] }

/-- `subsetImpactCoverage`. -/
def subsetImpactCoverage (snapshot : CoverageSnapshot) (required : List GroupVersionResource) :
    CoverageSnapshot :=
  let rows := required.map (requiredCoverage snapshot)
  let state := rows.foldl (fun state row => worseImpactCoverage state row.state) .observed
  let unknown := (rows.filter fun row => row.state = .unknown).length
  { clusterID := snapshot.clusterID, generation := snapshot.generation
    capturedAt := snapshot.capturedAt
    state := if state = .unknown && unknown < required.length then .partially else state
    resources := rows }

/-- One turn of the loop in `attachImpactSourceCoverage`. -/
def attachImpactSource (before after : List CoverageSourceSnapshot) (out : ImpactCoverageFacet)
    (name : CoverageSource) : ImpactCoverageFacet :=
  let label := name.text ++ "_source_"
  match before.find? (fun s => s.source = name), after.find? (fun s => s.source = name) with
  | some pre, some post =>
    let out := if pre = post then out
      else { out with stableWindow := false }.addReason (label ++ "window_unstable")
    let out := { out with
      state := worseImpactCoverage out.state (worseImpactCoverage pre.state post.state) }
    let out :=
      if pre.inventoryLimited || post.inventoryLimited then
        { out.addReason (label ++ "inventory_limited") with
          state := worseImpactCoverage out.state .partially }
      else out
    let out :=
      if name = .gatekeeper then
        match pre.discovery, post.discovery with
        | some _, some d =>
          if d.stale then out.addReason (label ++ "discovery_stale")
          else if d.state ≠ .advertised then
            out.addReason (label ++ "api_" ++ d.state.text)
          else out
        | _, _ => out.addReason (label ++ "discovery_unverified")
      else out
    if pre.state ≠ .observed || post.state ≠ .observed then
      out.addReason (label ++ "coverage_incomplete")
    else out
  | _, _ => { out.addReason (label ++ "coverage_unavailable") with stableWindow := false }

/-- `attachImpactSourceCoverage`. -/
def attachImpactSourceCoverage (out : ImpactCoverageFacet)
    (before after : List CoverageSourceSnapshot) : ImpactCoverageFacet :=
  let out := { out with before := { out.before with sources := before }
                        after := { out.after with sources := after } }
  let out := [CoverageSource.crd, CoverageSource.gatekeeper].foldl
    (attachImpactSource before after) out
  if !out.stableWindow && out.state = .observed then { out with state := .partially } else out

/-- `optionalImpactAPI`. -/
def optionalImpactAPI (gvr : GroupVersionResource) : Bool :=
  ["gateway.networking.k8s.io", "kyverno.io", "wgpolicyk8s.io",
    "route.openshift.io"].contains gvr.group

/-- `qualifiedImpactInventory`. -/
def qualifiedImpactInventory (e : Option APIInventoryEvidence) : Bool :=
  e.any fun e => e.state = .complete && !e.stale && !e.stopped && !e.limited

/-- The loop of `impactAPIPresence`. -/
def apiPresence (required : ImpactObservedType) : Bool → List APIResourceDescriptor →
    ImpactAPIPresence
  | other, [] => if other then .otherVersion else .notAdvertised
  | other, r :: rs =>
    if r.group ≠ required.gvr.group || r.resource ≠ required.gvr.resource then
      apiPresence required other rs
    else if r.version ≠ required.gvr.version then apiPresence required true rs
    else
      let wantNamespaced := required.kind ≠ "ClusterPolicy" && required.kind ≠ "ClusterPolicyReport"
      if r.kind ≠ required.kind || !r.list || !r.watch || r.namespaced ≠ wantNamespaced then
        .unsupported
      else .advertised

/-- `impactAPIPresence`. -/
def impactAPIPresence (e : Option APIInventoryEvidence) (required : ImpactObservedType) :
    ImpactAPIPresence :=
  match e with
  | none => .unknown
  | some evidence =>
    if qualifiedImpactInventory e then apiPresence required false evidence.resources else .unknown

/-- A collector of the snapshot is registered for the descriptor. -/
def registeredFor (after : CoverageSnapshot) (r : APIResourceDescriptor) : Bool :=
  (after.resources.any fun row => row.gvr = r.gvr && row.continuityRevision ≠ 0 &&
    !row.reasons.contains .collectorStopped) ||
  after.sources.any fun source => source.resources.any fun row =>
    row.gvr = r.gvr && !row.reasons.contains .collectorStopped

/-- The reasons that two inventories give. -/
def inventoryReasons (pre post : APIInventoryEvidence) : List String :=
  (if pre = post then [] else ["api_inventory_window_unstable"]) ++
  (if pre.stale || post.stale then ["api_inventory_stale"] else []) ++
  (if pre.stopped || post.stopped then ["api_inventory_stopped"] else []) ++
  (if pre.limited || post.limited then ["api_inventory_limited"] else []) ++
  (if pre.state ≠ .complete || post.state ≠ .complete then ["api_inventory_incomplete"] else [])

/-- `attachImpactInventory`. -/
def attachImpactInventory (out : ImpactCoverageFacet) (before after : CoverageSnapshot) :
    ImpactCoverageFacet :=
  let pre := before.apiInventory
  let post := after.apiInventory
  let out := { out with before := { out.before with apiInventory := pre }
                        after := { out.after with apiInventory := post } }
  let out :=
    match pre, post with
    | some e, some e' =>
      { out with reasons := out.reasons ++ inventoryReasons e e'
                 stableWindow := out.stableWindow && e = e' }
    | _, _ => out.addReason "api_inventory_unavailable"
  let optional := (impactObservedTypes.filter fun r => optionalImpactAPI r.gvr).map fun r =>
    { group := r.gvr.group, version := r.gvr.version, resource := r.gvr.resource
      before := impactAPIPresence pre r, after := impactAPIPresence post r : ImpactOptionalAPI }
  let out := { out with optionalAPIs := optional }
  match post with
  | none => out
  | some evidence =>
    if qualifiedImpactInventory post then
      let missing := evidence.resources.filter fun r =>
        r.list && r.watch && !(r.group = "" && r.resource = "secrets") && !registeredFor after r
      let out := { out with unobservedAPIs := missing }
      if missing.isEmpty then out else out.addReason "advertised_resource_types_unobserved"
    else out

/-- The facet of `evaluateImpactCoverage` before the ordinary
profile adds its sources. -/
def evaluateRequired (before after : CoverageSnapshot) (authorization available : Bool) :
    ImpactCoverageFacet :=
  let required := impactCoverageRequirements authorization
  let out : ImpactCoverageFacet :=
    { profile := if authorization then "builtin_authorization_v1" else "ordinary_minimum_v1"
      state := .unknown
      before := subsetImpactCoverage before required
      after := subsetImpactCoverage after required }
  if !available then out.addReason "coverage_provider_unavailable"
  else
    let verified := before.generation ≠ 0 && before.generation = after.generation
    let out := if verified then out else out.addReason "collector_generation_unverified_or_changed"
    let stable := verified && (out.before.resources.zip out.after.resources).all fun rows =>
      rows.1.continuityRevision ≠ 0 && rows.1 = rows.2
    let out := { out with stableWindow := stable }
    let out := if stable then out else out.addReason "observation_window_unstable"
    let out := { out with state := worseImpactCoverage out.before.state out.after.state }
    let out :=
      if out.before.state ≠ .observed || out.after.state ≠ .observed then
        out.addReason "required_type_coverage_incomplete"
      else out
    if !stable && out.state = .observed then { out with state := .partially } else out

/-- `evaluateImpactCoverage`. -/
def evaluateImpactCoverage (before after : CoverageSnapshot) (authorization available : Bool) :
    ImpactCoverageFacet :=
  let out := evaluateRequired before after authorization available
  -- an unavailable provider returns early
  if authorization || !available then out
  else attachImpactInventory (attachImpactSourceCoverage out before.sources after.sources)
    before after

/-! ### The observation of a result -/

/-- `ImpactObservation`. -/
structure ImpactObservation where
  ordinary : ImpactCoverageFacet
  authorization : ImpactCoverageFacet
  deriving DecidableEq, Repr

/-- `impactEmptyAssessment`. -/
def impactEmptyAssessment (count : Nat) (traversalComplete : Bool)
    (coverage : ImpactCoverageFacet) : String :=
  if count ≠ 0 then "not_empty"
  else if traversalComplete && coverage.typeScopeClosed && coverage.stableWindow &&
      coverage.state = .observed then "none_found_in_analyzed_scope"
  else "none_observed_incomplete"

/-- `GroupVersion().String()`. -/
def groupVersionText (gvr : GroupVersionResource) : String :=
  if gvr.group = "" then gvr.version else gvr.group ++ "/" ++ gvr.version

/-- `knownImpactIdentitySchema`. Only the first entry of a kind is
looked at. -/
def knownImpactIdentitySchema (identity : ImpactIdentity) (authorization : Bool) : Bool :=
  match impactObservedTypes.find? (fun r =>
    identity.kind = r.kind && (!authorization || r.authorization)) with
  | none => false
  | some r => identity.groupVersion = groupVersionText r.gvr

/-- The ordinary facet of `attachImpactObservation`. -/
def ordinaryObservation (result : ImpactResult) (before after : CoverageSnapshot)
    (available : Bool) : ImpactCoverageFacet :=
  let out := { evaluateImpactCoverage before after false available with typeScopeClosed := false }
  let out := out.addReason "dynamic_source_scope_unverified"
  let out :=
    if !knownImpactIdentitySchema result.root false && !result.root.referenceOnly then
      out.addReason "root_schema_unverified"
    else out
  let out := if out.state = .observed then { out with state := .partially } else out
  let assessment := impactEmptyAssessment result.counts.total result.modeledTraversalComplete out
  { out with emptyResultAssessment := assessment }

/-- The authorization facet of `attachImpactObservation`. -/
def authorizationObservation (result : ImpactResult) (before after : CoverageSnapshot)
    (available : Bool) : ImpactCoverageFacet :=
  let out := { evaluateImpactCoverage before after true available with
    typeScopeClosed := result.authorization.applicable }
  if !result.authorization.applicable then
    { out.addReason "authorization_not_applicable" with
      state := .unknown, emptyResultAssessment := "not_applicable" }
  else
    let known := knownImpactIdentitySchema result.root true &&
      result.authorization.resources.all fun found => knownImpactIdentitySchema found.resource true
    let out : ImpactCoverageFacet :=
      if known then out
      else
        let out : ImpactCoverageFacet :=
          { out.addReason "resource_schema_unverified" with typeScopeClosed := false }
        if out.state = .observed then { out with state := .partially } else out
    let assessment := impactEmptyAssessment result.authorization.counts.total
      result.authorization.modeledTraversalComplete out
    { out with emptyResultAssessment := assessment }

/-- `attachImpactObservation`. -/
def attachImpactObservation (result : ImpactResult) (before after : CoverageSnapshot)
    (available : Bool) : ImpactResult × ImpactObservation :=
  let ordinary := ordinaryObservation result before after available
  let authorization := authorizationObservation result before after available
  ({ result with
      observationCoverage := ordinary.state
      authorization := { result.authorization with observationCoverage := authorization.state } },
    ⟨ordinary, authorization⟩)

end KubeAtlas.Analysis
