import KubeAtlas.Analysis.Authorization
import KubeAtlas.Analysis.References

/-!
# `KubeAtlas.Analysis.Impact`: the impact analysis

`AnalyzeImpact` of `pkg/graph/analysis/impact.go`. It loads the
resources of one cluster, indexes the distinct edges that start at
them, and runs a breadth-first search from the root with a bound on
the depth and a bound on the results. Every edge it leaves out is
counted as a notice at the resource where it starts; the notices of
the visited resources add up to the totals of the result.

Contexts are live throughout: cancellation is not part of the model.
-/

set_option autoImplicit false

namespace KubeAtlas.Analysis

open KubeAtlas.Graph Lib
open Operations (CoverageState)

/-! ### Loading the resources -/

/-- The checks on a selected resource: non-empty kind and name, and
no separator where the identifier would become ambiguous. -/
def validResource (r : Resource) : Bool :=
  !(r.kind = "" || r.name = "" || Strings.containsAny (r.ns ++ r.kind) ['/', ':'] ||
    Strings.containsAny r.name ['/'])

/-- The body of the loop over `projection.Resources`. -/
def loadResource (cluster : String) (resources : ResourceTable) (resource : Resource) :
    Except ImpactError ResourceTable :=
  if resource.clusterID ≠ cluster then .ok resources
  else
    let resource := sanitizeResource resource
    if !validResource resource then .error .invalidProjection
    -- Identifiers omit the API group, so a collision is rejected.
    else if (resources resource.ID).isSome then .error .invalidProjection
    else .ok (Function.update resources resource.ID (some resource))

/-- The loop over `projection.Resources`. -/
def loadResources (cluster : String) : List Resource → ResourceTable →
    Except ImpactError ResourceTable
  | [], resources => .ok resources
  | resource :: rest, resources =>
    match loadResource cluster resources resource with
    | .error e => .error e
    | .ok resources => loadResources cluster rest resources

/-! ### Indexing the edges -/

/-- `impactExcludedType`: the notice of an edge type that is not
walked, `none` for a modeled type. -/
def impactExcludedType (type : EdgeType) : Option ImpactNoticeReason :=
  if type = .owns || type = .usesConfigMap || type = .usesSecret || type = .mountsVolume ||
      type = .selects || type = .routesTo || type = .attachedTo ||
      type = .usesServiceAccount then none
  else if type = .bindsRole || type = .bindsSubject then some .authorizationSeparate
  else if type = .callsAtRuntime then some .runtimeExcluded
  else some .unmodeledRelationship

/-- `impactIDCluster`. -/
def impactIDCluster (id : String) : String :=
  match Strings.cut (Strings.cut id '/').1 ':' with
  | (cluster, _, true) => cluster
  | (_, _, false) => ""

/-- The loop of `impactOwnerUIDStatus`, with `knownMismatch` so far. -/
def ownerUIDStatusFrom (owner : Resource) : Bool → List OwnerRef → OwnerUIDStatus
  | knownMismatch, [] => if knownMismatch then .mismatch else .unknown
  | knownMismatch, ref :: refs =>
    if ref.kind ≠ owner.kind || ref.name ≠ owner.name then
      ownerUIDStatusFrom owner knownMismatch refs
    else if ref.uid = owner.uid then .matched
    else ownerUIDStatusFrom owner (knownMismatch || ref.uid ≠ "") refs

/-- `impactOwnerUIDStatus`. -/
def impactOwnerUIDStatus (child owner : Resource) : OwnerUIDStatus :=
  if owner.uid = "" then .unknown else ownerUIDStatusFrom owner false child.ownerReferences

/-- Where the walk of an edge starts, and where it leads. -/
def traversalEnds (relation : ImpactRelation) (edge : EdgeKey) : String × String :=
  if relation = .dependents then (edge.toID, edge.fromID) else (edge.fromID, edge.toID)

/-- The part of the loop body below `seenEdges[key] = true`: what a
new edge adds at the resource where its walk starts. -/
def edgeEntries (resources : ResourceTable) (opts : ImpactOptions) (edge : EdgeKey) :
    List IndexEntry :=
  let ends := traversalEnds opts.relation edge
  match impactExcludedType edge.type with
  | some reason => [.notice reason]
  | none =>
    if (resources ends.2).isNone then
      if impactIDCluster ends.2 ≠ opts.clusterID then [.notice .crossClusterExcluded]
      else [.notice .missingResource]
    else
      let step : ImpactStep :=
        { fromID := edge.fromID, toID := edge.toID, type := edge.type,
          traversalFrom := ends.1, traversalTo := ends.2 }
      if edge.type = .owns then
        match impactOwnerUIDStatus (resources.get edge.fromID) (resources.get edge.toID) with
        | .mismatch => [.notice .ownerUIDMismatch]
        | .unknown =>
          [.notice .ownerUIDUnknown, .arc { step with ownerUIDStatus := some .unknown }]
        | .matched => [.arc { step with ownerUIDStatus := some .matched }]
      else [.arc step]

/-- The variables of the loop over `projection.Edges`. -/
structure EdgeScan where
  index : ArcIndex := {}
  seenEdges : List EdgeKey := []

/-- The body of the loop over `projection.Edges`. -/
def scanEdge (resources : ResourceTable) (opts : ImpactOptions) (scan : EdgeScan)
    (edge : Edge) : EdgeScan :=
  let start := (traversalEnds opts.relation edge.key).1
  if (resources start).isNone then scan
  else if edge.key ∈ scan.seenEdges then scan
  else
    { seenEdges := scan.seenEdges.insert edge.key
      index := scan.index.addAll start (edgeEntries resources opts edge.key) }

/-- The loop over `projection.Edges`. -/
def scanEdges (resources : ResourceTable) (opts : ImpactOptions) (edges : List Edge) :
    EdgeScan :=
  edges.foldl (scanEdge resources opts) {}

/-! ### The traversal -/

/-- `ImpactMatch`. -/
structure ImpactMatch where
  resource : ImpactIdentity
  depth : Nat := 0
  path : List ImpactStep := []
  deriving DecidableEq, Repr

/-- `ImpactCounts`. -/
structure ImpactCounts where
  total : Nat := 0
  direct : Nat := 0
  indirect : Nat := 0
  workloads : Nat := 0
  pods : Nat := 0
  other : Nat := 0
  lowerBound : Bool := false
  deriving DecidableEq, Repr

/-- The increments of `result.Counts` for a new match. -/
def ImpactCounts.add (c : ImpactCounts) (found : ImpactMatch) : ImpactCounts :=
  let c := { c with total := c.total + 1 }
  let c := if found.depth = 1 then { c with direct := c.direct + 1 }
    else { c with indirect := c.indirect + 1 }
  let kind := found.resource.kind
  if kind = "Deployment" || kind = "StatefulSet" || kind = "DaemonSet" ||
      kind = "ReplicaSet" || kind = "Job" || kind = "CronJob" then
    { c with workloads := c.workloads + 1 }
  else if kind = "Pod" then { c with pods := c.pods + 1 }
  else { c with other := c.other + 1 }

/-- The variables of the traversal besides the queue. -/
structure ImpactWork where
  reader : ImpactReferenceReader := newImpactReferenceReader
  referenceEvidence : List ImpactReferenceEvidence := []
  counts : ImpactCounts := {}
  totals : NoticeTally := fun _ => 0

/-- The evidence of an accepted step. -/
def explainStep (resources : ResourceTable) (step : ImpactStep) (work : ImpactWork) :
    Except ImpactError ImpactWork :=
  if isImpactReference step.type then
    match work.reader.explain (resources.get step.fromID) (resources.get step.toID) step with
    | (.error e, _) => .error e
    | (.ok evidence, reader) =>
      .ok { work with
        reader := reader, referenceEvidence := work.referenceEvidence ++ [evidence] }
  else .ok work

/-- The traversal as a search: a match is a queue entry, an arc is a
popped step. -/
def impactSearch (resources : ResourceTable) (arcs : ByID (List ImpactStep))
    (notices : ByID NoticeTally) (opts : ImpactOptions) :
    Search.Problem String ImpactStep ImpactMatch ImpactWork ImpactError where
  arcs := arcs
  target step := step.traversalTo
  key m := m.resource.id
  depth m := m.depth
  extend current step :=
    { resource := impactIdentity (resources.get step.traversalTo)
      depth := current.depth + 1
      path := current.path ++ [step] }
  enter current work :=
    { work with totals := addTotals work.totals (notices current.resource.id) }
  visit _ step next work :=
    match explainStep resources step work with
    | .error e => .error e
    | .ok work => .ok { work with counts := work.counts.add next }
  maxDepth := opts.maxDepth.toNat
  limit := opts.limit.toNat

/-! ### The result -/

/-- `ImpactResult`, without the two fields that only the evidence
wrapper sets. -/
structure ImpactResult where
  root : ImpactIdentity
  relation : ImpactRelation
  maxDepth : Int
  limit : Int
  resources : List ImpactMatch
  counts : ImpactCounts
  truncated : Bool
  truncationReasons : List TruncationReason
  notices : List ImpactNotice
  modeledTraversalComplete : Bool
  observationCoverage : CoverageState
  referenceEvidence : List ImpactReferenceEvidence
  authorization : ImpactAuthorizationResult
  deriving DecidableEq, Repr

/-- `impactNoticeOrder`. -/
def impactNoticeOrder : List ImpactNoticeReason :=
  [.authorizationSeparate, .unmodeledRelationship, .runtimeExcluded, .crossClusterExcluded,
    .missingResource, .ownerUIDMismatch, .ownerUIDUnknown]

/-- The result of a finished traversal. -/
def impactResult (opts : ImpactOptions) (root : Resource)
    (s : Search.State String ImpactMatch ImpactWork)
    (authorization : ImpactAuthorizationResult) : ImpactResult :=
  let truncated := s.depthLimited || s.resultLimited
  let lowerBound := truncated || s.extra.totals .missingResource > 0 ||
    s.extra.totals .ownerUIDMismatch > 0
  { root := impactIdentity root, relation := opts.relation, maxDepth := opts.maxDepth
    limit := opts.limit
    resources := s.found
    counts := { s.extra.counts with lowerBound := lowerBound }
    truncated := truncated
    truncationReasons := truncationReasons s.depthLimited s.resultLimited
    notices := listNotices impactNoticeOrder s.extra.totals
    modeledTraversalComplete := !lowerBound
    observationCoverage := .unknown
    referenceEvidence := s.extra.referenceEvidence
    authorization := authorization }

/-- The checks on the root. -/
def checkRoot (resources : ResourceTable) (rootID : String) (opts : ImpactOptions) :
    Except ImpactError Resource :=
  match resources rootID with
  | none => .error .rootNotFound
  | some root =>
    if opts.expectedUID ≠ "" then
      if root.uid = "" then .error .uidUnknown
      else if root.uid ≠ opts.expectedUID then .error .uidMismatch
      else .ok root
    else .ok root

/-- The part of `AnalyzeImpact` after the root is found: index,
traversal, result. -/
def analyzeFrom (range : RangeOrder EdgeKey) (edges : List Edge) (resources : ResourceTable)
    (root : Resource) (opts : ImpactOptions) : Except ImpactError ImpactResult :=
  let ix := (scanEdges resources opts edges).index
  let problem := impactSearch resources ix.arcs ix.notices opts
  match Search.search problem { resource := impactIdentity root } {} with
  | .error e => .error e
  | .ok s =>
    match analyzeImpactAuthorization range edges resources root opts with
    | .error e => .error e
    | .ok authorization => .ok (impactResult opts root s authorization)

/-- `AnalyzeImpact`. -/
def analyzeImpact (range : RangeOrder EdgeKey) (projection : Option Graph) (rootID : String)
    (opts : ImpactOptions) : Except ImpactError ImpactResult :=
  match normalizeImpactOptions rootID opts with
  | .error e => .error e
  | .ok opts =>
    match projection with
    | none => .error .invalidProjection
    | some projection =>
      match loadResources opts.clusterID projection.resources (fun _ => none) with
      | .error e => .error e
      | .ok resources =>
        match checkRoot resources rootID opts with
        | .error e => .error e
        | .ok root => analyzeFrom range projection.edges resources root opts

end KubeAtlas.Analysis
