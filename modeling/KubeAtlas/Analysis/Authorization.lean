import KubeAtlas.Analysis.ArcIndex
import KubeAtlas.Graph.Projection
import KubeAtlas.Lib.RangeOrder
import KubeAtlas.Lib.Search
import KubeAtlas.Operations.Evidence

/-!
# `KubeAtlas.Analysis.Authorization`: the authorization facet

`pkg/graph/analysis/impact_authorization.go`. From a role, a
binding, a service account or a workload, the facet follows stored
role, subject and account edges along a fixed motif and lists the
associated resources. It keeps the distinct relevant edges in a Go
map and then ranges over that map, so the order in which it fills
its heaps is open: `analyzeImpactAuthorization` takes it as a
`RangeOrder`.

Contexts are live throughout: cancellation is not part of the model.
-/

set_option autoImplicit false

namespace KubeAtlas.Analysis

open KubeAtlas.Graph Lib
open Operations (CoverageState)

/-- The classes of `impactAuthorizationClass`; the source writes
`""` for none. -/
inductive AuthorizationClass where
  | role
  | binding
  | account
  | workload
  deriving DecidableEq, Repr

/-- The class, API version and scope that a kind stands for. -/
def authorizationKind (kind : String) : Option (AuthorizationClass × String × Bool) :=
  if kind = "Role" || kind = "ClusterRole" then
    some (.role, "rbac.authorization.k8s.io/v1", kind = "Role")
  else if kind = "RoleBinding" || kind = "ClusterRoleBinding" then
    some (.binding, "rbac.authorization.k8s.io/v1", kind = "RoleBinding")
  else if kind = "ServiceAccount" then some (.account, "v1", true)
  else if kind = "Pod" then some (.workload, "v1", true)
  else if kind = "Deployment" || kind = "StatefulSet" || kind = "DaemonSet" ||
      kind = "ReplicaSet" then some (.workload, "apps/v1", true)
  else if kind = "Job" || kind = "CronJob" then some (.workload, "batch/v1", true)
  else none

/-- `impactAuthorizationClass`. -/
def impactAuthorizationClass (r : Resource) : Option AuthorizationClass :=
  match authorizationKind r.kind with
  | none => none
  | some (cls, version, namespaced) =>
    if decide (r.ns ≠ "") ≠ namespaced || (r.groupVersion ≠ "" && r.groupVersion ≠ version)
    then none
    else some cls

/-- `impactAuthorizationTransition`. -/
def impactAuthorizationTransition (root : AuthorizationClass)
    (current : Option AuthorizationClass) (edge : EdgeType) (reverse : Bool) : Bool :=
  match current with
  | some .role => root = .role && edge = .bindsRole && reverse
  | some .binding =>
    (edge = .bindsRole && !reverse && root ≠ .role) ||
      (edge = .bindsSubject && !reverse && (root = .role || root = .binding))
  | some .account =>
    (edge = .bindsSubject && reverse && (root = .account || root = .workload)) ||
      (edge = .usesServiceAccount && reverse && root ≠ .workload)
  | some .workload => root = .workload && edge = .usesServiceAccount && !reverse
  | none => false

/-! ### Counting and indexing the edges -/

/-- The first loop's variables: the distinct edges, and how many
role and account edges leave each identifier. -/
structure AuthorizationRefs where
  unique : List EdgeKey := []
  roleRefs : ByID Nat := fun _ => 0
  accountRefs : ByID Nat := fun _ => 0

/-- The edge types of the facet. -/
def isAuthorizationEdge (type : EdgeType) : Bool :=
  type = .bindsRole || type = .bindsSubject || type = .usesServiceAccount

/-- The body of the first loop. -/
def collectAuthorizationEdge (resources : ResourceTable) (refs : AuthorizationRefs)
    (edge : Edge) : AuthorizationRefs :=
  if !isAuthorizationEdge edge.type then refs
  else if (resources edge.fromID).isNone && (resources edge.toID).isNone then refs
  else if edge.key ∈ refs.unique then refs
  else
    let refs := { refs with unique := refs.unique.insert edge.key }
    if edge.type = .bindsRole then
      { refs with
        roleRefs := Function.update refs.roleRefs edge.fromID (refs.roleRefs edge.fromID + 1) }
    else if edge.type = .usesServiceAccount then
      { refs with
        accountRefs :=
          Function.update refs.accountRefs edge.fromID (refs.accountRefs edge.fromID + 1) }
    else refs

/-- The first loop. -/
def collectAuthorizationEdges (resources : ResourceTable) (edges : List Edge) :
    AuthorizationRefs :=
  edges.foldl (collectAuthorizationEdge resources) {}

/-- The switch of `impactAuthorizationEdgeReason`: the classes and
scopes an edge type allows. -/
def validAuthorizationEdge (type : EdgeType) (source target : Resource) : Bool :=
  let sourceClass := impactAuthorizationClass source
  let targetClass := impactAuthorizationClass target
  if type = .bindsRole then
    sourceClass = some .binding && targetClass = some .role &&
      (target.kind = "ClusterRole" || (source.kind = "RoleBinding" && source.ns = target.ns))
  else if type = .bindsSubject then
    sourceClass = some .binding && targetClass = some .account
  else if type = .usesServiceAccount then
    sourceClass = some .workload && targetClass = some .account && source.ns = target.ns
  else false

/-- Whether an identifier names a user or a group. -/
def isUserOrGroup (id : String) : Bool :=
  match Strings.splitN '/' 3 id with
  | [_, kind, _] => kind = "User" || kind = "Group"
  | _ => false

/-- `impactAuthorizationEdgeReason`: why an edge is not followed,
`none` if it is. -/
def impactAuthorizationEdgeReason (edge : EdgeKey) (resources : ResourceTable)
    (cluster : String) (refs : AuthorizationRefs) : Option ImpactNoticeReason :=
  if !impactIDInCluster edge.fromID cluster || !impactIDInCluster edge.toID cluster then
    some .crossClusterExcluded
  else if (edge.type = .bindsRole && refs.roleRefs edge.fromID > 1) ||
      (edge.type = .usesServiceAccount && refs.accountRefs edge.fromID > 1) then
    some .authorizationAmbiguous
  else if edge.type = .bindsSubject && isUserOrGroup edge.toID then
    some .authorizationSubject
  else if (resources edge.fromID).isNone || (resources edge.toID).isNone then
    some .missingResource
  else if !validAuthorizationEdge edge.type (resources.get edge.fromID)
      (resources.get edge.toID) then
    some .authorizationInvalid
  else none

/-- Where the walk of an edge starts, and where it leads. -/
def authorizationEnds (edge : EdgeKey) (reverse : Bool) : String × String :=
  if reverse then (edge.toID, edge.fromID) else (edge.fromID, edge.toID)

/-- What one direction of an edge adds to the index. -/
def authorizationEntries (rootClass : AuthorizationClass) (resources : ResourceTable)
    (cluster : String) (refs : AuthorizationRefs) (edge : EdgeKey) (reverse : Bool) :
    List IndexEntry :=
  let ends := authorizationEnds edge reverse
  if !impactAuthorizationTransition rootClass
      (impactAuthorizationClass (resources.get ends.1)) edge.type reverse then []
  else
    match impactAuthorizationEdgeReason edge resources cluster refs with
    | some reason => [.notice reason]
    | none =>
      [.arc { fromID := edge.fromID, toID := edge.toID, type := edge.type,
              traversalFrom := ends.1, traversalTo := ends.2 }]

/-- The body of the second loop: both directions of an edge. -/
def indexAuthorizationEdge (rootClass : AuthorizationClass) (resources : ResourceTable)
    (cluster : String) (refs : AuthorizationRefs) (ix : ArcIndex) (edge : EdgeKey) :
    ArcIndex :=
  [false, true].foldl (fun ix reverse =>
    ix.addAll (authorizationEnds edge reverse).1
      (authorizationEntries rootClass resources cluster refs edge reverse)) ix

/-- The second loop, over the map of distinct edges. -/
def indexAuthorizationEdges (range : RangeOrder EdgeKey) (rootClass : AuthorizationClass)
    (resources : ResourceTable) (cluster : String) (refs : AuthorizationRefs) : ArcIndex :=
  (range.order refs.unique).foldl
    (indexAuthorizationEdge rootClass resources cluster refs) {}

/-! ### The traversal -/

/-- The `BindingScope` of a step. -/
inductive BindingScope where
  | cluster
  | namespaced
  deriving DecidableEq, Repr

/-- `ImpactAuthorizationStep`. -/
structure ImpactAuthorizationStep extends ImpactStep where
  bindingScope : Option BindingScope := none
  bindingNamespace : String := ""
  deriving DecidableEq, Repr

/-- `ImpactAuthorizationMatch`. -/
structure ImpactAuthorizationMatch where
  resource : ImpactIdentity
  depth : Nat := 0
  path : List ImpactAuthorizationStep := []
  deriving DecidableEq, Repr

/-- `ImpactAuthorizationCounts`. -/
structure ImpactAuthorizationCounts where
  total : Nat := 0
  direct : Nat := 0
  indirect : Nat := 0
  roles : Nat := 0
  bindings : Nat := 0
  serviceAccounts : Nat := 0
  workloads : Nat := 0
  pods : Nat := 0
  lowerBound : Bool := false
  deriving DecidableEq, Repr

/-- `ImpactAuthorizationCounts.add`. -/
def ImpactAuthorizationCounts.add (c : ImpactAuthorizationCounts)
    (found : ImpactAuthorizationMatch) : ImpactAuthorizationCounts :=
  let c := { c with total := c.total + 1 }
  let c := if found.depth = 1 then { c with direct := c.direct + 1 }
    else { c with indirect := c.indirect + 1 }
  let kind := found.resource.kind
  if kind = "Role" || kind = "ClusterRole" then { c with roles := c.roles + 1 }
  else if kind = "RoleBinding" || kind = "ClusterRoleBinding" then
    { c with bindings := c.bindings + 1 }
  else if kind = "ServiceAccount" then { c with serviceAccounts := c.serviceAccounts + 1 }
  else if kind = "Pod" then { c with pods := c.pods + 1 }
  else { c with workloads := c.workloads + 1 }

/-- The `TruncationReasons` of a facet. -/
inductive TruncationReason where
  | maxDepth
  | maxResults
  deriving DecidableEq, Repr

/-- The reasons of the two flags, in the order in which they are
appended. -/
def truncationReasons (depthLimited resultLimited : Bool) : List TruncationReason :=
  (if depthLimited then [.maxDepth] else []) ++ (if resultLimited then [.maxResults] else [])

/-- `ImpactAuthorizationResult`. -/
structure ImpactAuthorizationResult where
  applicable : Bool := false
  reason : String := ""
  evidenceCategory : String := "stored_edge_association"
  sourceVersionEvidence : String := "unknown"
  effectivePermissions : String := "not_evaluated"
  observationCoverage : CoverageState := .unknown
  maxDepth : Int
  limit : Int
  resources : List ImpactAuthorizationMatch := []
  counts : ImpactAuthorizationCounts := {}
  truncated : Bool := false
  truncationReasons : List TruncationReason := []
  notices : List ImpactNotice := []
  modeledTraversalComplete : Bool := false
  deriving DecidableEq, Repr

/-- The variables of the traversal besides the queue. -/
structure AuthorizationWork where
  remaining : Nat := 16 * 2 ^ 20 - 4096
  counts : ImpactAuthorizationCounts := {}
  totals : NoticeTally := fun _ => 0

/-- `chargeImpactAuthorization`. -/
def chargeImpactAuthorization (overhead : Nat) (fields : List String) :
    Nat → Except ImpactError (Unit × Nat) :=
  Budget.pay .authorizationLimit overhead fields

/-- The loop that charges the steps of a path. -/
def chargeAuthorizationPath : List ImpactAuthorizationStep →
    Nat → Except ImpactError (Unit × Nat)
  | [] => Budget.free ()
  | s :: path =>
    Budget.andThen (chargeImpactAuthorization 256
      [s.fromID, s.toID, s.traversalFrom, s.traversalTo, s.bindingNamespace]) fun _ =>
      chargeAuthorizationPath path

/-- The charges for one match: its identity, its parent's path and
the new step. -/
def chargeAuthorizationMatch (resource : ImpactIdentity)
    (path : List ImpactAuthorizationStep) : Nat → Except ImpactError (Unit × Nat) :=
  Budget.andThen (chargeImpactAuthorization 512
    [resource.id, resource.clusterID, resource.ns, resource.kind, resource.name,
      resource.groupVersion, resource.uid, resource.resourceVersion]) fun _ =>
    chargeAuthorizationPath path

/-- The step with the scope of its binding. -/
def authorizationStep (resources : ResourceTable) (step : ImpactStep) :
    ImpactAuthorizationStep :=
  if step.type = .bindsRole || step.type = .bindsSubject then
    let binding := resources.get step.fromID
    if binding.kind = "RoleBinding" then
      { step with bindingScope := some .namespaced, bindingNamespace := binding.ns }
    else { step with bindingScope := some .cluster }
  else { step with }

/-- `totals[reason] += count` for the notices of a resource. -/
def addTotals (totals notices : NoticeTally) : NoticeTally :=
  fun reason => totals reason + notices reason

/-- `totals[reason]++`. -/
def NoticeTally.bump (totals : NoticeTally) (reason : ImpactNoticeReason) : NoticeTally :=
  Function.update totals reason (totals reason + 1)

/-- What entering a queued resource adds to the totals. -/
def enterAuthorization (resources : ResourceTable) (refs : AuthorizationRefs)
    (notices : ByID NoticeTally) (current : ImpactAuthorizationMatch)
    (work : AuthorizationWork) : AuthorizationWork :=
  let id := current.resource.id
  let cls := impactAuthorizationClass (resources.get id)
  let totals := addTotals work.totals (notices id)
  let totals := if cls = some .binding && refs.roleRefs id = 0 then
    totals.bump .authorizationMissingRole else totals
  let totals := if cls = some .workload && refs.accountRefs id = 0 then
    totals.bump .authorizationMissingSA else totals
  { work with totals := totals }

/-- The traversal as a search: a match is a queue entry, an arc is a
popped step. -/
def authorizationSearch (resources : ResourceTable) (refs : AuthorizationRefs)
    (arcs : ByID (List ImpactStep)) (notices : ByID NoticeTally) (opts : ImpactOptions) :
    Search.Problem String ImpactStep ImpactAuthorizationMatch AuthorizationWork
      ImpactError where
  arcs := arcs
  target step := step.traversalTo
  key m := m.resource.id
  depth m := m.depth
  extend current step :=
    { resource := impactIdentity (resources.get step.traversalTo)
      depth := current.depth + 1
      path := current.path ++ [authorizationStep resources step] }
  enter := enterAuthorization resources refs notices
  visit _ _ next work :=
    match chargeAuthorizationMatch next.resource next.path work.remaining with
    | .error e => .error e
    | .ok (_, remaining) =>
      .ok { work with remaining := remaining, counts := work.counts.add next }
  maxDepth := opts.maxDepth.toNat
  limit := opts.limit.toNat

/-- `impactAuthorizationNoticeOrder`. -/
def impactAuthorizationNoticeOrder : List ImpactNoticeReason :=
  [.crossClusterExcluded, .missingResource, .authorizationInvalid, .authorizationAmbiguous,
    .authorizationMissingRole, .authorizationMissingSA, .authorizationSubject]

/-- The result of a finished traversal. -/
def authorizationResult (opts : ImpactOptions)
    (s : Search.State String ImpactAuthorizationMatch AuthorizationWork) :
    ImpactAuthorizationResult :=
  let notices := listNotices impactAuthorizationNoticeOrder s.extra.totals
  let truncated := s.depthLimited || s.resultLimited
  let lowerBound := truncated || notices.length > 0
  { applicable := true, maxDepth := opts.maxDepth, limit := opts.limit
    resources := s.found
    counts := { s.extra.counts with lowerBound := lowerBound }
    truncated := truncated
    truncationReasons := truncationReasons s.depthLimited s.resultLimited
    notices := notices
    modeledTraversalComplete := !lowerBound }

/-- `analyzeImpactAuthorization`. -/
def analyzeImpactAuthorization (range : RangeOrder EdgeKey) (edges : List Edge)
    (resources : ResourceTable) (root : Resource) (opts : ImpactOptions) :
    Except ImpactError ImpactAuthorizationResult :=
  match impactAuthorizationClass root with
  | none =>
    .ok { reason := "unsupported_authorization_root", maxDepth := opts.maxDepth
          limit := opts.limit }
  | some rootClass =>
    let refs := collectAuthorizationEdges resources edges
    let ix := indexAuthorizationEdges range rootClass resources opts.clusterID refs
    let problem := authorizationSearch resources refs ix.arcs ix.notices opts
    match Search.search problem { resource := impactIdentity root } {} with
    | .error e => .error e
    | .ok s => .ok (authorizationResult opts s)

end KubeAtlas.Analysis
