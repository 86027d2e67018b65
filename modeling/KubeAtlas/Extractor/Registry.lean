import KubeAtlas.Extractor.References
import KubeAtlas.Lib.Program
import KubeAtlas.Store.Queries

/-!
# `KubeAtlas.Extractor.Registry`: extractors that query the store

The extractors of `pkg/extractor` that resolve selectors
(`selects.go`, `networkpolicy.go`, `gatekeeper.go`, `kyverno.go`),
and the registry of `extractor.go`. They read the store through
`ListResources` and through nothing else, so an extractor is a
program whose only calls are filters. Between two of its calls the
store may change.

An extractor that fails returns no edges. The registry runs all of
them in order, keeps every edge and reports the first error.
-/

set_option autoImplicit false

namespace KubeAtlas.Extractor

open KubeAtlas.Graph Lib
open Store (Filter)

/-- The text of an error that the store returned. -/
abbrev ListError := String

/-- `graph.ResourceLister`, as the calls an extractor makes. -/
abbrev Query := Program Filter fun _ => Except ListError (List Resource)

/-- The errors of the extractors: that of the store, with what the
extractor says about it. -/
inductive ExtractError where
  | listing (cause : ListError)
  | selects (ns : String) (cause : ListError)
  | selectsNP (ns : String) (cause : ListError)
  | peerNamespaces (cause : ListError)
  | peerNamespace (ns : String) (cause : ListError)
  deriving DecidableEq, Repr

/-- The texts of the errors. `quote` is the `%q` verb of `fmt`. -/
def ExtractError.message (quote : String → String) : ExtractError → String
  | .listing cause => cause
  | .selects ns cause => "SelectsExtractor: list namespace " ++ quote ns ++ ": " ++ cause
  | .selectsNP ns cause => "SelectsNPExtractor: list namespace " ++ quote ns ++ ": " ++ cause
  | .peerNamespaces cause => "peerEdges: list namespaces: " ++ cause
  | .peerNamespace ns cause => "peerEdges: list namespace " ++ quote ns ++ ": " ++ cause

/-- A query that stops at the first error. -/
abbrev Lookup := ExceptT ExtractError Query

/-- `q.ListResources(ctx, filter)`, where `wrap` is the error that
is returned. -/
def listing (wrap : ListError → ExtractError) (filter : Filter) : Lookup (List Resource) :=
  ExceptT.mk do
    match ← Program.perform filter with
    | .error cause => return .error (wrap cause)
    | .ok found => return .ok found

/-- A loop that appends what each round finds. -/
def concat {α β : Type} (f : α → Lookup (List β)) : List α → Lookup (List β)
  | [] => pure []
  | x :: xs => do
      let found ← f x
      let rest ← concat f xs
      return found ++ rest

/-- An edge from `r` to each of the resources. -/
def edgesTo (r : Resource) (type : EdgeType) (found : List Resource) : List Edge :=
  found.map fun t => { fromID := r.ID, toID := t.ID, type := type }

/-! ### Services -/

/-- The candidates a Service selects: Pods by their labels,
workloads by the labels of their template. -/
def selectedBy (selector : StringMap) (t : Resource) : Bool :=
  if t.kind = "Pod" then labelsMatch t.labels selector
  else hasPodTemplate t.kind &&
    labelsMatch (nestedStringMap (podTemplateMeta t) ["labels"]) selector

/-- `SelectsExtractor.Extract`. -/
def selects (r : Resource) : Lookup (List Edge) :=
  if r.kind ≠ "Service" then pure []
  else
    let selector := nestedStringMap (rawOf r) ["spec", "selector"]
    if selector.isEmpty then pure []
    else do
      let candidates ← listing (.selects r.ns) { ns := r.ns, clusterID := r.clusterID }
      return edgesTo r .selects (candidates.filter (selectedBy selector))

/-! ### Network policies -/

/-- `podLikeMatches`. -/
def podLikeMatches (t : Resource) (sel : StringMap) : Bool :=
  if t.kind = "Pod" then matchLabelSelector t.labels sel
  else hasPodTemplate t.kind &&
    matchLabelSelector (nestedStringMap (podTemplateMeta t) ["labels"]) sel

/-- `SelectsNPExtractor.Extract`. -/
def selectsNP (r : Resource) : Lookup (List Edge) :=
  if r.kind ≠ "NetworkPolicy" then pure []
  else do
    let selector := nestedStringMap (rawOf r) ["spec", "podSelector", "matchLabels"]
    let candidates ← listing (.selectsNP r.ns) { ns := r.ns, clusterID := r.clusterID }
    return edgesTo r .selectsNP (candidates.filter (podLikeMatches · selector))

/-- `hasPolicyType`. -/
def hasPolicyType (r : Resource) (want : String) : Bool :=
  (nestedSlice (rawOf r) ["spec", "policyTypes"]).any fun raw => raw.str? = some want

/-- `peer[field] != nil`. -/
def present (peer : Object) (field : String) : Bool :=
  match member peer field with
  | .null => false
  | _ => true

/-- The namespaces of the cluster that a selector selects. -/
def matchingNamespaces (r : Resource) (nsSel : StringMap) : Lookup (List Resource) := do
  let namespaces ← listing .peerNamespaces { kind := "Namespace", clusterID := r.clusterID }
  return namespaces.filter fun t => matchLabelSelector t.labels nsSel

/-- The pods and workloads of a namespace that a selector selects. -/
def matchingPods (r : Resource) (podSel : StringMap) (ns : String) : Lookup (List Resource) := do
  let candidates ← listing (.peerNamespace ns) { ns := ns, clusterID := r.clusterID }
  return candidates.filter (podLikeMatches · podSel)

/-- `peerEdges`. A peer without selectors is skipped, also one with
an IP block only. -/
def peerEdges (r : Resource) (peer : Object) (edgeType : EdgeType) : Lookup (List Edge) :=
  let podSel := nestedStringMap peer ["podSelector", "matchLabels"]
  let nsSel := nestedStringMap peer ["namespaceSelector", "matchLabels"]
  match present peer "podSelector", present peer "namespaceSelector" with
  | false, false => pure []
  | false, true => return edgesTo r edgeType (← matchingNamespaces r nsSel)
  | true, false => return edgesTo r edgeType (← matchingPods r podSel r.ns)
  | true, true => do
      let namespaces ← matchingNamespaces r nsSel
      let pods ← concat (fun nsRes => matchingPods r podSel nsRes.name) namespaces
      return edgesTo r edgeType pods

/-- The peers that the rules of a policy list. -/
def policyPeers (r : Resource) (ruleField peerField : String) : List Object :=
  (nestedSlice (rawOf r) ["spec", ruleField]).flatMap fun rawRule =>
    (nestedSlice (asMap rawRule) [peerField]).filterMap Json.members?

/-- `extractPeerEdges`. -/
def extractPeerEdges (r : Resource) (ruleField peerField : String) (edgeType : EdgeType) :
    Lookup (List Edge) :=
  concat (fun peer => peerEdges r peer edgeType) (policyPeers r ruleField peerField)

/-- `AllowsFromExtractor.Extract`. -/
def allowsFrom (r : Resource) : Lookup (List Edge) :=
  if r.kind ≠ "NetworkPolicy" || !hasPolicyType r "Ingress" then pure []
  else extractPeerEdges r "ingress" "from" .allowsFrom

/-- `AllowsToExtractor.Extract`. -/
def allowsTo (r : Resource) : Lookup (List Edge) :=
  if r.kind ≠ "NetworkPolicy" || !hasPolicyType r "Egress" then pure []
  else extractPeerEdges r "egress" "to" .allowsTo

/-! ### Policies -/

/-- The resources whose identifiers are not in `seen`, each
identifier once. -/
def unseen : List String → List Resource → List Resource
  | _, [] => []
  | seen, m :: rest =>
    if seen.contains m.ID then unseen seen rest else m :: unseen (m.ID :: seen) rest

/-- The loops that the two policy extractors share: every filter is
listed in turn, and each resource found gives one edge, with the
attributes `overlay` adds. -/
def enforce (r : Resource) (overlay : Resource → StringMap) :
    List String → List Filter → Lookup (List Edge)
  | _, [] => pure []
  | seen, filter :: filters => do
      let matched ← listing .listing filter
      let fresh := unseen seen matched
      let rest ← enforce r overlay (fresh.map Resource.ID ++ seen) filters
      return fresh.map (fun m => { fromID := r.ID, toID := m.ID, type := .enforces
                                   attributes := overlay m }) ++ rest

/-- One filter for each kind in each namespace; no namespace means
all of them. -/
def policyFilters (r : Resource) (kinds namespaces : List String) (labels : StringMap) :
    List Filter :=
  kinds.flatMap fun kind =>
    (if namespaces = [] then [""] else namespaces).map fun ns =>
      { kind := kind, ns := ns, labels := labels, clusterID := r.clusterID }

/-- `stringSlice`, and the loops like it: the items that are texts
and not empty. -/
def stringSlice (vals : List Json) : List String :=
  (vals.filterMap Json.str?).filter (· ≠ "")

def gatekeeperConstraintGroupPrefix : String := "constraints.gatekeeper.sh/"

/-- `constraintMatchKinds`. -/
def constraintMatchKinds (r : Resource) : List String :=
  (nestedSlice (rawOf r) ["spec", "match", "kinds"]).flatMap fun entry =>
    stringSlice (nestedSlice (asMap entry) ["kinds"])

/-- `constraintMatchNamespaces`. -/
def constraintMatchNamespaces (r : Resource) : List String :=
  stringSlice (nestedSlice (rawOf r) ["spec", "match", "namespaces"])

/-- `violationKey`. -/
def violationKey (kind ns name : String) : String := kind ++ "/" ++ ns ++ "/" ++ name

/-- `constraintViolations`: the last entry for a resource counts. -/
def constraintViolations (r : Resource) : GoMap String String :=
  (nestedSlice (rawOf r) ["status", "violations"]).foldl
    (fun out v =>
      let field (name : String) : String := (member (asMap v) name).text
      out.insert (violationKey (field "kind") (field "namespace") (field "name"))
        (field "message"))
    ∅

/-- The filters a Gatekeeper constraint lists. -/
def constraintFilters (r : Resource) : List Filter :=
  if !Strings.hasPrefix r.groupVersion gatekeeperConstraintGroupPrefix then []
  else
    policyFilters r (constraintMatchKinds r) (constraintMatchNamespaces r)
      (nestedStringMap (rawOf r) ["spec", "match", "labelSelector", "matchLabels"])

/-- What a violation adds to an edge. -/
def violationOverlay (violations : GoMap String String) (m : Resource) : StringMap :=
  match violations.lookup (violationKey m.kind m.ns m.name) with
  | some msg => [("violated", "true"), ("violation_message", msg)]
  | none => []

/-- `GatekeeperExtractor.Extract`. -/
def gatekeeper (r : Resource) : Lookup (List Edge) :=
  enforce r (violationOverlay (constraintViolations r)) [] (constraintFilters r)

def kyvernoGroupPrefix : String := "kyverno.io/"

/-- `normalizeKinds`: the last segment of `group/version/Kind`; a
wildcard is dropped. -/
def normalizeKinds (vals : List Json) : List String :=
  ((stringSlice vals).map fun s => Strings.afterLast s '/').filter fun s => s ≠ "" && s ≠ "*"

/-- `kyvernoDescriptor`. -/
structure KyvernoDescriptor where
  kinds : List String
  namespaces : List String
  labels : StringMap

/-- `kyvernoMatchDescriptors`. -/
def kyvernoMatchDescriptors (rule : Object) : List KyvernoDescriptor :=
  ["any", "all"].flatMap fun group =>
    (nestedSlice rule ["match", group]).filterMap fun entryAny =>
      let entry := asMap entryAny
      let kinds := normalizeKinds (nestedSlice entry ["resources", "kinds"])
      if kinds = [] then none
      else
        some { kinds := kinds
               namespaces := stringSlice (nestedSlice entry ["resources", "namespaces"])
               labels := nestedStringMap entry ["resources", "selector", "matchLabels"] }

/-- The rules of a Kyverno policy that validate. -/
def validateRules (r : Resource) : List Object :=
  ((nestedSlice (rawOf r) ["spec", "rules"]).map asMap).filter fun rule =>
    (rule.lookup "validate").isSome

/-- The resource is a Kyverno policy with rules. -/
def isKyvernoPolicy (r : Resource) : Bool :=
  Strings.hasPrefix r.groupVersion kyvernoGroupPrefix &&
    (r.kind = "ClusterPolicy" || r.kind = "Policy") &&
    !(nestedSlice (rawOf r) ["spec", "rules"]).isEmpty

/-- The filters a Kyverno policy lists. A namespaced policy applies
in its own namespace, whatever the rule says. -/
def kyvernoFilters (r : Resource) : List Filter :=
  (validateRules r).flatMap fun rule =>
    (kyvernoMatchDescriptors rule).flatMap fun desc =>
      policyFilters r desc.kinds (if r.kind = "Policy" then [r.ns] else desc.namespaces)
        desc.labels

/-- `reportKey`. -/
def reportKey (policy kind ns name : String) : String :=
  policy ++ "|" ++ kind ++ "/" ++ ns ++ "/" ++ name

/-- One result of a report: it overwrites earlier ones for the same
policy and resource. -/
def indexResult (idx : GoMap String String) (resAny : Json) : GoMap String String :=
  let res := asMap resAny
  let policy := (member res "policy").text
  let result := (member res "result").text
  if policy = "" || result = "" then idx
  else
    (nestedSlice res ["resources"]).foldl
      (fun idx refAny =>
        let field (name : String) : String := (member (asMap refAny) name).text
        idx.insert (reportKey policy (field "kind") (field "namespace") (field "name")) result)
      idx

/-- `buildKyvernoReportIndex`. A listing that fails is skipped. -/
def buildKyvernoReportIndex : Query (GoMap String String) := do
  let read (idx : GoMap String String) (listed : Except ListError (List Resource)) :=
    match listed with
    | .error _ => idx
    | .ok reports =>
      (reports.flatMap fun rep => nestedSlice (rawOf rep) ["results"]).foldl indexResult idx
  let reports ← Program.perform ({ kind := "PolicyReport" } : Filter)
  let clusterReports ← Program.perform ({ kind := "ClusterPolicyReport" } : Filter)
  return read (read ∅ reports) clusterReports

/-- What a report adds to an edge. -/
def reportOverlay (policy : String) (reports : GoMap String String) (m : Resource) : StringMap :=
  match reports.lookup (reportKey policy m.kind m.ns m.name) with
  | some result => [("result", result)]
  | none => []

/-- `KyvernoExtractor.Extract`. -/
def kyverno (r : Resource) : Lookup (List Edge) :=
  if !isKyvernoPolicy r then pure []
  else do
    let reports ← ExceptT.lift buildKyvernoReportIndex
    enforce r (reportOverlay r.name reports) [] (kyvernoFilters r)

/-! ### The registry -/

/-- What `Extract` and `ExtractAll` return: edges, and an error if
there was one. -/
abbrev Extraction := List Edge × Option ExtractError

/-- `Extractor`, by its `Extract` method. -/
abbrev EdgeExtractor := Resource → Query Extraction

/-- `Registry`. -/
abbrev Registry := List EdgeExtractor

/-- An extractor that reads the object only. -/
def direct (f : Resource → List Edge) : EdgeExtractor := fun r => return (f r, none)

/-- An extractor that returns edges or an error. -/
def resolving (f : Resource → Lookup (List Edge)) : EdgeExtractor := fun r => do
  match ← (f r).run with
  | .ok edges => return (edges, none)
  | .error err => return ([], some err)

/-- `Registry.ExtractAll`. -/
def extractAll (registry : Registry) (res : Resource) : Query Extraction :=
  match registry with
  | [] => return ([], none)
  | e :: registry => do
      let got ← e res
      let rest ← extractAll registry res
      return (got.1 ++ rest.1, got.2.or rest.2)

/-- `Default`. -/
def defaultRegistry : Registry :=
  [direct ownsEdges, direct configMapEdges, direct secretEdges, direct volumeEdges,
    resolving selects, direct serviceAccountEdges, direct routesEdges, direct attachedEdges,
    direct bindsSubjectEdges, direct bindsRoleEdges, resolving selectsNP, resolving allowsFrom,
    resolving allowsTo, direct eksIdentity, direct aksIdentity, direct gkeIdentity,
    direct scalesEdges, resolving gatekeeper, resolving kyverno]

end KubeAtlas.Extractor
