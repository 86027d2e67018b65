import KubeAtlas.Graph.Model
import KubeAtlas.Otel.Translate
import Mathlib.Algebra.GroupWithZero.Nat
import Mathlib.Data.Prod.Lex

/-!
# `KubeAtlas.Otel.Correlator`: runtime edges from spans

`correlate` of `pkg/otel/correlator.go` and what it calls: calls are
inferred from pairs of spans, their services are resolved to stored
resources, and the calls between two resources are one edge. No two
edges have the same ends, so any sorting algorithm gives the same
slice.
-/

set_option autoImplicit false

namespace KubeAtlas.Otel

open KubeAtlas.Graph Lib
open Operations (Time)

/-- `RuntimeEdge`. -/
structure RuntimeEdge where
  fromID : String
  toID : String
  fromService : String
  toService : String
  ns : String
  firstSeen : Time
  lastSeen : Time
  callCount : Nat

/-- `call`. -/
structure Call where
  parent : Span
  child : Span

/-- The index of spans that `inferCalls` builds. -/
def indexSpans (spans : List Span) : GoMap String Span :=
  spans.foldl (fun byID s => if s.spanID ≠ "" then byID.insert s.spanID s else byID) ∅

/-- The call that a span ends, if any: a round of the second loop of
`inferCalls`. -/
def callOf (byID : GoMap String Span) (s : Span) : Option Call :=
  if s.parentSpanID = "" then none
  else
    match byID.lookup s.parentSpanID with
    | none => none
    | some parent =>
      if parent.serviceName = "" || s.serviceName = "" then none
      else if parent.serviceName = s.serviceName then none
      else some ⟨parent, s⟩

/-- `inferCalls`. -/
def inferCalls (spans : List Span) : List Call := spans.filterMap (callOf (indexSpans spans))

/-- What `ListResources` returns for a namespace, if it does not
fail. -/
abbrev ResourceLister := String → Option (List Resource)

/-- `buildResolver` and `newResolver`: the identifiers of the
resources in the namespaces of the spans. -/
def buildResolver (range : MapOrder) (lister : ResourceLister) (spans : List Span) : List String :=
  let nsSet := ((spans.map Span.k8sNamespace).filter (· ≠ "")).dedup
  (((range _).order nsSet).flatMap fun ns => (lister ns).getD []).map Resource.ID

/-- `resolve`. The namespace that it returns besides is that of the
span. -/
def resolve (ids : List String) (sp : Span) : Option String :=
  let ns := sp.k8sNamespace
  if ns = "" then none
  else
    let cands :=
      (if sp.k8sDeployment ≠ "" then [ns ++ "/Deployment/" ++ sp.k8sDeployment] else []) ++
      (if sp.k8sPod ≠ "" then [ns ++ "/Pod/" ++ sp.k8sPod] else []) ++
      (if sp.serviceName ≠ "" then
        [ns ++ "/Deployment/" ++ sp.serviceName, ns ++ "/StatefulSet/" ++ sp.serviceName,
          ns ++ "/DaemonSet/" ++ sp.serviceName, ns ++ "/Service/" ++ sp.serviceName] else [])
    cands.find? fun cand => ids.contains cand

/-- The two ends of the edge that a call belongs to, if it is an
edge of the topology. -/
def callKey (ids : List String) (cl : Call) : Option (String × String) := do
  let fromID ← resolve ids cl.parent
  let toID ← resolve ids cl.child
  if fromID = toID then none else some (fromID, toID)

/-- The ends of a call that are not resolved. -/
def unmatchedEnds (ids : List String) (cl : Call) : Nat :=
  (if resolve ids cl.parent = none then 1 else 0) + if resolve ids cl.child = none then 1 else 0

/-- What a call makes of the edge between its ends. -/
def observe (ends : String × String) (cl : Call) : Option RuntimeEdge → RuntimeEdge
  | some e =>
    { e with
      callCount := e.callCount + 1
      firstSeen := if cl.child.startTime < e.firstSeen then cl.child.startTime else e.firstSeen
      lastSeen := if e.lastSeen < cl.child.startTime then cl.child.startTime else e.lastSeen }
  | none =>
    { fromID := ends.1, toID := ends.2, fromService := cl.parent.serviceName
      toService := cl.child.serviceName, ns := cl.child.k8sNamespace
      firstSeen := cl.child.startTime, lastSeen := cl.child.startTime, callCount := 1 }

/-- A round of the loop over the calls, without the count of
unmatched ends. -/
def aggregate (ids : List String) (agg : GoMap (String × String) RuntimeEdge) (cl : Call) :
    GoMap (String × String) RuntimeEdge :=
  match callKey ids cl with
  | none => agg
  | some ends => agg.insert ends (observe ends cl (agg.lookup ends))

/-- The order of the result. -/
def RuntimeEdge.order (e : RuntimeEdge) : String ×ₗ String := toLex (e.fromID, e.toID)

/-- `correlate`. -/
def correlate (range : MapOrder) (lister : ResourceLister) (spans : List Span) :
    List RuntimeEdge × Nat :=
  let calls := inferCalls spans
  let ids := buildResolver range lister spans
  let agg := calls.foldl (aggregate ids) ∅
  ((GoMap.values range agg).insertionSort fun a b => a.order ≤ b.order,
    (calls.map (unmatchedEnds ids)).sum)

end KubeAtlas.Otel
