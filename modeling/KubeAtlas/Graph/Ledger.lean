import KubeAtlas.Graph.Projection

/-!
# `KubeAtlas.Graph.Ledger`: the projection builder with its machine integers

`ImpactProjectionBuilder` of `pkg/graph/impact_snapshot.go` once
more, as the object it is in memory. Its budget is an `int`, and it
outlives a call that fails: what was charged before the failure
stays charged. `Graph.Projection` has the same code without either,
as a function from a builder to the next one.

Two fields are not in the source. `overflowed` notes that an
operation on `int` wrapped around, and `negative` that a negative
number was stored as the remaining budget.
-/

set_option autoImplicit false

namespace KubeAtlas.Graph

open Lib

/-- `ImpactProjectionBuilder`, with its history of faults. -/
structure Ledger where
  graph : Graph
  opts : ImpactSnapshotOptions
  remaining : Int
  overflowed : Bool := false
  negative : Bool := false

/-- A method of the builder. It changes the builder, also when it
fails. -/
abbrev Building := ExceptT SnapshotError (StateM Ledger)

namespace Ledger

/-- `NewImpactProjectionBuilder`. -/
def new (opts : ImpactSnapshotOptions) : Except SnapshotError Ledger := do
  let opts ← opts.normalize
  return { graph := ⟨[], []⟩, opts := opts, remaining := opts.maxBytes }

/-- An operation on `int` whose exact result is `x`. -/
def int (x : Int) : Building Int := do
  modify fun b => { b with overflowed := b.overflowed || decide (x.bmod (2 ^ 64) ≠ x) }
  return x.bmod (2 ^ 64)

/-- `b.remaining -= amount`. -/
def spend (amount : Int) : Building Unit := do
  let left ← int ((← get).remaining - amount)
  modify fun b => { b with remaining := left, negative := b.negative || decide (left < 0) }

/-- The loop over the fields of a charge. -/
def chargeFields : List String → Building Unit
  | [] => return
  | field :: fields => do
      if (Strings.len field : Int) > (← get).remaining.tdiv 6 then throw .limit
      else
        spend (← int (Strings.len field * 6))
        chargeFields fields

/-- `charge`. -/
def charge (overhead : Int) (fields : List String) : Building Unit := do
  if overhead > (← get).remaining then throw .limit
  else
    spend overhead
    chargeFields fields

mutual

/-- `projectImpactValue`. -/
def projectImpactValue : ImpactFieldShape → Json → Building Json
  | .string, value => do
      charge 32 []
      match value with
      | .str text =>
        charge 0 [text]
        return .str text
      | _ => return .null
  | .presenceString, value => do
      charge 32 []
      match value with
      | .str text =>
        if text = "" then return .str ""
        else
          charge 0 [impactPresentString]
          return .str impactPresentString
      | _ => return .null
  | .boolean, value => do
      charge 32 []
      match value with
      | .bool flag => return .bool flag
      | _ => return .null
  | .object fields, value => do
      charge 32 []
      match value with
      | .obj object => return .obj (← projectFields fields object)
      | _ => return .null
  | .array element, value => do
      charge 32 []
      match value with
      | .arr items => return .arr (← items.mapM (projectImpactValue element))
      | _ => return .null

/-- The loop over the fields of an object shape. -/
def projectFields : List ImpactProjectionField → Object → Building Object
  | [], _ => return []
  | field :: fields, object => do
      let head ← projectField field object
      let tail ← projectFields fields object
      return head ++ tail

/-- The body of that loop. -/
def projectField : ImpactProjectionField → Object → Building Object
  | .mk name shape, object =>
    match object.lookup name with
    | none => return []
    | some entry => do
        charge 8 [name]
        return [(name, ← projectImpactValue shape entry)]

end

/-- `projectReferenceFields`. -/
def projectReferenceFields (r : Resource) : Building (Option Object) :=
  match impactReferenceShape r.kind r.groupVersion, r.raw with
  | some shape, some raw =>
    if r.uid = "" || r.resourceVersion = "" then return none
    else do
      match ← projectImpactValue shape (.obj raw) with
      | .obj (m :: ms) => return some (m :: ms)
      | _ => return none
  | _, _ => return none

/-- The loop over the owner references. -/
def chargeOwners : List OwnerRef → Building Unit
  | [] => return
  | owner :: owners => do
      charge 64 [owner.kind, owner.name, owner.uid]
      chargeOwners owners

/-- The part of `AddResource` below `SanitizeResource`, up to the
projected resource. -/
def projectResource (r : Resource) : Building Resource := do
  charge 512 [r.kind, r.name, r.ns, r.clusterID, r.groupVersion, r.uid, r.resourceVersion]
  chargeOwners r.ownerReferences
  let raw ← projectReferenceFields r
  return sanitizeResource
    { kind := r.kind, name := r.name, ns := r.ns, clusterID := r.clusterID, uid := r.uid,
      resourceVersion := r.resourceVersion, groupVersion := r.groupVersion,
      ownerReferences := r.ownerReferences, raw := raw }

/-- `AddResource`. -/
def addResource (r : Resource) : Building Unit := do
  let b ← get
  if r.clusterID ≠ b.opts.clusterID then return
  else if (b.graph.resources.length : Int) = b.opts.maxResources then throw .limit
  else
    let projected ← projectResource (sanitizeResource r)
    modify fun b =>
      { b with graph := { b.graph with resources := b.graph.resources ++ [projected] } }

/-- `AddEdge`. -/
def addEdge (e : Edge) : Building Unit := do
  let b ← get
  if !impactIDInCluster e.fromID b.opts.clusterID ||
      !impactIDInCluster e.toID b.opts.clusterID then return
  else if (b.graph.edges.length : Int) = b.opts.maxEdges then throw .limit
  else
    charge 96 [e.fromID, e.toID, e.type]
    modify fun b =>
      { b with
        graph := { b.graph with
          edges := b.graph.edges ++ [{ fromID := e.fromID, toID := e.toID, type := e.type }] } }

end Ledger

/-- A call of a method. -/
inductive BuilderCall where
  | addResource (r : Resource)
  | addEdge (e : Edge)

/-- What a call returns, and the builder after it. -/
def BuilderCall.perform (b : Ledger) : BuilderCall → Except SnapshotError Unit × Ledger
  | .addResource r => (Ledger.addResource r).run.run b
  | .addEdge e => (Ledger.addEdge e).run.run b

/-- A sequence of calls, whatever each of them returns. -/
def BuilderCall.performAll (b : Ledger) :
    List BuilderCall → List (Except SnapshotError Unit) × Ledger
  | [] => ([], b)
  | call :: calls =>
    let (result, b) := call.perform b
    let (results, b) := performAll b calls
    (result :: results, b)

end KubeAtlas.Graph
