import KubeAtlas.Lib.RecursiveQuery
import KubeAtlas.Store.Queries

/-!
# `KubeAtlas.Store.Postgres`: listings and the traversal of the Postgres store

`ListReachable` of `pkg/store/postgres/cypher.go`, which walks the
plain `edges` table with a recursive common table expression, and
the condition of `ListResources` in `pkg/store/postgres/store.go`.
The database is the two tables the queries read. `resources` has the
primary key `id`, `edges` the primary key `(from_id, to_id, type)`,
and a `data` column is the resource it decodes to.
-/

set_option autoImplicit false

namespace KubeAtlas.Store

open KubeAtlas.Graph Lib

/-- A row of `resources`. -/
structure ResourceRow where
  id : String
  data : Resource

/-- The tables a traversal reads. -/
structure PostgresStore where
  resources : List ResourceRow
  edges : List EdgeKey

/-- A row of the common table expression `walk`. -/
structure WalkRow where
  nodeID : String
  depth : Nat
  deriving DecidableEq, Repr

/-- `have @> want` for two `jsonb` objects whose members are texts. -/
def containsLabels (have' want : StringMap) : Bool :=
  want.all fun label => have'.lookup label.1 = some label.2

/-- The condition of `ListResources` on a row. Labels that are empty
are left out of the `data` column, so that `data->'labels'` is
`NULL`; the parameter `$3` is `NULL` without a filter. -/
def Filter.sqlSelects (filter : Filter) (data : Resource) : Bool :=
  let labels : Option StringMap := if data.labels.isEmpty then none else some data.labels
  (filter.kind = "" || data.kind = filter.kind) && (filter.ns = "" || data.ns = filter.ns) &&
    (filter.labels.isEmpty || labels.any fun labels => containsLabels labels filter.labels) &&
    (filter.clusterID = "" || data.clusterID = filter.clusterID)

namespace PostgresStore

/-- `safeIdent`, the expression `^[A-Za-z][A-Za-z0-9_]*$`. -/
def safeIdent (text : String) : Bool :=
  match text.toList with
  | [] => false
  | c :: cs => c.isAlpha && cs.all fun d => d.isAlphanum || d = '_'

/-- `knownEdgeLabels`. -/
def knownEdgeLabels : List EdgeType :=
  [.owns, .usesConfigMap, .usesSecret, .mountsVolume, .selects, .usesServiceAccount,
    .routesTo, .attachedTo, .bindsSubject, .bindsRole]

/-- `edgeLabelKnown`. -/
def edgeLabelKnown (t : EdgeType) : Bool := safeIdent t && knownEdgeLabels.contains t

section Traverse

variable (s : PostgresStore) (near far : EdgeKey → String) (types : List EdgeType)

/-- The non-recursive term. -/
def traverseBase (startID : String) : List WalkRow :=
  (s.edges.filter fun e => near e = startID && edgeTypeAllowed types e.type).map fun e =>
    ⟨far e, 1⟩

/-- The recursive term: `edges` joined with `walk`. -/
def traverseStep (depth : Nat) (walk : List WalkRow) : List WalkRow :=
  s.edges.flatMap fun e =>
    (walk.filter fun w =>
      near e = w.nodeID && w.depth < depth && edgeTypeAllowed types e.type).map fun w =>
        ⟨far e, w.depth + 1⟩

/-- The query. Its last part joins `walk` with `resources` and
groups by the primary key, so a resource row is returned once if any
row of `walk` names it. -/
def traverseSQL (startID : String) (depth : Nat) : Option (List Resource) :=
  (RecursiveQuery.evaluate (s.traverseStep near far types depth) depth
    (s.traverseBase near far types startID)).map fun walk =>
      (s.resources.filter fun r => walk.any fun w => r.id = w.nodeID).map ResourceRow.data

end Traverse

/-- `ListReachable`. The outer `none` is a query that never ends. -/
def listReachable (s : PostgresStore) (startID : String) (opts : TraverseOptions) :
    Option (Except StoreError (List Resource)) :=
  let depth := traverseDepth opts.maxDepth
  let query (near far : EdgeKey → String) :=
    match opts.edgeTypes.find? fun t => !edgeLabelKnown t with
    | some t => some (.error (.unknownEdgeType t))
    | none => (s.traverseSQL near far opts.edgeTypes startID depth).map .ok
  match opts.direction with
  | .incoming => query EdgeKey.toID EdgeKey.fromID
  | .outgoing => query EdgeKey.fromID EdgeKey.toID
  | .other text => some (.error (.invalidDirection "ListReachable" (.other text)))

end PostgresStore

end KubeAtlas.Store
