import KubeAtlas.Graph.Projection
import KubeAtlas.Lib.Jsonb
import KubeAtlas.Lib.SqlText

/-!
# `KubeAtlas.Store.PostgresImpact`: the impact snapshot of the Postgres backend

`pkg/store/postgres/impact.go` and `impact_reference_projection.go`.
The rows are selected and projected by SQL; what the query returns
is decoded and projected again by `ImpactProjectionBuilder`. The
allowlist is compiled into nested `jsonb` expressions: `project` is
that compiler, and `SqlExpr.eval` the meaning of what it emits.

A row of `resources` is its `data` column, since `cluster_id` is
generated from it. The failures of the connection and the
transaction are not part of the model.
-/

set_option autoImplicit false

namespace KubeAtlas.Store

open KubeAtlas.Graph Lib
open Lib.Jsonb (JsonType)

/-! ### Stored rows -/

/-- A member with the option `omitempty`. -/
def omitEmpty (key s : String) : Object := if s = "" then [] else [(key, .str s)]

/-- A map with the option `omitempty`. -/
def omitEmptyMap (key : String) (entries : StringMap) : Object :=
  if entries = [] then [] else [(key, .obj (entries.map fun entry => (entry.1, .str entry.2)))]

/-- An owner reference in JSON. -/
def encodeOwner (owner : OwnerRef) : Json :=
  .obj [("kind", .str owner.kind), ("name", .str owner.name), ("uid", .str owner.uid)]

/-- A slice of owner references with the option `omitempty`. -/
def omitEmptyOwners (key : String) (owners : List OwnerRef) : Object :=
  if owners = [] then [] else [(key, .arr (owners.map encodeOwner))]

/-- A raw object with the option `omitempty`, which drops a nil map
and an empty one. -/
def omitEmptyRaw (key : String) : Option Object → Object
  | some (m :: ms) => [(key, .obj (m :: ms))]
  | _ => []

/-- `storageBlob`: what `UpsertResource` writes for a resource. -/
def storageBlob (r : Resource) : Object :=
  [("kind", .str r.kind), ("name", .str r.name), ("namespace", .str r.ns)] ++
    omitEmptyMap "labels" r.labels ++
    omitEmpty "groupVersion" r.groupVersion ++
    omitEmpty "uid" r.uid ++
    omitEmptyMap "annotations" r.annotations ++
    omitEmptyOwners "ownerReferences" r.ownerReferences ++
    omitEmpty "resourceVersion" r.resourceVersion ++
    omitEmpty "clusterId" r.clusterID ++
    omitEmptyRaw "raw" r.raw

/-- The generated column `cluster_id`. -/
def clusterIDColumn (data : Object) : String := (Jsonb.getText (.obj data) "clusterId").getD ""

/-! ### The allowlist in SQL -/

/-- A source expression: `(data->'raw')`, the column `value` of an
alias, or a member of a source. -/
inductive SqlPath where
  | raw
  | value (field : Nat)
  | get (source : SqlPath) (key : String)

mutual

/-- The expressions that the compiler emits, one constructor for each kind of shape. All
of them are `CASE WHEN jsonb_typeof(source) = … THEN … ELSE 'null'::jsonb END`.

* `scalar type source`: the source itself.
* `presence source`: the empty text, or the marker of a text that is not empty.
* `array field source item`: `jsonb_agg(item)` over the elements of the source, in
  their order, under the alias `field`, or `'[]'` if there are none.
* `object field source rows`: `jsonb_object_agg` over the rows whose name is a key of
  the source, or an empty object if there are none. -/
inductive SqlExpr where
  | scalar (type : JsonType) (source : SqlPath)
  | presence (source : SqlPath)
  | array (field : Nat) (source : SqlPath) (item : SqlExpr)
  | object (field : Nat) (source : SqlPath) (rows : List SqlRow)

/-- A row `(name, source ? name, item)` of the `VALUES` list of an
object. -/
inductive SqlRow where
  | mk (name : String) (item : SqlExpr)

end

/-- The meaning of a source, given the column `data->'raw'` and the
aliases in scope. -/
def SqlPath.eval (raw : Option Json) (scope : Nat → Option Json) : SqlPath → Option Json
  | .raw => raw
  | .value name => scope name
  | .get source key => (source.eval raw scope).bind fun v => Jsonb.get v key

mutual

/-- The meaning of an expression. -/
def SqlExpr.eval (raw : Option Json) : (scope : Nat → Option Json) → SqlExpr → Json
  | scope, .scalar type source =>
    match source.eval raw scope with
    | some v => if Jsonb.typeOf v = type then v else .null
    | none => .null
  | scope, .presence source =>
    match source.eval raw scope with
    | some (.str text) => if text = "" then .str "" else .str impactPresentString
    | _ => .null
  | scope, .array name source item =>
    match source.eval raw scope with
    | some (.arr items) =>
      .arr (items.map fun v => item.eval raw (Function.update scope name (some v)))
    | _ => .null
  | scope, .object _ source rows =>
    match source.eval raw scope with
    | some (Json.obj members) => .obj (SqlExpr.evalRows raw scope members rows)
    | _ => .null

/-- The rows of an object whose name is a key of it. -/
def SqlExpr.evalRows (raw : Option Json) (scope : Nat → Option Json) (members : Object) :
    List SqlRow → Object
  | [] => []
  | row :: rows => SqlExpr.evalRow raw scope members row ++ SqlExpr.evalRows raw scope members rows

def SqlExpr.evalRow (raw : Option Json) (scope : Nat → Option Json) (members : Object) :
    SqlRow → Object
  | .mk name item =>
    match members.lookup name with
    | none => []
    | some _ => [(name, item.eval raw scope)]

end

mutual

/-- `impactSQLCompiler.project`, with the sequence number of the
last alias before and after. -/
def project : ImpactFieldShape → SqlPath → Nat → SqlExpr × Nat
  | .string, source, sequence => (.scalar .string source, sequence)
  | .boolean, source, sequence => (.scalar .boolean source, sequence)
  | .presenceString, source, sequence => (.presence source, sequence)
  | .array element, source, sequence =>
    let item := project element (.value (sequence + 1)) (sequence + 1)
    (.array (sequence + 1) source item.1, item.2)
  | .object fields, source, sequence =>
    let rows := projectRows fields source (sequence + 1)
    (.object (sequence + 1) source rows.1, rows.2)

/-- The loop over the fields of an object shape. -/
def projectRows : List ImpactProjectionField → SqlPath → Nat → List SqlRow × Nat
  | [], _, sequence => ([], sequence)
  | field :: fields, source, sequence =>
    let row := projectRow field source sequence
    let rows := projectRows fields source row.2
    (row.1 :: rows.1, rows.2)

def projectRow : ImpactProjectionField → SqlPath → Nat → SqlRow × Nat
  | .mk name shape, source, sequence =>
    let item := project shape (.get source name) sequence
    (.mk name item.1, item.2)

end

/-- The layouts of `impactReferenceSQL`: the kind and version that
name the shape, and the condition of the `WHEN`. -/
def impactLayouts : List ((String × String) × (String → String → Bool)) :=
  [(("Pod", "v1"), fun kind gv => kind = "Pod" && gv = "v1"),
    (("Deployment", "apps/v1"), fun kind gv =>
      (["Deployment", "ReplicaSet", "StatefulSet", "DaemonSet"].contains kind &&
          gv = "apps/v1") || (kind = "Job" && gv = "batch/v1")),
    (("CronJob", "batch/v1"), fun kind gv => kind = "CronJob" && gv = "batch/v1")]

/-- The loop of `impactReferenceSQL`. One compiler serves all
layouts, so that their aliases are numbered through. -/
def impactCases : List ((String × String) × (String → String → Bool)) → Nat →
    List ((String → String → Bool) × SqlExpr)
  | [], _ => []
  | (sample, condition) :: layouts, sequence =>
    match impactReferenceShape sample.1 sample.2 with
    | none => impactCases layouts sequence
    | some shape =>
      let expr := project shape .raw sequence
      (condition, expr.1) :: impactCases layouts expr.2

/-- `impactReferenceSQL`. A comparison with `NULL` holds no `WHEN`. -/
def impactReferenceSQL (data : Object) : Option Json :=
  if (Jsonb.getText (.obj data) "uid").getD "" = "" ||
      (Jsonb.getText (.obj data) "resourceVersion").getD "" = "" then none
  else
    match Jsonb.getText (.obj data) "kind", Jsonb.getText (.obj data) "groupVersion" with
    | some kind, some gv =>
      ((impactCases impactLayouts 0).find? fun branch => branch.1 kind gv).map fun branch =>
        branch.2.eval (data.lookup "raw") fun _ => none
    | _, _ => none

/-! ### The rows of `resources` in a cluster -/

/-- An owner reference that the query refuses to project. -/
def invalidOwner : Json → Bool
  | .obj fields => fields.any fun field =>
    ["kind", "name", "uid"].contains field.1 &&
      !([JsonType.string, .null].contains (Jsonb.typeOf field.2))
  | _ => true

/-- What the query returns in their place. -/
def invalidOwnerReferences : Json := .str "invalid owner references"

/-- `impactOwnerReferencesSQL`. -/
def impactOwnerReferencesSQL (data : Object) : Option Json :=
  match data.lookup "ownerReferences" with
  | none | some .null => none
  | some (.arr owners) =>
    if owners.any invalidOwner then some invalidOwnerReferences
    else some (.arr (owners.map fun owner =>
      .obj (["kind", "name", "uid"].map fun key => (key, (Jsonb.get owner key).getD .null))))
  | some _ => some invalidOwnerReferences

/-- A member whose value the query does not take for a text. -/
def invalidMember (data : Object) (member : String × Json) : Bool :=
  (["kind", "name", "namespace"].contains member.1 ||
      (Jsonb.getText (.obj data) "kind" ≠ some "Secret" &&
        ["uid", "groupVersion", "resourceVersion"].contains member.1)) &&
    !([JsonType.string, .null].contains (Jsonb.typeOf member.2))

/-- `data->>'key'` as an argument of `jsonb_build_object`. -/
def textColumn (data : Object) (key : String) : Json :=
  Jsonb.ofText (Jsonb.getText (.obj data) key)

/-- The column `projected` of `impactResourcesSQL`; `none` is
`NULL`. -/
def projectedColumn (data : Object) : Option Json :=
  if data.any (invalidMember data) then none
  else if Jsonb.getText (.obj data) "kind" = some "Secret" then
    some (.obj [("kind", .str "Secret"), ("name", textColumn data "name"),
      ("namespace", textColumn data "namespace"), ("clusterId", .str (clusterIDColumn data))])
  else
    some (.obj (Jsonb.concat
      (Jsonb.stripMembers [("kind", textColumn data "kind"), ("name", textColumn data "name"),
        ("namespace", textColumn data "namespace"), ("clusterId", .str (clusterIDColumn data)),
        ("uid", textColumn data "uid"), ("groupVersion", textColumn data "groupVersion"),
        ("resourceVersion", textColumn data "resourceVersion"),
        ("ownerReferences", (impactOwnerReferencesSQL data).getD .null)])
      [("referenceFields", (impactReferenceSQL data).getD .null)]))

/-- The outer `SELECT`: a row whose text is longer than the budget
becomes `NULL`. -/
def capped (maxBytes : Int) (projected : Option Json) : Option Json :=
  projected.filter fun v => (Strings.len (Jsonb.render v) : Int) ≤ maxBytes

/-- `impactResourcesSQL`. -/
def impactResourcesSQL (rows : List Object) (cluster : String) (limit maxBytes : Int) :
    List (Option Json) :=
  ((rows.filter fun data => clusterIDColumn data = cluster).take limit.toNat).map fun data =>
    capped maxBytes (projectedColumn data)

/-! ### The rows of `edges` in a cluster -/

/-- What the `WHERE` clause of `impactEdgesSQL` asks of the
cluster prefix of one endpoint, with `cluster` for `$1`. -/
def prefixCondition (cluster id : String) : Bool :=
  let head := SqlText.splitPart id '/' 1
  (cluster = "" && SqlText.strpos head ':' = 0) ||
    (cluster ≠ "" && SqlText.strpos head ':' > 0 && SqlText.splitPart head ':' 1 = cluster)

/-- The `WHERE` clause of `impactEdgesSQL`. -/
def impactEdgesWhere (cluster fromID toID : String) : Bool :=
  SqlText.strpos fromID '/' > 0 && SqlText.strpos toID '/' > 0 &&
    prefixCondition cluster fromID && prefixCondition cluster toID

/-- The column `projected` of `impactEdgesSQL`. -/
def edgeColumn (k : EdgeKey) : Json :=
  .obj [("from", .str k.fromID), ("to", .str k.toID), ("type", .str k.type)]

/-- `impactEdgesSQL`. -/
def impactEdgesSQL (rows : List EdgeKey) (cluster : String) (limit maxBytes : Int) :
    List (Option Json) :=
  ((rows.filter fun k => impactEdgesWhere cluster k.fromID k.toID).take limit.toNat).map fun k =>
    capped maxBytes (some (edgeColumn k))

/-! ### Decoding -/

/-- The errors of the read: those of the builder, and a row that
does not decode. -/
inductive ImpactRowError where
  | snapshot (e : SnapshotError)
  | invalidResource
  | invalidEdge
  deriving DecidableEq, Repr

section Decode

variable (invalid : ImpactRowError)

/-- A member decoded into a Go string. A missing member and `null`
leave it empty. -/
def decodeString (members : Object) (key : String) : Except ImpactRowError String :=
  match members.lookup key with
  | none | some .null => .ok ""
  | some (.str s) => .ok s
  | some _ => .error invalid

/-- An item decoded into an `OwnerRef`. -/
def decodeOwner : Json → Except ImpactRowError OwnerRef
  | .null => .ok ⟨"", "", ""⟩
  | .obj members => do
      return ⟨← decodeString invalid members "kind", ← decodeString invalid members "name",
        ← decodeString invalid members "uid"⟩
  | _ => .error invalid

/-- A member decoded into a slice of owner references. -/
def decodeOwners (members : Object) : Except ImpactRowError (List OwnerRef) :=
  match members.lookup "ownerReferences" with
  | none | some .null => .ok []
  | some (.arr owners) => owners.mapM (decodeOwner invalid)
  | some _ => .error invalid

/-- A member decoded into a `map[string]any`. -/
def decodeObject (members : Object) (key : String) : Except ImpactRowError (Option Object) :=
  match members.lookup key with
  | none | some .null => .ok none
  | some (.obj object) => .ok (some object)
  | some _ => .error invalid

end Decode

/-- A row of `impactResourcesSQL` decoded, with `ReferenceFields`
for `Raw`. The columns `labels` and `annotations` are not selected,
so their maps stay nil. -/
def decodeResource : Json → Except ImpactRowError Resource
  | .obj members => do
      let text := decodeString .invalidResource members
      return {
        kind := ← text "kind", name := ← text "name", ns := ← text "namespace"
        groupVersion := ← text "groupVersion", uid := ← text "uid"
        ownerReferences := ← decodeOwners .invalidResource members
        resourceVersion := ← text "resourceVersion", clusterID := ← text "clusterId"
        raw := ← decodeObject .invalidResource members "referenceFields" }
  | _ => .error .invalidResource

/-- A row of `impactEdgesSQL` decoded. -/
def decodeEdge : Json → Except ImpactRowError Edge
  | .obj members => do
      let text := decodeString .invalidEdge members
      return { fromID := ← text "from", toID := ← text "to", type := ← text "type" }
  | _ => .error .invalidEdge

/-! ### The snapshot -/

/-- `readImpactRows`: a `NULL` row is over the budget. -/
def readImpactRows {σ : Type} (add : σ → Json → Except ImpactRowError σ) (s : σ)
    (rows : List (Option Json)) : Except ImpactRowError σ :=
  rows.foldlM
    (fun s body =>
      match body with
      | none => .error (.snapshot .limit)
      | some v => add s v) s

/-- The two tables. -/
structure ImpactTables where
  resources : List Object
  edges : List EdgeKey

/-- The callback on a row of `resources`. -/
def addResourceRow (b : ImpactProjectionBuilder) (body : Json) :
    Except ImpactRowError ImpactProjectionBuilder := do
  let r ← decodeResource body
  (b.addResource r).mapError .snapshot

/-- The callback on a row of `edges`. -/
def addEdgeRow (b : ImpactProjectionBuilder) (body : Json) :
    Except ImpactRowError ImpactProjectionBuilder := do
  let e ← decodeEdge body
  (b.addEdge e).mapError .snapshot

/-- `SnapshotImpact`. The options are normalized here and once more
by the builder. -/
def ImpactTables.snapshotImpact (t : ImpactTables) (opts : ImpactSnapshotOptions) :
    Except ImpactRowError Graph := do
  let opts ← opts.normalize.mapError .snapshot
  let builder ← (newImpactProjectionBuilder opts).mapError .snapshot
  let builder ← readImpactRows addResourceRow builder
    (impactResourcesSQL t.resources opts.clusterID (opts.maxResources + 1) opts.maxBytes)
  let builder ← readImpactRows addEdgeRow builder
    (impactEdgesSQL t.edges opts.clusterID (opts.maxEdges + 1) opts.maxBytes)
  return builder.graph

end KubeAtlas.Store
