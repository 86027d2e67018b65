import KubeAtlas.Graph.Security
import KubeAtlas.Lib.Objects
import KubeAtlas.Rego.Cache

/-!
# `KubeAtlas.Rego.Engine`: rule packs and their evaluation

`pkg/extractor/rego`: the router (`router.go`), the decoder of
results (`decode.go`) and the engine with its cache (`engine.go`). A
module is evaluated by the OPA library, which is not part of the
repository, nor is the LRU cache: `Externals` has the answers of the
one, the operations of the other, and the digest of a source text.

A result set is the list of its results, each with the values of its
expressions. Locks are left out, since a call of the engine runs
alone here, and so are log messages and the counters of timeouts and
panics.
-/

set_option autoImplicit false

namespace KubeAtlas.Rego

open KubeAtlas.Graph Lib

/-! ### The router -/

/-- `GVK`, and `GVKMatch` of a module. -/
structure GVK where
  group : String := ""
  kind : String := ""
  deriving DecidableEq, Repr

/-- `GVKOf`. -/
def gvkOf (r : Resource) : GVK :=
  match Strings.cut r.groupVersion '/' with
  | (group, _, true) =>
    if group = "" then { kind := r.kind } else { group := group, kind := r.kind }
  | (_, _, false) => { kind := r.kind }

/-- `ModuleSpec`, as far as the router reads it. -/
structure ModuleSpec where
  name : String
  gvkMatch : GVK
  deriving DecidableEq, Repr

/-- `Router`. -/
structure Router where
  byGVK : GoMap GVK (List ModuleSpec) := ∅
  wildcard : List ModuleSpec := []

/-- The name under which a module of a pack is loaded. -/
def namespaced (packName : String) (m : ModuleSpec) : ModuleSpec :=
  { m with name := packName ++ "/" ++ m.name }

/-- `Register`. -/
def Router.register (r : Router) (packName : String) (m : ModuleSpec) : Router :=
  if m.gvkMatch = {} then { r with wildcard := r.wildcard ++ [namespaced packName m] }
  else
    let known := (r.byGVK.lookup m.gvkMatch).getD []
    { r with byGVK := r.byGVK.insert m.gvkMatch (known ++ [namespaced packName m]) }

/-- `Match`. -/
def Router.matching (r : Router) (gvk : GVK) : List ModuleSpec :=
  (r.byGVK.lookup gvk).getD [] ++ r.wildcard

/-! ### Results -/

/-- `rego.ResultSet`. -/
abbrev ResultSet := List (List Json)

/-- What a `%T` verb prints of a value. -/
def typeName : Json → String
  | .null => "<nil>"
  | .bool _ => "bool"
  | .num _ => "json.Number"
  | .str _ => "string"
  | .arr _ => "[]interface \x7b\x7d"
  | .obj _ => "map[string]interface \x7b\x7d"

/-- The errors of the decoder. -/
inductive DecodeError where
  | item (i : Nat) (cause : DecodeError)
  | notMap (type : String)
  | missingType
  | endpoint (side type : String)
  | missingKind (side : String)
  | missingName (side : String)
  | output (type : String)
  deriving DecidableEq, Repr

def DecodeError.message : DecodeError → String
  | .item i cause => "edge[" ++ toString i ++ "]: " ++ cause.message
  | .notMap type => "entry " ++ type ++ " is not a map"
  | .missingType => "missing or non-string \"type\""
  | .endpoint side type => side ++ ": not a map (got " ++ type ++ ")"
  | .missingKind side => side ++ ".kind missing or non-string"
  | .missingName side => side ++ ".name missing or non-string"
  | .output type =>
    "unexpected rego output type " ++ type ++ " (want []any or map[string]any)"

/-- `m[key]`, with nil if there is no such key. -/
def member (m : Object) (key : String) : Json := (m.lookup key).getD .null

/-- `decodeEndpoint`. -/
def decodeEndpoint (raw : Json) (side : String) : Except DecodeError String :=
  match raw.members? with
  | none => .error (.endpoint side (typeName raw))
  | some m =>
    let kind := (member m "kind").text
    let name := (member m "name").text
    if kind = "" then .error (.missingKind side)
    else if name = "" then .error (.missingName side)
    else .ok ((member m "namespace").text ++ "/" ++ kind ++ "/" ++ name)

/-- `decodeEdgeMap`. -/
def decodeEdgeMap (item : Json) : Except DecodeError Edge :=
  match item.members? with
  | none => .error (.notMap (typeName item))
  | some m =>
    let type := (member m "type").text
    if type = "" then .error .missingType
    else do
      let fromID ← decodeEndpoint (member m "from") "from"
      let toID ← decodeEndpoint (member m "to") "to"
      return { fromID := fromID, toID := toID, type := type }

/-- The loop of `decodeEdges`, from the given index. -/
def decodeItems : Nat → List Json → Except DecodeError (List Edge)
  | _, [] => .ok []
  | i, item :: items =>
    match decodeEdgeMap item with
    | .error cause => .error (.item i cause)
    | .ok e => (decodeItems (i + 1) items).map (e :: ·)

/-- `decodeEdges`. -/
def decodeEdges : ResultSet → Except DecodeError (List Edge)
  | (raw :: _) :: _ =>
    match raw with
    | .null => .ok []
    | .arr items => decodeItems 0 items
    | .obj members => (decodeEdgeMap (.obj members)).map ([·])
    | raw => .error (.output (typeName raw))
  | _ => .ok []

/-! ### The engine -/

/-- What `LoadModule` is given. -/
structure Module where
  name : String
  source : String
  entrypoint : String
  deriving DecidableEq, Repr

/-- `compiledModule`. The prepared query stands for the module it
was made of. -/
structure CompiledModule where
  query : Module
  ruleHash : String
  deriving DecidableEq, Repr

/-- The OPA library, `crypto/sha256` and the LRU library: the error
of `PrepareForEval`, if there is one, what a query returns under the
guards, the digest in hexadecimal, and the operations of a cache. -/
structure Externals (S : Type) where
  prepare : Module → Option String
  eval : Module → Json → Except String ResultSet
  sum : String → String
  lru : CacheOps S CacheKey (List Edge)

/-- The errors of the evaluation of one module. -/
inductive RuleError where
  | notLoaded (name : String)
  | eval (cause : String)
  | decode (cause : DecodeError)
  deriving DecidableEq, Repr

/-- The errors of the engine. -/
inductive EngineError where
  | required
  | prepare (name cause : String)
  | noRouter
  | noCache
  | moduleNotLoaded (name id : String)
  | rule (name id : String) (cause : RuleError)
  deriving DecidableEq, Repr

/-- The texts of the errors. `quote` is the `%q` verb of `fmt`. -/
def RuleError.message (quote : String → String) : RuleError → String
  | .notLoaded name => "rego.Evaluate: module " ++ quote name ++ " not loaded"
  | .eval cause => cause
  | .decode cause => cause.message

def EngineError.message (quote : String → String) : EngineError → String
  | .required => "rego.LoadModule: name, source, entrypoint all required"
  | .prepare name cause => "rego.LoadModule " ++ name ++ ": " ++ cause
  | .noRouter => "rego.EvaluateForResource: no router; call New(WithRouter(...))"
  | .noCache => "rego.EvaluateForResource: no cache; call New(WithCache(...))"
  | .moduleNotLoaded name id =>
    "eval rule " ++ name ++ " on " ++ id ++ ": module not loaded into engine"
  | .rule name id cause => "eval rule " ++ name ++ " on " ++ id ++ ": " ++ cause.message quote

/-- `Engine`. -/
structure Engine (S : Type) where
  modules : GoMap String CompiledModule := ∅
  router : Option Router := none
  cache : Option (Cache S) := none

/-- A map of texts as a value. -/
def jsonOf (m : StringMap) : Json := .obj (m.map fun e => (e.1, .str e.2))

/-- `buildEvalInput`. -/
def buildEvalInput (r : Resource) : Json :=
  let r := sanitizeResource r
  match r.raw with
  | some raw => .obj raw
  | none =>
    .obj [("kind", .str r.kind), ("apiVersion", .str r.groupVersion),
      ("metadata", .obj [("namespace", .str r.ns), ("name", .str r.name), ("uid", .str r.uid),
        ("labels", jsonOf r.labels), ("annotations", jsonOf r.annotations),
        ("resourceVersion", .str r.resourceVersion)]),
      ("spec", .null)]

/-- The key of a module and a resource in the cache. -/
def cacheKey (r : Resource) (cm : CompiledModule) : CacheKey :=
  { uid := r.uid, resourceVersion := r.resourceVersion, ruleHash := cm.ruleHash }

namespace Engine

variable {S : Type} (ext : Externals S)

/-- `LoadModule`. -/
def loadModule (e : Engine S) (m : Module) : Except EngineError (Engine S) :=
  if m.name = "" ∨ m.source = "" ∨ m.entrypoint = "" then .error .required
  else
    match ext.prepare m with
    | some cause => .error (.prepare m.name cause)
    | none =>
      .ok { e with modules := e.modules.insert m.name
                     { query := m, ruleHash := ext.sum m.source } }

/-- `Evaluate`. -/
def evaluate (e : Engine S) (name : String) (input : Json) : Except RuleError ResultSet :=
  match e.modules.lookup name with
  | none => .error (.notLoaded name)
  | some m => (ext.eval m.query input).mapError .eval

/-- The function that `EvaluateForResource` passes to the cache. -/
def evaluateEdges (e : Engine S) (name : String) (input : Json) : Except RuleError (List Edge) :=
  match e.evaluate ext name input with
  | .error err => .error err
  | .ok rs => (decodeEdges rs).mapError .decode

/-- The loop of `EvaluateForResource`. -/
def evaluateMatches (e : Engine S) (r : Resource) (cache : Cache S) :
    List ModuleSpec → Except EngineError (List Edge) × Cache S
  | [] => (.ok [], cache)
  | m :: ms =>
    match e.modules.lookup m.name with
    | none => (.error (.moduleNotLoaded m.name r.ID), cache)
    | some cm =>
      match cache.getOrEvaluate ext.lru (cacheKey r cm)
          (e.evaluateEdges ext m.name (buildEvalInput r)) with
      | (.error cause, cache) => (.error (.rule m.name r.ID cause), cache)
      | (.ok edges, cache) =>
        let (rest, cache) := e.evaluateMatches r cache ms
        (rest.map (edges ++ ·), cache)

/-- `EvaluateForResource`. -/
def evaluateForResource (e : Engine S) (r : Resource) :
    Except EngineError (List Edge) × Engine S :=
  match e.router, e.cache with
  | none, _ => (.error .noRouter, e)
  | some _, none => (.error .noCache, e)
  | some router, some cache =>
    let (out, cache) := e.evaluateMatches ext r cache (router.matching (gvkOf r))
    (out, { e with cache := some cache })

/-- `New(WithRouter(NewRouter()), WithCache(NewCache(size)))`. -/
def new (size : Int) : Engine S where
  router := some {}
  cache := some { lru := ext.lru.new (cacheCapacity size) }

/-- What happens to an engine. A module that cannot be loaded leaves
it as it is. -/
inductive Op where
  | load (m : Module)
  | register (packName : String) (m : ModuleSpec)
  | evaluate (r : Resource)

/-- One operation. -/
def step (e : Engine S) : Op → Engine S
  | .load m => (e.loadModule ext m).toOption.getD e
  | .register packName m => { e with router := e.router.map fun r => r.register packName m }
  | .evaluate r => (e.evaluateForResource ext r).2

/-- A history. -/
def run (size : Int) (ops : List Op) : Engine S :=
  ops.foldl (step ext) (new ext size)

end Engine

end KubeAtlas.Rego
