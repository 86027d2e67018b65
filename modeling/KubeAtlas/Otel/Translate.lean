import KubeAtlas.Lib.NestedMap
import KubeAtlas.Operations.Evidence

/-!
# `KubeAtlas.Otel.Translate`: spans from OTLP requests

`translate` of `pkg/otel/receiver.go` and what it calls, over the
decoded request. Times come from the network as unsigned numbers of
64 bits and are converted to signed ones.
-/

set_option autoImplicit false

namespace KubeAtlas.Otel

open Lib
open Operations (Time)

/-- `AnyValue`. A double is given by its bits; what is in arrays,
lists and bytes is not read. -/
inductive AnyValue where
  | string (s : String)
  | bool (b : Bool)
  | int (i : Int64)
  | double (bits : UInt64)
  | other

/-- `KeyValue`. -/
structure KeyValue where
  key : String
  value : Option AnyValue

/-- `Span` of OTLP. -/
structure OtlpSpan where
  traceId : List UInt8
  spanId : List UInt8
  parentSpanId : List UInt8
  startTimeUnixNano : UInt64
  endTimeUnixNano : UInt64
  attributes : List KeyValue

/-- `ResourceSpans`, with the attributes of the resource and the
spans of each scope. -/
structure ResourceSpans where
  attributes : List KeyValue
  scopeSpans : List (List OtlpSpan)

/-- The `ResourceSpans` of a request. -/
abbrev ExportTraceServiceRequest := List ResourceSpans

/-- `Span` of `pkg/graph/span.go`. -/
structure Span where
  traceID : String
  spanID : String
  parentSpanID : String := ""
  serviceName : String := ""
  k8sNamespace : String := ""
  k8sPod : String := ""
  k8sDeployment : String := ""
  startTime : Time := 0
  durationNS : Int64 := 0
  attributes : Option (GoMap String (Option AnyValue)) := none

/-- `attrMap`. -/
def attrMap (kvs : List KeyValue) : GoMap String (Option AnyValue) :=
  kvs.foldl (fun m kv => m.insert kv.key kv.value) ∅

/-- `GetStringValue`. -/
def getStringValue : Option AnyValue → String
  | some (.string s) => s
  | _ => ""

/-- `stringAttr`. -/
def stringAttr (m : GoMap String (Option AnyValue)) (key : String) : String :=
  match m.lookup key with
  | some v => getStringValue v
  | none => ""

/-- `scalar`. -/
def scalar : Option AnyValue → Option AnyValue
  | some .other => some (.string "")
  | v => v

/-- `flattenAttrs`. -/
def flattenAttrs (kvs : List KeyValue) : Option (GoMap String (Option AnyValue)) :=
  if kvs.length = 0 then none
  else some (kvs.foldl (fun m kv => m.insert kv.key (scalar kv.value)) ∅)

/-- `hex.EncodeToString`. -/
def encodeToString (src : List UInt8) : String :=
  String.ofList (src.flatMap fun b =>
    [Nat.digitChar (b.toNat / 16), Nat.digitChar (b.toNat % 16)])

/-- The epoch of Unix. -/
def unixEpoch : Time := 62135596800 * 1000000000

/-- `time.Unix(0, nsec)`. -/
def unix (nsec : Int64) : Time := unixEpoch + nsec.toInt

/-- What `translate` appends for a span of a resource with the given
attributes. -/
def translateSpan (ra : GoMap String (Option AnyValue)) (sp : OtlpSpan) : Span :=
  let start := sp.startTimeUnixNano
  { traceID := encodeToString sp.traceId
    spanID := encodeToString sp.spanId
    parentSpanID := encodeToString sp.parentSpanId
    serviceName := stringAttr ra "service.name"
    k8sNamespace := stringAttr ra "k8s.namespace.name"
    k8sPod := stringAttr ra "k8s.pod.name"
    k8sDeployment := stringAttr ra "k8s.deployment.name"
    startTime := unix start.toInt64
    durationNS := if sp.endTimeUnixNano > start then (sp.endTimeUnixNano - start).toInt64 else 0
    attributes := flattenAttrs sp.attributes }

/-- `translate`. -/
def translate (req : ExportTraceServiceRequest) : List Span :=
  req.flatMap fun rs => rs.scopeSpans.flatMap fun spans =>
    spans.map (translateSpan (attrMap rs.attributes))

end KubeAtlas.Otel
