import KubeAtlas.Extractor.Registry
import KubeAtlas.Lib.Interleave
import KubeAtlas.Store.History

/-!
# `KubeAtlas.Discovery.Informer`: the callbacks of the informer manager

`pkg/discovery/informer.go`. Every watched type has an informer of
its own, whose callbacks run one after the other; callbacks of
different types run concurrently. They share the graph store, the
cache of written versions and the cache of kinds, each behind its
own lock. A callback is therefore a program whose calls are the
operations that hold one of those locks, and any interleaving of the
calls of several callbacks can happen.

`Call` lists these operations and the effects that leave the
manager: events for the snapshot writer, messages to clients and
gaps in the coverage evidence. `Answer` says what each call does. A
store call may fail, and then it has changed nothing. The order in
which the store ranges over its maps may differ from call to call.
Logging is left out.
-/

set_option autoImplicit false

namespace KubeAtlas.Discovery

open Extractor KubeAtlas.Graph Lib
open Operations (CoverageReason GroupVersionResource)
open Store

/-! ### Objects -/

/-- `unstructured.Unstructured`, as its accessors show it. `object`
is the decoded object itself. -/
structure Unstructured where
  kind : String
  apiVersion : String := ""
  ns : String := ""
  name : String
  uid : String := ""
  resourceVersion : String := ""
  labels : StringMap := []
  annotations : StringMap := []
  ownerReferences : List OwnerRef := []
  object : Object := []

/-- What an informer hands to a callback. -/
inductive Delivery where
  | object (u : Unstructured)
  | tombstone (last : Delivery)
  | other

/-- `toUnstructured`. -/
def toUnstructured : Delivery → Option Unstructured
  | .object u => some u
  | _ => none

/-- `UnstructuredToResource`. -/
def unstructuredToResource (u : Unstructured) (kind : String) : Resource :=
  sanitizeResource
    { kind := kind, name := u.name, ns := u.ns, labels := u.labels
      groupVersion := u.apiVersion, uid := u.uid, annotations := u.annotations
      ownerReferences := u.ownerReferences, resourceVersion := u.resourceVersion
      raw := some u.object }

/-- The first letter of a resource name in upper case. -/
def capitalized : List Char → List Char
  | [] => []
  | c :: cs => c.toUpper :: cs

/-- `defaultKindFromResource`. The slices of a name that is empty,
or nothing but its ending, are out of range. -/
def defaultKindFromResource (r : String) : Option String :=
  let cs := r.toList
  if r = "" || r = "s" || r = "ies" then none
  else
    some <| String.ofList <| capitalized <|
      if Strings.hasSuffix r "ies" then cs.dropLast.dropLast.dropLast ++ ['y']
      else if Strings.hasSuffix r "ses" then cs.dropLast.dropLast
      else if Strings.hasSuffix r "s" then cs.dropLast
      else cs

/-- `isCoreSecretGVR`. -/
def isCoreSecretGVR (gvr : GroupVersionResource) : Bool :=
  gvr.group = "" && gvr.resource = "secrets"

/-- `skippedGVRs`. -/
def skippedGVRs : List String :=
  ["v1/events", "events.k8s.io/v1/events", "coordination.k8s.io/v1/leases",
    "authentication.k8s.io/v1/tokenreviews", "authorization.k8s.io/v1/subjectaccessreviews",
    "authorization.k8s.io/v1/selfsubjectaccessreviews", "v1/endpoints",
    "discovery.k8s.io/v1/endpointslices", "v1/componentstatuses", "v1/bindings"]

/-- `isSkipped`. The key of a core type has no group in front. -/
def isSkipped (gvr : GroupVersionResource) : Bool :=
  isCoreSecretGVR gvr ||
    skippedGVRs.contains
      ((if gvr.group = "" then "" else gvr.group ++ "/") ++ gvr.version ++ "/" ++ gvr.resource)

/-! ### Calls -/

/-- `resourceWriteKey`. -/
structure ResourceWriteKey where
  gvr : GroupVersionResource
  ns : String
  name : String
  deriving DecidableEq, Repr

/-- `resourceWriteVersion`. -/
structure ResourceWriteVersion where
  uid : String
  resourceVersion : String
  deriving DecidableEq, Repr

/-- `versioned`: both parts are known. -/
def ResourceWriteVersion.versioned (v : ResourceWriteVersion) : Bool :=
  v.uid ≠ "" && v.resourceVersion ≠ ""

/-- The version a resource carries. -/
def versionOf (r : Resource) : ResourceWriteVersion := ⟨r.uid, r.resourceVersion⟩

/-- What a callback does under a lock, or sends away. -/
inductive Call where
  | upsertResource (r : Resource)
  | deleteResource (id : String)
  | upsertEdge (e : Edge)
  | listResources (filter : Filter)
  | persisted (key : ResourceWriteKey)
  | setPersisted (key : ResourceWriteKey) (version : ResourceWriteVersion)
  | dropPersisted (key : ResourceWriteKey)
  | cachedKind (gvr : GroupVersionResource)
  | cacheKind (gvr : GroupVersionResource) (kind : String)
  | enqueue (e : ResourceEvent)
  | broadcast (op ns kind name : String)
  | recordGap (gvr : GroupVersionResource) (reason : CoverageReason)
  | ctxErr
  | evaluateForResource (r : Resource)

/-- The replies. `ctxErr` is whether the context of the callback is
over. -/
abbrev Reply : Call → Type
  | .upsertResource _ | .deleteResource _ | .upsertEdge _ => Except ListError Unit
  | .listResources _ => Except ListError (List Resource)
  | .persisted _ => Option ResourceWriteVersion
  | .cachedKind _ => Option String
  | .ctxErr => Bool
  | .evaluateForResource _ => Except ListError (List Edge)
  | .setPersisted _ _ | .dropPersisted _ | .cacheKind _ _ | .enqueue _ | .broadcast _ _ _ _
  | .recordGap _ _ => Unit

/-- A callback, or a part of one. -/
abbrev Handler := Program Call Reply

/-- One call. -/
def call (c : Call) : Handler (Reply c) := Program.perform c

/-- What the callbacks share. -/
structure World where
  store : MemoryStore
  persisted : GoMap ResourceWriteKey ResourceWriteVersion
  kindCache : GoMap GroupVersionResource String

/-- New managers on a given store. -/
def World.onStore (store : MemoryStore) : World := ⟨store, ∅, ∅⟩

namespace World

variable (w : World)

/-- `store.UpsertResource`. -/
def upsertResource (r : Resource) : World := { w with store := w.store.upsertResource r }

/-- `store.DeleteResource`. -/
def deleteResource (range : MapOrder) (id : String) : World :=
  { w with store := w.store.deleteResource range id }

/-- `store.UpsertEdge`. -/
def upsertEdge (e : Edge) : World := { w with store := w.store.upsertEdge e }

/-- `m.persisted[key] = version`. -/
def setPersisted (key : ResourceWriteKey) (version : ResourceWriteVersion) : World :=
  { w with persisted := w.persisted.insert key version }

/-- `delete(m.persisted, key)`. -/
def dropPersisted (key : ResourceWriteKey) : World :=
  { w with persisted := w.persisted.erase key }

/-- `m.kindCache[gvr] = kind`. -/
def cacheKind (gvr : GroupVersionResource) (kind : String) : World :=
  { w with kindCache := w.kindCache.insert gvr kind }

end World

/-- What a call does. Store calls fail only if `faulty`. The answers
of the rule evaluator and of the context come from outside. -/
inductive Answer (faulty : Bool) : (c : Call) → World → Reply c → World → Prop
  | upserted (w : World) (r : Resource) :
      Answer faulty (.upsertResource r) w (.ok ()) (w.upsertResource r)
  | upsertFailed (w : World) (r : Resource) (err : ListError) (h : faulty = true) :
      Answer faulty (.upsertResource r) w (.error err) w
  | deleted (w : World) (id : String) (range : MapOrder) :
      Answer faulty (.deleteResource id) w (.ok ()) (w.deleteResource range id)
  | deleteFailed (w : World) (id : String) (err : ListError) (h : faulty = true) :
      Answer faulty (.deleteResource id) w (.error err) w
  | edgeUpserted (w : World) (e : Edge) :
      Answer faulty (.upsertEdge e) w (.ok ()) (w.upsertEdge e)
  | edgeFailed (w : World) (e : Edge) (err : ListError) (h : faulty = true) :
      Answer faulty (.upsertEdge e) w (.error err) w
  | listed (w : World) (filter : Filter) (range : MapOrder) :
      Answer faulty (.listResources filter) w (.ok (w.store.listResources range filter)) w
  | listFailed (w : World) (filter : Filter) (err : ListError) (h : faulty = true) :
      Answer faulty (.listResources filter) w (.error err) w
  | persisted (w : World) (key : ResourceWriteKey) :
      Answer faulty (.persisted key) w (w.persisted.lookup key) w
  | setPersisted (w : World) (key : ResourceWriteKey) (version : ResourceWriteVersion) :
      Answer faulty (.setPersisted key version) w () (w.setPersisted key version)
  | dropPersisted (w : World) (key : ResourceWriteKey) :
      Answer faulty (.dropPersisted key) w () (w.dropPersisted key)
  | cachedKind (w : World) (gvr : GroupVersionResource) :
      Answer faulty (.cachedKind gvr) w (w.kindCache.lookup gvr) w
  | cacheKind (w : World) (gvr : GroupVersionResource) (kind : String) :
      Answer faulty (.cacheKind gvr kind) w () (w.cacheKind gvr kind)
  | enqueued (w : World) (e : ResourceEvent) : Answer faulty (.enqueue e) w () w
  | broadcast (w : World) (op ns kind name : String) :
      Answer faulty (.broadcast op ns kind name) w () w
  | gapRecorded (w : World) (gvr : GroupVersionResource) (reason : CoverageReason) :
      Answer faulty (.recordGap gvr reason) w () w
  | ctxErr (w : World) (ended : Bool) : Answer faulty .ctxErr w ended w
  | evaluated (w : World) (r : Resource) (answer : Except ListError (List Edge)) :
      Answer faulty (.evaluateForResource r) w answer w

/-- The answers of a store that does not fail, to a callback whose
context is not over and whose evaluator finds nothing. -/
def respond (range : MapOrder) : (c : Call) → World → Reply c × World
  | .upsertResource r, w => (.ok (), w.upsertResource r)
  | .deleteResource id, w => (.ok (), w.deleteResource range id)
  | .upsertEdge e, w => (.ok (), w.upsertEdge e)
  | .listResources filter, w => (.ok (w.store.listResources range filter), w)
  | .persisted key, w => (w.persisted.lookup key, w)
  | .setPersisted key version, w => ((), w.setPersisted key version)
  | .dropPersisted key, w => ((), w.dropPersisted key)
  | .cachedKind gvr, w => (w.kindCache.lookup gvr, w)
  | .cacheKind gvr kind, w => ((), w.cacheKind gvr kind)
  | .enqueue _, w | .broadcast _ _ _ _, w | .recordGap _ _, w => ((), w)
  | .ctxErr, w => (false, w)
  | .evaluateForResource _, w => (.ok [], w)

theorem answer_respond (faulty : Bool) (range : MapOrder) (c : Call) (w : World) :
    Answer faulty c w (respond range c w).1 (respond range c w).2 := by
  cases c with
  | upsertResource r => exact .upserted w r
  | deleteResource id => exact .deleted w id range
  | upsertEdge e => exact .edgeUpserted w e
  | listResources filter => exact .listed w filter range
  | persisted key => exact .persisted w key
  | setPersisted key version => exact .setPersisted w key version
  | dropPersisted key => exact .dropPersisted w key
  | cachedKind gvr => exact .cachedKind w gvr
  | cacheKind gvr kind => exact .cacheKind w gvr kind
  | enqueue e => exact .enqueued w e
  | broadcast op ns kind name => exact .broadcast w op ns kind name
  | recordGap gvr reason => exact .gapRecorded w gvr reason
  | ctxErr => exact .ctxErr w false
  | evaluateForResource r => exact .evaluated w r (.ok [])

/-! ### The manager -/

/-- `InformerManager`: the part of it that does not change.
`extractor` is the `ExtractorRegistry` it was given. -/
structure InformerManager where
  clusterID : String := ""
  extractor : Resource → Query Extraction

/-- `kindFor`. The kind an object carries is remembered for objects
of its type that carry none. There is no kind if the callback
panics. -/
def kindFor (gvr : GroupVersionResource) (u : Unstructured) : Handler (Option String) := do
  if u.kind ≠ "" then
    let cached ← call (.cachedKind gvr)
    if cached = some u.kind then return some u.kind
    call (.cacheKind gvr u.kind)
    return some u.kind
  else
    match ← call (.cachedKind gvr) with
    | some cached => return some cached
    | none => return defaultKindFromResource gvr.resource

namespace InformerManager

variable (m : InformerManager)

/-- The resource a callback works with. -/
def resourceOf (u : Unstructured) (kind : String) : Resource :=
  { unstructuredToResource u kind with clusterID := m.clusterID }

/-- The first half of `handleUpsert`: write the resource unless this
version of it is known to be written. The result is
`resourceChanged`, or `none` when the callback is over because the
write failed. -/
def writeResource (gvr : GroupVersionResource) (eventType : EventType) (r : Resource) :
    Handler (Option Bool) := do
  let key : ResourceWriteKey := ⟨gvr, r.ns, r.name⟩
  let version := versionOf r
  let previous ← call (.persisted key)
  let resourceChanged := !version.versioned || previous ≠ some version
  if !resourceChanged then return some false
  match ← call (.upsertResource r) with
  | .error _ =>
    call (.recordGap gvr .persistenceFailed)
    return none
  | .ok () =>
    if version.versioned then call (.setPersisted key version)
    else call (.dropPersisted key)
    call (.enqueue
      { clusterID := m.clusterID, ns := r.ns, kind := r.kind, uid := r.uid, name := r.name
        eventType := eventType, resourceVersion := r.resourceVersion })
    return some true

/-- `m.extractor.ExtractAll(ctx, r, m.store)`. -/
def extract (r : Resource) : Handler Extraction :=
  (m.extractor r).embed Call.listResources fun _ reply => reply

/-- The loop that writes the referenced Secrets. -/
def upsertReferences (gvr : GroupVersionResource) (edges : List Edge) : Handler Unit :=
  edges.forM fun e =>
    match secretReferenceFromEdge e with
    | none => pure ()
    | some ref => do
        match ← call (.upsertResource ref) with
        | .error _ => call (.recordGap gvr .persistenceFailed)
        | .ok () => return ()

/-- The loop that writes the edges. -/
def upsertEdges (gvr : GroupVersionResource) (edges : List Edge) : Handler Unit :=
  edges.forM fun e => do
    match ← call (.upsertEdge e) with
    | .error _ => call (.recordGap gvr .persistenceFailed)
    | .ok () => return ()

/-- The second half of `handleUpsert`: derive the edges and write
them. An error of an extractor is recorded, and the edges found are
still written. -/
def deriveEdges (gvr : GroupVersionResource) (r : Resource) : Handler (List Edge) := do
  let (edges, err) ← m.extract r
  if err.isSome then call (.recordGap gvr .extractionFailed)
  upsertReferences gvr edges
  upsertEdges gvr edges
  return edges

/-- `handleUpsert`. A callback that panics makes no more calls. -/
def handleUpsert (gvr : GroupVersionResource) (obj : Delivery) (eventType : EventType) :
    Handler Unit :=
  match toUnstructured obj with
  | none => call (.recordGap gvr .processingFailed)
  | some u => do
      let some kind ← kindFor gvr u | return ()
      let r := m.resourceOf u kind
      match ← m.writeResource gvr eventType r with
      | none => return ()
      | some resourceChanged =>
        let edges ← m.deriveEdges gvr r
        if resourceChanged || !edges.isEmpty then
          call (.broadcast "upsert" r.ns r.kind r.name)

/-- The unwrapping at the start of `handleDelete`. -/
def unwrapTombstone : Delivery → Delivery
  | .tombstone last => last
  | obj => obj

/-- `handleDelete`. The version is forgotten before the store is
asked to delete. -/
def handleDelete (gvr : GroupVersionResource) (obj : Delivery) : Handler Unit :=
  match toUnstructured (unwrapTombstone obj) with
  | none => call (.recordGap gvr .processingFailed)
  | some u => do
      call (.dropPersisted ⟨gvr, u.ns, u.name⟩)
      let some kind ← kindFor gvr u | return ()
      let base := u.ns ++ "/" ++ kind ++ "/" ++ u.name
      let id := if m.clusterID = "" then base else m.clusterID ++ ":" ++ base
      match ← call (.deleteResource id) with
      | .error _ => call (.recordGap gvr .persistenceFailed)
      | .ok () => pure ()
      call (.enqueue
        { clusterID := m.clusterID, ns := u.ns, kind := kind, uid := u.uid, name := u.name
          eventType := .delete, resourceVersion := u.resourceVersion })
      call (.broadcast "delete" u.ns kind u.name)

end InformerManager

end KubeAtlas.Discovery
