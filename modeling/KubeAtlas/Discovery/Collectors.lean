import KubeAtlas.Crd.Discovery

/-!
# `KubeAtlas.Discovery.Collectors`: the collectors on one store

The informer manager and the CRD discovery run side by side, as
`cmd/kubeatlas` starts them. A `Callback` is one delivery of an
object to one of them. `Thread` says which callbacks wait for each
other: those of one watched type, and those of one CRD.

A `Tracked` object is an object as one collector sees it: an object
of a type that both of them watch is tracked twice.
-/

set_option autoImplicit false

namespace KubeAtlas.Discovery

open KubeAtlas.Graph Lib
open Operations (GroupVersionResource)

/-- What happened to an object. A resync delivers an update with the
version that is known already, and `lost` is a deletion whose notice
was missed. -/
inductive ObjectEvent where
  | added (u : Unstructured)
  | updated (u : Unstructured)
  | deleted (u : Unstructured)
  | lost (u : Unstructured)

/-- The object as it was delivered. -/
def ObjectEvent.object : ObjectEvent → Unstructured
  | .added u | .updated u | .deleted u | .lost u => u

/-- One delivery: to the handlers of a watched type, or of a
registered custom resource. -/
inductive Callback where
  | informer (gvr : GroupVersionResource) (event : ObjectEvent)
  | crd (gvr : GroupVersionResource) (kind : String) (event : ObjectEvent)

/-- Callbacks of one thread do not overlap. -/
inductive Thread where
  | informer (gvr : GroupVersionResource)
  | crd (name : String)
  deriving DecidableEq

def Callback.thread : Callback → Thread
  | .informer gvr _ => .informer gvr
  | .crd gvr _ _ => .crd (Crd.crdName gvr)

/-- The `ResourceEventHandlerFuncs` of the two collectors. -/
def Callback.body (m : InformerManager) (d : Crd.Discovery) : Callback → Handler Unit
  | .informer gvr (.added u) => m.handleUpsert gvr (.object u) .add
  | .informer gvr (.updated u) => m.handleUpsert gvr (.object u) .update
  | .informer gvr (.deleted u) => m.handleDelete gvr (.object u)
  | .informer gvr (.lost u) => m.handleDelete gvr (.tombstone (.object u))
  | .crd gvr kind (.added u) | .crd gvr kind (.updated u) => d.handleUpsert gvr kind (.object u)
  | .crd gvr kind (.deleted u) => Crd.Discovery.handleDelete gvr (.object u) kind
  | .crd gvr kind (.lost u) => Crd.Discovery.handleDelete gvr (.tombstone (.object u)) kind

/-- The collectors, on a store whose calls fail only if `faulty`. -/
def collectors (m : InformerManager) (d : Crd.Discovery) (faulty : Bool) :
    Interleave.System World Thread Callback Call Reply where
  thread := Callback.thread
  body := Callback.body m d
  answers := Answer faulty

/-! ### Tracked objects -/

/-- Who delivers an object. -/
inductive Collector where
  | informer
  | crd
  deriving DecidableEq

/-- An object, as one collector knows it. -/
structure Tracked where
  collector : Collector
  gvr : GroupVersionResource
  kind : String
  ns : String
  name : String
  deriving DecidableEq

/-- The object a callback is about. -/
def Callback.tracked : Callback → Tracked
  | .informer gvr event =>
    ⟨.informer, gvr, event.object.kind, event.object.ns, event.object.name⟩
  | .crd gvr kind event => ⟨.crd, gvr, kind, event.object.ns, event.object.name⟩

namespace Tracked

variable (m : InformerManager) (o : Tracked)

def thread : Thread :=
  match o.collector with
  | .informer => .informer o.gvr
  | .crd => .crd (Crd.crdName o.gvr)

/-- The cache entry of the object. -/
def key : ResourceWriteKey := ⟨o.gvr, o.ns, o.name⟩

/-- A resource with nothing but the identity of the object. Custom
resources are stored without a cluster. -/
def identity : Resource where
  kind := o.kind
  name := o.name
  ns := o.ns
  clusterID :=
    match o.collector with
    | .informer => m.clusterID
    | .crd => ""

/-- Where the object is stored. -/
def ID : String := (o.identity m).ID

/-- The object with a version. -/
def delivered (v : ResourceWriteVersion) : Unstructured :=
  { kind := o.kind, ns := o.ns, name := o.name, uid := v.uid, resourceVersion := v.resourceVersion }

/-- A delivery of the object to its collector. -/
def callback (event : ObjectEvent) : Callback :=
  match o.collector with
  | .informer => .informer o.gvr event
  | .crd => .crd o.gvr o.kind event

theorem tracked_callback (v : ResourceWriteVersion) (event : ObjectEvent)
    (h : event.object = o.delivered v) : (o.callback event).tracked = o := by
  unfold callback
  cases hc : o.collector with
  | informer =>
    simp only [Callback.tracked, h, delivered]
    cases o
    cases hc
    rfl
  | crd =>
    simp only [Callback.tracked, h, delivered]
    cases o
    cases hc
    rfl

end Tracked

end KubeAtlas.Discovery
