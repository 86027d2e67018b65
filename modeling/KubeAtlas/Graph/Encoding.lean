import KubeAtlas.Graph.Model
import KubeAtlas.Lib.JsonText

/-!
# `KubeAtlas.Graph.Encoding`: resources and edges as JSON

The `json` tags of `pkg/graph/model.go`. A field with `omitempty` is
left out if it is empty. The names of the fields are written as they
are. `Raw` has the tag `-`: it is no part of the text of a resource,
and `rawText` is its own.
-/

set_option autoImplicit false

namespace KubeAtlas.Graph

open Lib

variable (escape : String → String)

/-- A field of a struct. -/
def jsonField (name value : String) : String × String := ("\"" ++ name ++ "\"", value)

/-- A text field with `omitempty`. -/
def encodeNonEmpty (name text : String) : List (String × String) :=
  if text = "" then [] else [jsonField name (JsonText.quoted escape text)]

/-- A field of the type `map[string]string` with `omitempty`. -/
def encodeNonEmptyMap (name : String) (entries : StringMap) : List (String × String) :=
  if entries.isEmpty then []
  else [jsonField name (JsonText.object (entries.map fun entry =>
    (JsonText.quoted escape entry.1, JsonText.quoted escape entry.2)))]

/-- The text of an owner reference. -/
def OwnerRef.encode (owner : OwnerRef) : String :=
  JsonText.object
    [jsonField "kind" (JsonText.quoted escape owner.kind),
      jsonField "name" (JsonText.quoted escape owner.name),
      jsonField "uid" (JsonText.quoted escape owner.uid)]

/-- The text of a resource. -/
def Resource.encode (r : Resource) : String :=
  JsonText.object
    ([jsonField "kind" (JsonText.quoted escape r.kind),
        jsonField "name" (JsonText.quoted escape r.name),
        jsonField "namespace" (JsonText.quoted escape r.ns)] ++
      encodeNonEmptyMap escape "labels" r.labels ++
      encodeNonEmpty escape "groupVersion" r.groupVersion ++
      encodeNonEmpty escape "uid" r.uid ++
      encodeNonEmptyMap escape "annotations" r.annotations ++
      (if r.ownerReferences.isEmpty then []
        else [jsonField "ownerReferences"
          (JsonText.array (r.ownerReferences.map (OwnerRef.encode escape)))]) ++
      encodeNonEmpty escape "resourceVersion" r.resourceVersion ++
      encodeNonEmpty escape "clusterId" r.clusterID)

/-- The text of the raw object, if there is one. -/
def Resource.rawText (r : Resource) : String :=
  match r.raw with
  | none => ""
  | some object => JsonText.encode escape (.obj object)

/-- The text of an edge. -/
def Edge.encode (e : Edge) : String :=
  JsonText.object
    ([jsonField "from" (JsonText.quoted escape e.fromID),
        jsonField "to" (JsonText.quoted escape e.toID),
        jsonField "type" (JsonText.quoted escape e.type)] ++
      encodeNonEmptyMap escape "attributes" e.attributes)

/-- The bytes of the texts of all resources, with their raw objects,
and of all edges. Each text is followed by a separator. -/
def encodedBytes (g : Graph) : Nat :=
  (g.resources.map fun r =>
      Strings.len (r.encode escape) + 1 + (Strings.len (r.rawText escape) + 1)).sum +
    (g.edges.map fun e => Strings.len (e.encode escape) + 1).sum

end KubeAtlas.Graph
