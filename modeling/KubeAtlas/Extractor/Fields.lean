import KubeAtlas.Graph.Model

/-!
# `KubeAtlas.Extractor.Fields`: reading the fields of an object

`pkg/extractor/spec.go`. An extractor walks the decoded object with
paths of field names. A step through anything but an object gives
nothing, and a type assertion at the end gives the zero value when
it fails, so a reader never fails either. A nil map is the object
without members; only where the source tells the two apart is the
result an `Option`.
-/

set_option autoImplicit false

namespace KubeAtlas.Extractor

open KubeAtlas.Graph Lib

/-- `m[k]`: a missing member reads as nil. -/
def member (m : Object) (k : String) : Json := (m.lookup k).getD .null

/-- `value.(map[string]any)` with the result of the assertion
dropped. -/
def asMap (value : Json) : Object := value.members?.getD []

/-- The loop that the four readers share. -/
def nested (cur : Json) : List String → Json
  | [] => cur
  | k :: path =>
    match cur with
    | .obj m => nested (member m k) path
    | _ => .null

/-- `nestedSlice`. -/
def nestedSlice (raw : Object) (path : List String) : List Json :=
  (nested (.obj raw) path).items?.getD []

/-- `nestedMap`. -/
def nestedMap (raw : Object) (path : List String) : Option Object :=
  (nested (.obj raw) path).members?

/-- `nestedString`. -/
def nestedString (raw : Object) (path : List String) : String :=
  (nested (.obj raw) path).text

/-- `nestedStringMap`: the members that are texts. -/
def nestedStringMap (raw : Object) (path : List String) : StringMap :=
  ((nestedMap raw path).getD []).filterMap fun m => m.2.str?.map fun s => (m.1, s)

/-- `r.Raw` as the readers take it. -/
def rawOf (r : Resource) : Object := r.raw.getD []

/-- The text at `path` of each item. -/
def stringsAt (items : List Json) (path : List String) : List String :=
  items.map fun item => nestedString (asMap item) path

/-! ### Pod templates -/

/-- `hasPodTemplate`. -/
def hasPodTemplate (kind : String) : Bool :=
  ["Deployment", "StatefulSet", "DaemonSet", "Job", "CronJob", "ReplicaSet"].contains kind

/-- The first slice of three places that has items; the last is the
place of a plain Pod. -/
def podTemplateSlice (field : String) (r : Resource) : List Json :=
  let template := nestedSlice (rawOf r) ["spec", "template", "spec", field]
  if template ≠ [] then template
  else
    let cronJob :=
      nestedSlice (rawOf r) ["spec", "jobTemplate", "spec", "template", "spec", field]
    if cronJob ≠ [] then cronJob else nestedSlice (rawOf r) ["spec", field]

/-- `podTemplateContainers`. -/
def podTemplateContainers (r : Resource) : List Json := podTemplateSlice "containers" r

/-- `podTemplateVolumes`. -/
def podTemplateVolumes (r : Resource) : List Json := podTemplateSlice "volumes" r

/-- `podTemplateMeta`. -/
def podTemplateMeta (r : Resource) : Object :=
  ((nestedMap (rawOf r) ["spec", "template", "metadata"]).or
    ((nestedMap (rawOf r) ["spec", "jobTemplate", "spec", "template", "metadata"]).or
      (nestedMap (rawOf r) ["metadata"]))).getD []

/-- `podSpec`. -/
def podSpec (r : Resource) : Option Object :=
  (nestedMap (rawOf r) ["spec", "template", "spec"]).or
    ((nestedMap (rawOf r) ["spec", "jobTemplate", "spec", "template", "spec"]).or
      (nestedMap (rawOf r) ["spec"]))

/-! ### Labels -/

/-- The loop of `labelsMatch` and `matchLabelSelector`. -/
def carries (labels want : StringMap) : Bool :=
  want.all fun label => (labels.lookup label.1).getD "" = label.2

/-- `labelsMatch`: an empty selector selects nothing. -/
def labelsMatch (labels want : StringMap) : Bool := !want.isEmpty && carries labels want

/-- `matchLabelSelector`: an empty selector selects everything. -/
def matchLabelSelector (labels want : StringMap) : Bool := want.isEmpty || carries labels want

end KubeAtlas.Extractor
