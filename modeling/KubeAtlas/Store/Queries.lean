import KubeAtlas.Store.Memory
import Mathlib.Data.List.Sort

/-!
# `KubeAtlas.Store.Queries`: lists, counts and search over the in-memory store

The queries of `pkg/store/memory/store.go` that scan the resource
map, and `pkg/graph/labelstats.go`. Each is one loop over the
resources or over the outgoing edges, in the order `range` that Go
picks for the map.

A result that is a Go map is a map here, and a counter is a natural
number: a store never holds so many resources that an `int`
overflows. `sort.Slice` is only called with orders in which no two
elements tie, so any sorting algorithm gives the same slice.
-/

set_option autoImplicit false

namespace KubeAtlas.Store

open KubeAtlas.Graph Lib

/-- `Filter`. Empty fields mean "any". -/
structure Filter where
  kind : String := ""
  ns : String := ""
  labels : StringMap := []
  clusterID : String := ""

/-- `m[k]` of a `map[string]string`: a missing key reads as the
empty text. -/
def labelValue (labels : StringMap) (k : String) : String := (labels.lookup k).getD ""

/-- `labelsMatch`. -/
def labelsMatch (have' want : StringMap) : Bool :=
  want.all fun label => labelValue have' label.1 = label.2

/-- The kind, namespace and label conditions that all listings
share. -/
def Filter.accepts (filter : Filter) (r : Resource) : Bool :=
  (filter.kind = "" || r.kind = filter.kind) && (filter.ns = "" || r.ns = filter.ns) &&
    labelsMatch r.labels filter.labels

/-- `NamespacePair`. -/
structure NamespacePair where
  fromNS : String
  toNS : String
  deriving DecidableEq, Repr

/-- `LabelValue`. -/
structure LabelValue where
  value : String
  count : Nat
  deriving DecidableEq, Repr

/-- `LabelStat`. -/
structure LabelStat where
  key : String
  resourceCount : Nat
  valueCount : Nat
  values : List LabelValue
  deriving DecidableEq, Repr

/-- `MaxLabelValuesPerKey`. -/
def maxLabelValuesPerKey : Nat := 100

/-- `SearchQuery`. -/
structure SearchQuery where
  text : String
  kind : String := ""
  ns : String := ""
  limit : Int := 0

/-- `SearchResult`. -/
structure SearchResult where
  found : List Resource
  total : Nat
  linearScan : Bool

/-- `memorySearchDefaultLimit`. -/
def memorySearchDefaultLimit : Nat := 50

/-- The function of Go's `strings` that follows the Unicode tables
of letters. -/
structure Folding where
  toLower : String → String

/-- The less-than-or-equal of label values: the most frequent first,
then by text. -/
def LabelValue.before (a b : LabelValue) : Prop :=
  b.count < a.count ∨ (a.count = b.count ∧ a.value ≤ b.value)

instance : DecidableRel LabelValue.before := fun a b => by
  unfold LabelValue.before
  infer_instance

/-- `FoldLabelStats`. -/
def foldLabelStats (range : MapOrder) (byKey : GoMap String (List LabelValue)) :
    List LabelStat :=
  let stats := ((range _).order byKey.entries).map fun entry =>
    let vals := entry.2.insertionSort LabelValue.before
    { key := entry.1, resourceCount := (vals.map LabelValue.count).sum
      valueCount := vals.length, values := vals.take maxLabelValuesPerKey : LabelStat }
  stats.insertionSort fun a b => a.key ≤ b.key

/-- `searchScore`: the relevance of a match, `none` for no match. -/
def searchScore (fold : Folding) (r : Resource) (needle : String) : Option Nat :=
  if needle = "" then some 0
  else if Strings.contains (fold.toLower r.name) needle then some 3
  else if Strings.contains (fold.toLower r.kind) needle then some 2
  else if Strings.contains (fold.toLower r.ns) needle then some 2
  else if r.labels.any fun label => Strings.contains (fold.toLower label.1) needle ||
      Strings.contains (fold.toLower label.2) needle then some 1
  else none

/-- The order of hits: a higher score first, then by identifier. -/
def hitBefore (a b : Resource × Nat) : Prop := b.2 < a.2 ∨ (a.2 = b.2 ∧ a.1.ID ≤ b.1.ID)

instance : DecidableRel hitBefore := fun a b => by
  unfold hitBefore
  infer_instance

namespace MemoryStore

variable (range : MapOrder) (s : MemoryStore)

/-- `ListResources`. -/
def listResources (filter : Filter) : List Resource :=
  (GoMap.values range s.resources).filter fun r =>
    (filter.clusterID = "" || r.clusterID = filter.clusterID) && filter.accepts r

/-- `ListResourcesInCluster`. The empty cluster selects the
resources without one. -/
def listResourcesInCluster (clusterID : String) (filter : Filter) : List Resource :=
  (GoMap.values range s.resources).filter fun r =>
    r.clusterID = clusterID && filter.accepts r

/-- The rows of the outgoing index, each with the source they are
filed under. -/
def outgoingRows : List (String × GoMap PeerKey Edge) :=
  ((range _).order s.outgoing.entries).map fun row => (row.1, row.2)

/-- `ListEdgesAcrossClusters`. -/
def listEdgesAcrossClusters (clusterIDs : List String) : List Edge :=
  let inSet (id : String) : Bool :=
    (s.resources.lookup id).any fun r => clusterIDs.contains r.clusterID
  if clusterIDs.isEmpty then []
  else
    ((s.outgoingRows range).filter fun row => inSet row.1).flatMap fun row =>
      (GoMap.values range row.2).filter fun e => inSet e.toID

/-- `CountKindsByNamespace`. -/
def countKindsByNamespace (labels : StringMap) : NestedMap String String Nat :=
  (GoMap.values range s.resources).foldl
    (fun out r =>
      if labelsMatch r.labels labels then
        out.put r.ns r.kind ((out.get? r.ns r.kind).getD 0 + 1)
      else out) ∅

/-- `CountCrossNamespaceEdges`. -/
def countCrossNamespaceEdges (labels : StringMap) : GoMap NamespacePair Nat :=
  let visible (id : String) : Option Resource :=
    (s.resources.lookup id).filter fun r => labelsMatch r.labels labels
  (s.outgoingRows range).foldl
    (fun out row =>
      match visible row.1 with
      | none => out
      | some fromRes =>
        (GoMap.keys range row.2).foldl
          (fun out k =>
            match visible k.other with
            | none => out
            | some toRes =>
              let pair : NamespacePair := ⟨fromRes.ns, toRes.ns⟩
              out.insert pair ((out.lookup pair).getD 0 + 1)) out) ∅

/-- `GetNamespaceSubgraph`. -/
def getNamespaceSubgraph (ns : String) (labels : StringMap) : Graph :=
  let resources := (GoMap.values range s.resources).filter fun r =>
    r.ns = ns && labelsMatch r.labels labels
  let inNS := resources.map Resource.ID
  { resources := resources
    edges := ((s.outgoingRows range).filter fun row => inNS.contains row.1).flatMap fun row =>
      (((range _).order row.2.entries).filter fun entry => inNS.contains entry.1.other).map
        Sigma.snd }

/-- `ListLabelStats`. -/
def listLabelStats : List LabelStat :=
  let counts : NestedMap String String Nat := (GoMap.values range s.resources).foldl
    (fun counts r => r.labels.foldl
      (fun counts label =>
        counts.put label.1 label.2 ((counts.get? label.1 label.2).getD 0 + 1)) counts) ∅
  let byKey := ((range _).order counts.entries).foldl
    (fun byKey entry =>
      byKey.insert entry.1 (((range _).order entry.2.entries).map fun v => ⟨v.1, v.2⟩))
    (∅ : GoMap String (List LabelValue))
  foldLabelStats range byKey

/-- `Search`. -/
def search (fold : Folding) (q : SearchQuery) : SearchResult :=
  let limit := if q.limit ≤ 0 then memorySearchDefaultLimit else q.limit.toNat
  let needle := fold.toLower (Strings.trimSpace q.text)
  let hits := (GoMap.values range s.resources).filterMap fun r =>
    if (q.kind = "" || r.kind = q.kind) && (q.ns = "" || r.ns = q.ns) then
      (searchScore fold r needle).map fun score => (r, score)
    else none
  let hits := hits.insertionSort hitBefore
  { found := (hits.take limit).map Prod.fst, total := hits.length, linearScan := true }

end MemoryStore

end KubeAtlas.Store
