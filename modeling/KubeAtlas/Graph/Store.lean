import KubeAtlas.Graph.Model

/-!
# `KubeAtlas.Graph.Store`: the vocabulary of a graph store

The part of `pkg/graph/store.go` that both backends read:
directions, the options of a traversal and the errors of the
modelled queries.
-/

set_option autoImplicit false

namespace KubeAtlas.Graph

/-- `Direction`, a defined string type. `other` is any text that is
not one of the two constants. -/
inductive Direction where
  | incoming
  | outgoing
  | other (text : String)
  deriving DecidableEq, Repr

def Direction.text : Direction → String
  | .incoming => "incoming"
  | .outgoing => "outgoing"
  | .other text => text

/-- `TraverseOptions`. -/
structure TraverseOptions where
  direction : Direction
  maxDepth : Int := 0
  edgeTypes : List EdgeType := []

/-- The edge-type filter of a traversal: an empty list allows every
type. In memory it is `edgeTypeSet`, in SQL
`cardinality($3) = 0 OR type = ANY($3)`. -/
def edgeTypeAllowed (types : List EdgeType) (t : EdgeType) : Bool :=
  types.isEmpty || types.contains t

/-- The depth both backends work with. -/
def traverseDepth (maxDepth : Int) : Nat :=
  let depth := if maxDepth ≤ 0 then 5 else maxDepth
  let depth := if depth > 10 then 10 else depth
  depth.toNat

/-- The errors of the modelled queries. -/
inductive StoreError where
  | notFound (id : String)
  | invalidDirection (query : String) (dir : Direction)
  | unknownEdgeType (type : EdgeType)
  deriving DecidableEq, Repr

/-- The texts of the errors. `quote` is the `%q` verb of `fmt`. -/
def StoreError.message (quote : String → String) : StoreError → String
  | .notFound id => "resource not found: " ++ id
  | .invalidDirection query dir => query ++ ": invalid direction " ++ quote dir.text
  | .unknownEdgeType type => "ListReachable: unknown edge type " ++ quote type

end KubeAtlas.Graph
