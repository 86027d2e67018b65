import KubeAtlas.Lib.Layers

/-!
# `KubeAtlas.Web.BlastRadius`: the blast radius in the browser

`web/src/lib/blastRadius.ts`: a breadth-first search over the edges
of a view, which also lists the nodes of each hop and the edges it
goes along. A set is the list of its elements, the last one first.
The adjacency indexes are built in the order of the view, so an
entry has the edges with that end in this order.
-/

set_option autoImplicit false

namespace KubeAtlas.Web

open Lib

/-- `ViewEdge`. -/
structure ViewEdge where
  fromID : String
  toID : String
  type : Option String := none
  count : Nat := 1
  deriving DecidableEq, Repr

/-- `View`, with the identifiers of its nodes. -/
structure View where
  nodes : List String
  edges : List ViewEdge

/-- `BlastDirection`. -/
inductive BlastDirection where
  | downstream
  | upstream
  | both
  deriving DecidableEq, Repr

/-- `BlastRadiusResult`. -/
structure BlastRadiusResult where
  reachable : List String
  byHop : List (Nat × List String)
  edges : List ViewEdge
  deriving DecidableEq, Repr

/-- `out`. -/
def out (view : View) (direction : BlastDirection) (id : String) : List ViewEdge :=
  if direction ≠ .upstream then view.edges.filter fun e => e.fromID = id else []

/-- `inc`. -/
def inc (view : View) (direction : BlastDirection) (id : String) : List ViewEdge :=
  if direction ≠ .downstream then view.edges.filter fun e => e.toID = id else []

/-- The edges that the search goes along at `id`, each with the node
at its other end. -/
def followed (view : View) (direction : BlastDirection) (id : String) :
    List (ViewEdge × String) :=
  (out view direction id).map (fun e => (e, e.toID)) ++
    (inc view direction id).map fun e => (e, e.fromID)

/-- The body of the two inner loops. The state has `reachable`,
`next` and `edges`. -/
def follow (acc : (List String × List String) × List ViewEdge) (x : ViewEdge × String) :
    (List String × List String) × List ViewEdge :=
  (Layers.visit acc.1 x.2, acc.2 ++ [x.1])

/-- The `while` loop, with the number of rounds that `depth` leaves. -/
def rounds (view : View) (direction : BlastDirection) :
    Nat → Nat → List String → BlastRadiusResult → BlastRadiusResult
  | 0, _, _, r => r
  | left + 1, hop, frontier, r =>
    if frontier.isEmpty then r
    else
      let acc := frontier.foldl (fun acc id => (followed view direction id).foldl follow acc)
        ((r.reachable, []), r.edges)
      let next := acc.1.2
      rounds view direction left (hop + 1) next
        ⟨acc.1.1, if next.isEmpty then r.byHop else r.byHop ++ [(hop + 1, next)], acc.2⟩

/-- `computeBlastRadius`. -/
def computeBlastRadius (view : View) (rootID : String) (direction : BlastDirection)
    (depth : Nat) : BlastRadiusResult :=
  rounds view direction depth 0 [rootID] ⟨[rootID], [(0, [rootID])], []⟩

end KubeAtlas.Web
