import Mathlib.Data.List.Perm.Basic

/-!
# `KubeAtlas.Lib.RangeOrder`: sets built in a loop and ranged over

A Go loop often fills a `map[K]bool` and later ranges over its keys,
in an order the language leaves open. The set is the list of its
keys here, filled with `List.insert`, and a `RangeOrder` is one way
to order the keys of every set. Results that hold for every
`RangeOrder` hold for whatever order Go picks.
-/

set_option autoImplicit false

namespace KubeAtlas.Lib

/-- An order in which a loop ranges over a set of keys. -/
structure RangeOrder (α : Type) where
  order : List α → List α
  perm : ∀ keys, (order keys).Perm keys

/-- The order of insertion is one such order. -/
def RangeOrder.inserted (α : Type) : RangeOrder α := ⟨id, fun _ => .refl _⟩

end KubeAtlas.Lib
