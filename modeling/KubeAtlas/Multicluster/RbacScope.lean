import KubeAtlas.Lib.NestedMap
import KubeAtlas.Lib.Strings
import Mathlib.Data.Finset.Dedup

/-!
# `KubeAtlas.Multicluster.RbacScope`: which clusters a bearer token may see

The model of `rbac_scope.go`. The hash of the tokens is a parameter,
and a request is the text of its `Authorization` header, empty if it
has none. A set of clusters is a finite set.
-/

set_option autoImplicit false

namespace KubeAtlas.Multicluster

open Lib Lib.Strings

/-- `RBACRule`. -/
structure RBACRule where
  token : String
  clusters : List String
  deriving DecidableEq, Repr

/-- `RBACScope`. -/
structure RBACScope where
  byTokenHash : GoMap String (Finset String) := ∅

variable (hashToken : String → String)

/-- The set that `NewRBACScope` builds for one rule. -/
def RBACRule.set (r : RBACRule) : Finset String :=
  ((r.clusters.map trimSpace).filter (· ≠ "")).toFinset

/-- One round of the loop in `NewRBACScope`. -/
def RBACScope.addRule (s : RBACScope) (r : RBACRule) : RBACScope :=
  let tok := trimSpace r.token
  if tok = "" then s else { s with byTokenHash := s.byTokenHash.insert (hashToken tok) r.set }

/-- `NewRBACScope`. -/
def newRBACScope (rules : List RBACRule) : RBACScope := rules.foldl (RBACScope.addRule hashToken) {}

/-- `Enabled`. -/
def RBACScope.enabled (s : RBACScope) : Bool := !s.byTokenHash.entries.isEmpty

/-- `bearerToken`. Only ASCII letters fold to those of the scheme,
so a header that begins with it is cut after seven characters as it
is after seven bytes. -/
def bearerToken (authorization : String) : String :=
  let h := authorization.toList
  if 7 < len authorization ∧ (h.take 7).map Char.toLower = "bearer ".toList then
    trimSpace (String.ofList (h.drop 7))
  else ""

/-- `VisibleClusters`: the set, which is `nil` or not, and the
status. -/
def RBACScope.visibleClusters (s : RBACScope) (authorization : String) :
    Option (Finset String) × Nat :=
  if !s.enabled then (none, 0)
  else
    let tok := bearerToken authorization
    if tok = "" then (none, 401)
    else
      match s.byTokenHash.lookup (hashToken tok) with
      | none => (none, 403)
      | some set => (some set, 0)

end KubeAtlas.Multicluster
