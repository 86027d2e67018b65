import KubeAtlas.Graph.Model
import Mathlib.Data.List.Sort

/-!
# `KubeAtlas.Analysis.Violations`: the policy violations of a report

`detectPolicyViolations` of `pkg/graph/analysis/diagnose.go`. Edges
have distinct ends within one type, so the order in which violations
are sorted has no ties.
-/

set_option autoImplicit false

namespace KubeAtlas.Analysis

open KubeAtlas.Graph

/-- `PolicyViolation`. -/
structure PolicyViolation where
  policy : String
  resource : String
  message : String
  deriving DecidableEq, Repr

/-- The order of the result: by policy, then by resource. -/
def PolicyViolation.before (a b : PolicyViolation) : Prop :=
  a.policy < b.policy ∨ (a.policy = b.policy ∧ a.resource ≤ b.resource)

instance : DecidableRel PolicyViolation.before := fun a b => by
  unfold PolicyViolation.before
  infer_instance

/-- `e.Attributes[k]`. -/
def attributeOf (e : Edge) (k : String) : String := (e.attributes.lookup k).getD ""

/-- `detectPolicyViolations`. -/
def detectPolicyViolations (edges : List Edge) : List PolicyViolation :=
  let violated := edges.filter fun e => e.type = .enforces &&
    (attributeOf e "violated" = "true" || attributeOf e "result" = "fail")
  (violated.map fun e => ⟨e.fromID, e.toID, attributeOf e "violation_message"⟩).insertionSort
    PolicyViolation.before

end KubeAtlas.Analysis
