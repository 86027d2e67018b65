import KubeAtlas.Store.Memory

/-!
# `KubeAtlas.Api.Rbac`: the subjects of a role binding

The part of `pkg/api/rbac_handlers.go` that names the subjects of a
binding. A User or a Group has no resource of its own, so a subject
is read off the identifier at the end of its edge.
-/

set_option autoImplicit false

namespace KubeAtlas.Api

open KubeAtlas.Graph Lib Store

/-- `rbacSubjectRef`. -/
structure RbacSubjectRef where
  kind : String
  ns : String
  name : String
  deriving DecidableEq, Repr

/-- `decodeResourceID`. The loop finds the first two slashes. -/
def decodeResourceID (id : String) : Resource :=
  match Strings.cut id '/' with
  | (_, _, false) => { name := id }
  | (ns, rest, true) =>
    match Strings.cut rest '/' with
    | (_, _, false) => { name := id }
    | (kind, name, true) => { ns := ns, kind := kind, name := name }

/-- The subject that is reported for an edge. -/
def subjectOf (e : Edge) : RbacSubjectRef :=
  let subj := decodeResourceID e.toID
  ⟨subj.kind, subj.ns, subj.name⟩

/-- `subjectsForBinding`. -/
def subjectsForBinding (range : MapOrder) (s : MemoryStore) (bindingID : String) :
    Except StoreError (List RbacSubjectRef) := do
  let outgoing ← s.listEdges range bindingID .outgoing
  return (outgoing.filter fun e => e.type = .bindsSubject).map subjectOf

end KubeAtlas.Api
