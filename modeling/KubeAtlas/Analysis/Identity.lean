import KubeAtlas.Graph.Security

/-!
# `KubeAtlas.Analysis.Identity`: options, identities, steps and notices

The parts of `pkg/graph/analysis/impact.go` that the two facets of
an impact analysis share: the options and their defaults, the
allowlisted identity of a resource, the step along a stored edge,
and the tally of notices.

A Go map that is only read by key is a function here (`ByID`), so
that two maps with the same entries are equal whatever the order of
their insertions was.
-/

set_option autoImplicit false

namespace KubeAtlas.Analysis

open KubeAtlas.Graph Lib

/-- The errors of an impact analysis. -/
inductive ImpactError where
  | invalidOptions
  | invalidProjection
  | rootNotFound
  | uidMismatch
  | uidUnknown
  | referenceLimit
  | authorizationLimit
  deriving DecidableEq, Repr

/-- The error texts. -/
def ImpactError.message : ImpactError → String
  | .invalidOptions => "impact: invalid options"
  | .invalidProjection => "impact: invalid or ambiguous graph projection"
  | .rootNotFound => "impact: root not found in selected cluster"
  | .uidMismatch => "impact: root UID does not match expected instance"
  | .uidUnknown => "impact: root UID is unknown"
  | .referenceLimit => "impact: reference interpretation budget exceeded"
  | .authorizationLimit => "impact: authorization explanation budget exceeded"

/-! ### Options -/

/-- `ImpactRelation`. The source keeps a text; the empty one selects
the default and any other text is rejected. -/
inductive ImpactRelation where
  | unset
  | dependents
  | dependencies
  | other (text : String)
  deriving DecidableEq, Repr

/-- `ImpactOptions`. -/
structure ImpactOptions where
  clusterID : String := ""
  relation : ImpactRelation := .unset
  maxDepth : Int := 0
  limit : Int := 0
  expectedUID : String := ""
  deriving DecidableEq, Repr

/-- The first half of `normalizeImpactOptions`: zero bounds and an
empty relation select the defaults. -/
def ImpactOptions.withDefaults (opts : ImpactOptions) : ImpactOptions :=
  { opts with
    relation := if opts.relation = .unset then .dependents else opts.relation
    maxDepth := if opts.maxDepth = 0 then 5 else opts.maxDepth
    limit := if opts.limit = 0 then 200 else opts.limit }

/-- The second half: other invalid values are rejected, not clamped. -/
def ImpactOptions.valid (rootID : String) (opts : ImpactOptions) : Bool :=
  !(rootID = "" || Strings.containsAny opts.clusterID ['/', ':'] ||
    (opts.relation ≠ .dependents && opts.relation ≠ .dependencies) ||
    opts.maxDepth < 1 || opts.maxDepth > 10 || opts.limit < 1 || opts.limit > 1000)

/-- `normalizeImpactOptions`. -/
def normalizeImpactOptions (rootID : String) (opts : ImpactOptions) :
    Except ImpactError ImpactOptions :=
  if opts.withDefaults.valid rootID then .ok opts.withDefaults else .error .invalidOptions

/-! ### Identities, steps and notices -/

/-- `ImpactIdentity`. -/
structure ImpactIdentity where
  id : String := ""
  clusterID : String := ""
  ns : String := ""
  kind : String := ""
  name : String := ""
  groupVersion : String := ""
  uid : String := ""
  resourceVersion : String := ""
  referenceOnly : Bool := false
  deriving DecidableEq, Repr, Inhabited

/-- `impactIdentity`. -/
def impactIdentity (resource : Resource) : ImpactIdentity :=
  let r := sanitizeResource resource
  { id := r.ID, clusterID := r.clusterID, ns := r.ns, kind := r.kind, name := r.name,
    groupVersion := r.groupVersion, uid := r.uid, resourceVersion := r.resourceVersion,
    referenceOnly := r.kind = "Secret" }

/-- What an owner reference says about the stored owner. -/
inductive OwnerUIDStatus where
  | matched
  | mismatch
  | unknown
  deriving DecidableEq, Repr

/-- `ImpactStep`: a stored edge and the direction in which it is
walked. The status is set for `OWNS` edges only. -/
structure ImpactStep where
  fromID : String
  toID : String
  type : EdgeType
  traversalFrom : String
  traversalTo : String
  ownerUIDStatus : Option OwnerUIDStatus := none
  deriving DecidableEq, Repr, Inhabited

/-- A Go map with keys `String`, read only by key. -/
abbrev ByID (α : Type) := String → α

/-- The loaded resources of the selected cluster, by identifier. -/
abbrev ResourceTable := ByID (Option Resource)

/-- Reading a Go map at a missing key gives the zero resource. -/
def ResourceTable.get (resources : ResourceTable) (id : String) : Resource :=
  (resources id).getD {}

/-- `ImpactNoticeReason`: the reasons of both facets. -/
inductive ImpactNoticeReason where
  | authorizationSeparate
  | unmodeledRelationship
  | runtimeExcluded
  | crossClusterExcluded
  | missingResource
  | ownerUIDMismatch
  | ownerUIDUnknown
  | authorizationInvalid
  | authorizationAmbiguous
  | authorizationMissingRole
  | authorizationMissingSA
  | authorizationSubject
  deriving DecidableEq, Repr

/-- `ImpactNotice`. -/
structure ImpactNotice where
  reason : ImpactNoticeReason
  count : Nat
  deriving DecidableEq, Repr

/-- A tally by reason: the source's `map[ImpactNoticeReason]int`. -/
abbrev NoticeTally := ImpactNoticeReason → Nat

/-- `addImpactNotice`. -/
def addImpactNotice (notices : ByID NoticeTally) (id : String) (reason : ImpactNoticeReason) :
    ByID NoticeTally :=
  Function.update notices id
    (Function.update (notices id) reason (notices id reason + 1))

/-- The loop that lists the non-zero totals in a fixed order of
reasons. -/
def listNotices (order : List ImpactNoticeReason) (totals : NoticeTally) : List ImpactNotice :=
  (order.filter (fun reason => totals reason ≠ 0)).map fun reason => ⟨reason, totals reason⟩

/-! ### Lookups -/

theorem addImpactNotice_apply (notices : ByID NoticeTally) (id v : String)
    (reason r : ImpactNoticeReason) :
    addImpactNotice notices id reason v r
      = notices v r + if v = id ∧ r = reason then 1 else 0 := by
  by_cases hv : v = id
  · subst hv
    by_cases hr : r = reason
    · subst hr
      simp [addImpactNotice]
    · simp [addImpactNotice, hr]
  · simp [addImpactNotice, hv]

@[simp] theorem impactIdentity_id (r : Resource) : (impactIdentity r).id = r.ID := by
  simp [impactIdentity]

end KubeAtlas.Analysis
