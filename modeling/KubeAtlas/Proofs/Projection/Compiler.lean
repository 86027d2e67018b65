import KubeAtlas.Proofs.Projection.Shape
import KubeAtlas.Store.PostgresImpact

/-!
# `KubeAtlas.Proofs.Projection.Compiler`: the allowlist in SQL means the allowlist in Go

The shapes are walked twice: by `projectImpactValue` in Go, and by
the compiler that turns them into `jsonb` expressions.
`eval_project` says that the compiled expression computes what the
walk copies. Every subquery reads the elements of its source under
an alias of its own and nothing else, so no alias can capture
another one.

What SQL returns is walked once more in Go. `agreesOn_projected`
says that a projected value looks like the original through its
shape, hence is copied unchanged and at the same price.
-/

set_option autoImplicit false

namespace KubeAtlas.Proofs.Projection

open KubeAtlas.Graph Lib KubeAtlas.Store

/-! ### Meaning -/

/-- What a shape keeps of a value that may be `NULL`. -/
def projectedAt (shape : ImpactFieldShape) : Option Json → Json
  | none => .null
  | some v => projected shape v

mutual

/-- A compiled shape computes the copy of its source. -/
theorem eval_project (raw : Option Json) : ∀ (shape : ImpactFieldShape) (source : SqlPath)
    (sequence : Nat) (scope : Nat → Option Json),
    (project shape source sequence).1.eval raw scope
      = projectedAt shape (source.eval raw scope)
  | .string, source, sequence, scope => by
    rw [project, SqlExpr.eval]
    cases source.eval raw scope with
    | none => rfl
    | some v => cases v <;> rfl
  | .boolean, source, sequence, scope => by
    rw [project, SqlExpr.eval]
    cases source.eval raw scope with
    | none => rfl
    | some v => cases v <;> rfl
  | .presenceString, source, sequence, scope => by
    rw [project, SqlExpr.eval]
    cases source.eval raw scope with
    | none => rfl
    | some v => cases v <;> rfl
  | .array element, source, sequence, scope => by
    rw [project, SqlExpr.eval]
    -- within the subquery the items are what the new alias stands for
    have hitem : ∀ v, (project element (.value (sequence + 1)) (sequence + 1)).1.eval raw
        (Function.update scope (sequence + 1) (some v)) = projected element v := by
      intro v
      rw [eval_project raw element]
      show projectedAt element (Function.update scope (sequence + 1) (some v) (sequence + 1)) = _
      rw [Function.update_self]
      rfl
    cases source.eval raw scope with
    | none => rfl
    | some v =>
      cases v with
      | arr items =>
        show Json.arr (items.map _) = Json.arr (items.map (projected element))
        rw [List.map_congr_left fun v _ => hitem v]
      | _ => rfl
  | .object fields, source, sequence, scope => by
    rw [project, SqlExpr.eval]
    cases hsource : source.eval raw scope with
    | none => rfl
    | some v =>
      cases v with
      | obj members =>
        show Json.obj _ = Json.obj (projectedFields fields members)
        rw [evalRows_projectRows raw fields source (sequence + 1) scope members hsource]
      | _ => rfl

theorem evalRows_projectRows (raw : Option Json) : ∀ (fields : List ImpactProjectionField)
    (source : SqlPath) (sequence : Nat) (scope : Nat → Option Json) (members : Object),
    source.eval raw scope = some (.obj members) →
    SqlExpr.evalRows raw scope members (projectRows fields source sequence).1
      = projectedFields fields members
  | [], _, _, _, _, _ => by
    rw [projectRows, SqlExpr.evalRows, projectedFields]
  | field :: fields, source, sequence, scope, members, hsource => by
    rw [projectRows, SqlExpr.evalRows, projectedFields,
      evalRow_projectRow raw field source sequence scope members hsource,
      evalRows_projectRows raw fields source _ scope members hsource]

theorem evalRow_projectRow (raw : Option Json) : ∀ (field : ImpactProjectionField)
    (source : SqlPath) (sequence : Nat) (scope : Nat → Option Json) (members : Object),
    source.eval raw scope = some (.obj members) →
    SqlExpr.evalRow raw scope members (projectRow field source sequence).1
      = projectedField field members
  | .mk name shape, source, sequence, scope, members, hsource => by
    rw [projectRow, SqlExpr.evalRow, projectedField]
    have hget : (SqlPath.get source name).eval raw scope = members.lookup name := by
      show (source.eval raw scope).bind _ = _
      rw [hsource]
      rfl
    cases hentry : members.lookup name with
    | none => rfl
    | some entry =>
      show [(name, (project shape (.get source name) sequence).1.eval raw scope)]
        = [(name, projected shape entry)]
      rw [eval_project raw shape (.get source name) sequence scope, hget, hentry]
      rfl

end

/-! ### Projecting twice -/

/-- The keys of a list of fields. -/
def fieldNames : List ImpactProjectionField → List String
  | [] => []
  | .mk name _ :: fields => name :: fieldNames fields

mutual

/-- No object of the shape lists a key twice. -/
def distinctKeys : ImpactFieldShape → Bool
  | .object fields => decide (fieldNames fields).Nodup && distinctKeysAll fields
  | .array element => distinctKeys element
  | _ => true

def distinctKeysAll : List ImpactProjectionField → Bool
  | [] => true
  | field :: fields => distinctKeysOf field && distinctKeysAll fields

def distinctKeysOf : ImpactProjectionField → Bool
  | .mk _ shape => distinctKeys shape

end

theorem mem_fieldNames (before fields : List ImpactProjectionField) (name : String)
    (shape : ImpactFieldShape) : name ∈ fieldNames (before ++ .mk name shape :: fields) := by
  induction before with
  | nil => exact List.mem_cons_self
  | cons field before ih =>
    obtain ⟨name', shape'⟩ := field
    exact List.mem_cons_of_mem _ ih

variable {shape : ImpactFieldShape}

/-- With distinct keys, the shape for a key is the one its field
has. -/
theorem shapeAt_of_nodup {before fields : List ImpactProjectionField} {name : String}
    (h : (fieldNames (before ++ .mk name shape :: fields)).Nodup) :
    shapeAt name (before ++ .mk name shape :: fields) = some shape := by
  induction before with
  | nil =>
    show (if name = name then some shape else shapeAt name fields) = some shape
    exact if_pos rfl
  | cons field before ih =>
    obtain ⟨name', shape'⟩ := field
    rw [List.cons_append, fieldNames, List.nodup_cons] at h
    have hne : name' ≠ name := by
      rintro rfl
      exact h.1 (mem_fieldNames before fields name' shape)
    rw [List.cons_append, shapeAt, if_neg hne, ih h.2]

mutual

/-- Through its shape, a projected value looks like the original. -/
theorem agreesOn_projected : ∀ (shape : ImpactFieldShape) (v : Json),
    distinctKeys shape = true → AgreesOn shape (projected shape v) v
  | .string, v, _ => by cases v <;> rfl
  | .boolean, v, _ => by cases v <;> rfl
  | .presenceString, v, _ => by
    cases v with
    | str text =>
      rw [AgreesOn, projected]
      by_cases htext : text = ""
      · rw [if_pos htext, htext]
      · rw [if_neg htext]
        show some (decide (impactPresentString = "")) = some (decide (text = ""))
        rw [decide_eq_false htext, show decide (impactPresentString = "") = false by decide]
    | _ => rfl
  | .array element, v, h => by
    cases v with
    | arr items =>
      show List.Forall₂ (AgreesOn element) (items.map (projected element)) items
      rw [List.forall₂_map_left_iff, List.forall₂_same]
      intro item _
      exact agreesOn_projected element item (by rw [distinctKeys] at h; exact h)
    | _ => trivial
  | .object fields, v, h => by
    cases v with
    | obj members =>
      rw [distinctKeys, Bool.and_eq_true, decide_eq_true_eq] at h
      exact agreesOnFields_projected [] fields members h.1 h.2
    | _ => trivial

/-- The same for the last fields of a list, read in what all of them
project. -/
theorem agreesOnFields_projected : ∀ (before fields : List ImpactProjectionField)
    (members : Object), (fieldNames (before ++ fields)).Nodup → distinctKeysAll fields = true →
    AgreesOnFields fields (projectedFields (before ++ fields) members) members
  | _, [], _, _, _ => by rw [AgreesOnFields]; trivial
  | before, field :: fields, members, hnodup, h => by
    rw [distinctKeysAll, Bool.and_eq_true] at h
    refine ⟨agreesOnField_projected before fields field members hnodup h.1, ?_⟩
    have hassoc : before ++ field :: fields = (before ++ [field]) ++ fields := by simp
    rw [hassoc] at hnodup ⊢
    exact agreesOnFields_projected (before ++ [field]) fields members hnodup h.2

theorem agreesOnField_projected (before fields : List ImpactProjectionField) :
    ∀ (field : ImpactProjectionField) (members : Object),
    (fieldNames (before ++ field :: fields)).Nodup → distinctKeysOf field = true →
    AgreesOnField field (projectedFields (before ++ field :: fields) members) members
  | .mk name shape, members, hnodup, h => by
    rw [AgreesOnField, lookup_projectedFields, shapeAt_of_nodup hnodup, Option.bind_some]
    cases members.lookup name with
    | none => trivial
    | some entry =>
      show AgreesOn shape (projected shape entry) entry
      exact agreesOn_projected shape entry (by rw [distinctKeysOf] at h; exact h)

end

variable {kind gv : String}

section

variable (h : impactReferenceShape kind gv = some shape)
include h

/-- The shapes of the allowlist. -/
theorem impactReferenceShape_cases :
    shape = makeImpactReferenceShape "spec" [] ∨
      shape = makeImpactReferenceShape "spec" ["template", "spec"] ∨
      shape = makeImpactReferenceShape "spec" ["jobTemplate", "spec", "template", "spec"] := by
  unfold impactReferenceShape at h
  split at h
  · exact Or.inl (Option.some.inj h).symm
  · exact Or.inr (Or.inl (Option.some.inj h).symm)
  · exact Or.inr (Or.inr (Option.some.inj h).symm)
  · cases h

/-- Every one of them has distinct keys. -/
theorem distinctKeys_impactReferenceShape :
    distinctKeys shape = true := by
  obtain rfl | rfl | rfl := impactReferenceShape_cases h <;> decide +kernel

/-- Every one of them is the shape of an object. -/
theorem exists_object_of_impactReferenceShape :
    ∃ fields, shape = .object fields := by
  obtain rfl | rfl | rfl := impactReferenceShape_cases h
  · exact ⟨_, rfl⟩
  · exact ⟨_, rfl⟩
  · exact ⟨_, rfl⟩

end

end KubeAtlas.Proofs.Projection
