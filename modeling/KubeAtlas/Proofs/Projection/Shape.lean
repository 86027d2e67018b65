import KubeAtlas.Graph.Projection

/-!
# `KubeAtlas.Proofs.Projection.Shape`: what a shape keeps of a value, and at what cost

`projectImpactValue` copies and charges in one walk. Here the two
are taken apart: `projected shape v` is the copy,
`projectionCost shape v` the bytes charged for it, and
`projectImpactValue_meters` puts them together again. Since costs
add, the outcome of a walk depends on the budget only through one
comparison.

* `lookup_projectedFields`: an allowlisted key of a projected object
  holds the projection of what it held, any other key is gone.
* `AgreesOn shape v v'`: the two values look the same through the
  shape. It is defined without reference to the projection, by
  recursion on the shape.
* `projected_congr`: agreeing values have one projection at one
  cost.
-/

set_option autoImplicit false

namespace KubeAtlas.Proofs.Projection

open KubeAtlas.Graph Lib
open Lib.Budget (Meters andThen free pay cost)

/-! ### The copy and its cost -/

mutual

/-- The value that `projectImpactValue` copies. -/
def projected : ImpactFieldShape → Json → Json
  | .string, value =>
    match value with
    | .str text => .str text
    | _ => .null
  | .presenceString, value =>
    match value with
    | .str text => if text = "" then .str "" else .str impactPresentString
    | _ => .null
  | .boolean, value =>
    match value with
    | .bool flag => .bool flag
    | _ => .null
  | .object fields, value =>
    match value with
    | .obj object => .obj (projectedFields fields object)
    | _ => .null
  | .array element, value =>
    match value with
    | .arr items => .arr (items.map (projected element))
    | _ => .null

def projectedFields : List ImpactProjectionField → Object → Object
  | [], _ => []
  | field :: fields, object => projectedField field object ++ projectedFields fields object

def projectedField : ImpactProjectionField → Object → Object
  | .mk name shape, object =>
    match object.lookup name with
    | none => []
    | some entry => [(name, projected shape entry)]

end

mutual

/-- The bytes that `projectImpactValue` charges. -/
def projectionCost : ImpactFieldShape → Json → Nat
  | .string, value =>
    32 + match value with
      | .str text => cost 0 [text]
      | _ => 0
  | .presenceString, value =>
    32 + match value with
      | .str text => if text = "" then 0 else cost 0 [impactPresentString]
      | _ => 0
  | .boolean, _ => 32
  | .object fields, value =>
    32 + match value with
      | .obj object => fieldsCost fields object
      | _ => 0
  | .array element, value =>
    32 + match value with
      | .arr items => (items.map (projectionCost element)).sum
      | _ => 0

def fieldsCost : List ImpactProjectionField → Object → Nat
  | [], _ => 0
  | field :: fields, object => fieldCost field object + fieldsCost fields object

def fieldCost : ImpactProjectionField → Object → Nat
  | .mk name shape, object =>
    match object.lookup name with
    | none => 0
    | some entry => cost 8 [name] + projectionCost shape entry

end

/-! ### The walk copies and charges -/

/-- What a charge takes is its cost. -/
theorem charge_meters (overhead : Nat) (fields : List String) :
    Meters SnapshotError.limit (charge overhead fields) () (cost overhead fields) :=
  Meters.pay _ overhead fields

/-- A walk that charges 32 bytes first. -/
theorem meters_after_charge {α : Type} {m : Projecting α} {a : α} {c : Nat}
    (h : Meters .limit m a c) :
    Meters .limit (andThen (charge 32 []) fun _ => m) a (32 + c) := by
  have hc := (charge_meters 32 []).bind (f := fun _ => m) h
  rwa [Budget.cost_nil] at hc

/-- A walk followed by a pure step. -/
theorem meters_map {α β : Type} {m : Projecting α} {a : α} {c : Nat} (f : α → β)
    (h : Meters .limit m a c) :
    Meters .limit (andThen m fun x => free (f x)) (f a) c := by
  have hf := h.bind (f := fun x => free (f x)) (Meters.free _ (f a))
  rwa [Nat.add_zero] at hf

theorem projectItems_meters {project : Json → Projecting Json} {copy : Json → Json}
    {bytes : Json → Nat} (h : ∀ v, Meters .limit (project v) (copy v) (bytes v))
    (items : List Json) :
    Meters .limit (projectItems project items) (items.map copy) (items.map bytes).sum := by
  induction items with
  | nil => exact Meters.free _ []
  | cons item items ih => exact (h item).bind (meters_map _ ih)

mutual

/-- The walk over a value returns its projection and takes its cost,
or fails. -/
theorem projectImpactValue_meters : ∀ (shape : ImpactFieldShape) (value : Json),
    Meters .limit (projectImpactValue shape value) (projected shape value)
      (projectionCost shape value)
  | .string, value => by
    refine meters_after_charge ?_
    cases value with
    | str text => exact meters_map (fun _ => Json.str text) (charge_meters 0 [text])
    | _ => exact Meters.free _ Json.null
  | .presenceString, value => by
    unfold projectImpactValue projected projectionCost
    refine meters_after_charge ?_
    cases value with
    | str text =>
      by_cases ht : text = ""
      · simp only [ht, if_true]
        exact Meters.free _ (Json.str "")
      · simp only [ht, if_false]
        exact meters_map (fun _ => Json.str impactPresentString) (charge_meters 0 _)
    | _ => exact Meters.free _ Json.null
  | .boolean, value => by
    -- A flag costs nothing beyond the overhead.
    refine meters_after_charge (c := 0) ?_
    cases value with
    | bool flag => exact Meters.free _ (Json.bool flag)
    | _ => exact Meters.free _ Json.null
  | .object fields, value => by
    refine meters_after_charge ?_
    cases value with
    | obj object => exact meters_map Json.obj (projectFields_meters fields object)
    | _ => exact Meters.free _ Json.null
  | .array element, value => by
    refine meters_after_charge ?_
    cases value with
    | arr items =>
      exact meters_map Json.arr
        (projectItems_meters (projectImpactValue_meters element) items)
    | _ => exact Meters.free _ Json.null

theorem projectFields_meters : ∀ (fields : List ImpactProjectionField) (object : Object),
    Meters .limit (projectFields fields object) (projectedFields fields object)
      (fieldsCost fields object)
  | [], _ => Meters.free _ []
  | field :: fields, object =>
    (projectField_meters field object).bind
      (meters_map _ (projectFields_meters fields object))

theorem projectField_meters : ∀ (field : ImpactProjectionField) (object : Object),
    Meters .limit (projectField field object) (projectedField field object)
      (fieldCost field object)
  | .mk name shape, object => by
    unfold projectField projectedField fieldCost
    cases object.lookup name with
    | none => exact Meters.free _ []
    | some entry =>
      exact (charge_meters 8 [name]).bind
        (meters_map (fun v => [(name, v)]) (projectImpactValue_meters shape entry))

end

/-! ### Reading a projected object -/

/-- The shape a list of fields has for a key. -/
def shapeAt (key : String) : List ImpactProjectionField → Option ImpactFieldShape
  | [] => none
  | .mk name shape :: fields => if name = key then some shape else shapeAt key fields

variable (fields : List ImpactProjectionField)

/-- An allowlisted key holds the projection of what it held; any
other key is gone. -/
theorem lookup_projectedFields (object : Object) (key : String) :
    (projectedFields fields object).lookup key
      = (shapeAt key fields).bind fun shape => (object.lookup key).map (projected shape) := by
  induction fields with
  | nil => rfl
  | cons field fields ih =>
    obtain ⟨name, shape⟩ := field
    rw [projectedFields, projectedField, shapeAt]
    by_cases hname : name = key
    · subst hname
      rw [if_pos rfl, Option.bind_some]
      cases hentry : object.lookup name with
      | none =>
        -- The key is absent, so no later field of that name puts it back.
        rw [List.nil_append, ih, hentry]
        cases shapeAt name fields <;> rfl
      | some entry => simp
    · rw [if_neg hname]
      cases object.lookup name with
      | none => exact ih
      | some entry =>
        have hkey : (key == name) = false := by
          rw [beq_eq_false_iff_ne]
          exact Ne.symm hname
        rw [List.cons_append, List.nil_append, List.lookup_cons, hkey]
        exact ih

@[simp] theorem projectedFields_nil :
    projectedFields fields [] = [] := by
  induction fields with
  | nil => rfl
  | cons field fields ih =>
    obtain ⟨name, shape⟩ := field
    rw [projectedFields, ih]
    rfl

/-- A projection is empty exactly when the object has none of the
allowlisted keys. -/
theorem projectedFields_eq_nil_iff (object : Object) :
    projectedFields fields object = [] ↔
      ∀ key, (shapeAt key fields).isSome → object.lookup key = none := by
  constructor
  · intro h key hkey
    obtain ⟨shape, hshape⟩ := Option.isSome_iff_exists.mp hkey
    have hlook := lookup_projectedFields fields object key
    rw [h, hshape] at hlook
    simpa using hlook.symm
  · intro h
    induction fields with
    | nil => rfl
    | cons field fields ih =>
      obtain ⟨name, shape⟩ := field
      rw [projectedFields, projectedField, h name (by simp [shapeAt]), List.nil_append]
      refine ih fun key hkey => h key ?_
      rw [shapeAt]
      split
      · rfl
      · exact hkey

/-! ### Values that agree through a shape -/

mutual

/-- The two values look the same through the shape: both are texts
and equal, or neither is a text; both objects agree on every
allowlisted key, its absence included; arrays agree position by
position. Of a sub-path only its emptiness counts. -/
def AgreesOn : ImpactFieldShape → Json → Json → Prop
  | .string, v, v' => v.str? = v'.str?
  | .presenceString, v, v' =>
    v.str?.map (fun text => decide (text = "")) = v'.str?.map fun text => decide (text = "")
  | .boolean, v, v' => v.bool? = v'.bool?
  | .object fields, v, v' =>
    match v.members?, v'.members? with
    | some object, some object' => AgreesOnFields fields object object'
    | none, none => True
    | _, _ => False
  | .array element, v, v' =>
    match v.items?, v'.items? with
    | some items, some items' => List.Forall₂ (AgreesOn element) items items'
    | none, none => True
    | _, _ => False

def AgreesOnFields : List ImpactProjectionField → Object → Object → Prop
  | [], _, _ => True
  | field :: fields, object, object' =>
    AgreesOnField field object object' ∧ AgreesOnFields fields object object'

def AgreesOnField : ImpactProjectionField → Object → Object → Prop
  | .mk name shape, object, object' =>
    match object.lookup name, object'.lookup name with
    | some entry, some entry' => AgreesOn shape entry entry'
    | none, none => True
    | _, _ => False

end

/-- Agreement item by item. -/
theorem items_congr {element : ImpactFieldShape}
    (h : ∀ v v', AgreesOn element v v' → projected element v = projected element v' ∧
      projectionCost element v = projectionCost element v')
    {items items' : List Json} (hitems : List.Forall₂ (AgreesOn element) items items') :
    items.map (projected element) = items'.map (projected element) ∧
      items.map (projectionCost element) = items'.map (projectionCost element) := by
  induction hitems with
  | nil => exact ⟨rfl, rfl⟩
  | cons hv _ ih =>
    obtain ⟨hcopy, hcost⟩ := h _ _ hv
    simp only [List.map_cons, hcopy, hcost, ih.1, ih.2, and_self]

mutual

/-- Agreeing values have the same projection, at the same cost. -/
theorem projected_congr : ∀ (shape : ImpactFieldShape) (v v' : Json), AgreesOn shape v v' →
    projected shape v = projected shape v' ∧ projectionCost shape v = projectionCost shape v'
  | .string, v, v', h => by
    unfold AgreesOn at h
    cases v <;> cases v' <;> simp_all [Json.str?, projected, projectionCost]
  | .presenceString, v, v', h => by
    unfold AgreesOn at h
    cases v with
    | str text =>
      cases v' with
      | str text' =>
        simp only [Json.str?, Option.map_some, Option.some.injEq, decide_eq_decide] at h
        by_cases ht : text = ""
        · simp [projected, projectionCost, ht, h.mp ht]
        · have ht' : text' ≠ "" := fun h' => ht (h.mpr h')
          simp [projected, projectionCost, ht, ht']
      | _ => exact absurd h (by simp [Json.str?])
    | _ =>
      cases v' with
      | str text' => exact absurd h (by simp [Json.str?])
      | _ => exact ⟨rfl, rfl⟩
  | .boolean, v, v', h => by
    unfold AgreesOn at h
    cases v <;> cases v' <;> simp_all [Json.bool?, projected, projectionCost]
  | .object fields, v, v', h => by
    cases v with
    | obj object =>
      cases v' with
      | obj object' =>
        obtain ⟨hcopy, hcost⟩ := projectedFields_congr fields object object' h
        simp only [projected, projectionCost, hcopy, hcost, and_self]
      | _ => exact absurd h id
    | _ =>
      cases v' with
      | obj object' => exact absurd h id
      | _ => exact ⟨rfl, rfl⟩
  | .array element, v, v', h => by
    cases v with
    | arr items =>
      cases v' with
      | arr items' =>
        obtain ⟨hcopy, hcost⟩ := items_congr (projected_congr element) h
        simp only [projected, projectionCost, hcopy, hcost, and_self]
      | _ => exact absurd h id
    | _ =>
      cases v' with
      | arr items' => exact absurd h id
      | _ => exact ⟨rfl, rfl⟩

theorem projectedFields_congr : ∀ (fields : List ImpactProjectionField)
    (object object' : Object), AgreesOnFields fields object object' →
    projectedFields fields object = projectedFields fields object' ∧
      fieldsCost fields object = fieldsCost fields object'
  | [], _, _, _ => ⟨rfl, rfl⟩
  | field :: fields, object, object', h => by
    obtain ⟨hcopy, hcost⟩ := projectedField_congr field object object' h.1
    obtain ⟨hcopies, hcosts⟩ := projectedFields_congr fields object object' h.2
    rw [projectedFields, projectedFields, fieldsCost, fieldsCost, hcopy, hcost, hcopies, hcosts]
    exact ⟨rfl, rfl⟩

theorem projectedField_congr : ∀ (field : ImpactProjectionField) (object object' : Object),
    AgreesOnField field object object' →
    projectedField field object = projectedField field object' ∧
      fieldCost field object = fieldCost field object'
  | .mk name shape, object, object', h => by
    unfold AgreesOnField at h
    unfold projectedField fieldCost
    cases hv : object.lookup name with
    | none =>
      cases hv' : object'.lookup name with
      | none => exact ⟨rfl, rfl⟩
      | some entry' =>
        rw [hv, hv'] at h
        exact absurd h id
    | some entry =>
      cases hv' : object'.lookup name with
      | none =>
        rw [hv, hv'] at h
        exact absurd h id
      | some entry' =>
        rw [hv, hv'] at h
        obtain ⟨hcopy, hcost⟩ := projected_congr shape entry entry' h
        simp only [hcopy, hcost, and_self]

end

end KubeAtlas.Proofs.Projection
