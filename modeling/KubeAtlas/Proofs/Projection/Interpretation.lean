import KubeAtlas.Analysis.References
import KubeAtlas.Proofs.Projection.Shape

/-!
# `KubeAtlas.Proofs.Projection.Interpretation`: explaining a projected resource

Two walks over a pod spec were written independently: the allowlist
projection and the reference reader. The reader must not notice that
it sees a projection. The proof goes through the reader bottom up:
each of its steps gives the same result on a projected value as on
the value itself. That holds because a wrong-typed value is
projected to `null` and not dropped, so the reader marks the same
values as malformed, and because arrays keep their positions.

`explain_addResource` is the statement for whole resources. The
reader's verdict, the uses and the budget agree; the reason agrees
unless the raw object has none of the allowlisted top-level keys, in
which case its projection is absent altogether.
-/

set_option autoImplicit false

namespace KubeAtlas.Proofs.Projection

open KubeAtlas.Graph Lib Analysis Analysis.ImpactPodReferences

/-! ### Reading a projected object -/

section Reading

variable {fields : List ImpactProjectionField} {key : String} (o : Object)

/-- A text field reads the same: a value of another type reads as
`""` either way. -/
@[simp]
theorem refString_projected (h : shapeAt key fields = some .string) :
    refString (projectedFields fields o) key = refString o key := by
  unfold refString
  rw [lookup_projectedFields, h, Option.bind_some]
  cases o.lookup key with
  | none => rfl
  | some value => cases value <;> rfl

/-- An array field has the same positions, with projected items. -/
theorem array_projected {element : ImpactFieldShape}
    (h : shapeAt key fields = some (.array element)) :
    array (projectedFields fields o) key = List.map (projected element) <$> array o key := by
  unfold array
  rw [lookup_projectedFields, h, Option.bind_some]
  cases o.lookup key with
  | none => rfl
  | some value => cases value <;> rfl

/-- An object reads as its projection; a value of another type is
malformed either way. -/
@[simp]
theorem object_projected (fields : List ImpactProjectionField) (value : Json) :
    object (projected (.object fields) value) = projectedFields fields <$> object value := by
  cases value with
  | obj members => rfl
  | _ =>
    simp only [projected, object, Json.members?, map_bind, map_pure, projectedFields_nil]

/-- A loop over projected items. -/
theorem forRange_map (body : Nat → Json → Walking Unit) (f : Json → Json) (i : Nat)
    (items : List Json) :
    forRange body i (items.map f) = forRange (fun j item => body j (f item)) i items := by
  induction items generalizing i with
  | nil => rfl
  | cons item items ih => rw [List.map_cons, forRange, forRange, ih]

/-- The `optional` flag reads the same wherever it is read at all. -/
theorem useOptional_projected {kind : String}
    (h : kind ≠ "PersistentVolumeClaim" → shapeAt "optional" fields = some .boolean) :
    useOptional (projectedFields fields o) kind = useOptional o kind := by
  unfold useOptional
  by_cases hk : kind = "PersistentVolumeClaim"
  · rw [if_pos hk, if_pos hk]
  · rw [if_neg hk, if_neg hk, lookup_projectedFields, h hk, Option.bind_some]
    cases o.lookup "optional" with
    | none => rfl
    | some value => cases value <;> rfl

/-- A sub-path field reads the same: only its emptiness counts. -/
@[simp]
theorem subPathField_projected (h : shapeAt key fields = some .presenceString) :
    subPathField (projectedFields fields o) key = subPathField o key := by
  unfold subPathField
  rw [lookup_projectedFields, h, Option.bind_some]
  cases o.lookup key with
  | none => rfl
  | some value =>
    cases value with
    | str text =>
      by_cases ht : text = ""
      · simp [projected, ht]
      · simp [projected, ht, impactPresentString]
    | _ => rfl

end Reading

/-! ### The walk over a projected pod spec -/

section Walk

variable (ns clusterID : String) {kind nameField : String} {fields : List ImpactProjectionField}

theorem add_projected (o : Object) (hname : shapeAt nameField fields = some .string)
    (hopt : kind ≠ "PersistentVolumeClaim" → shapeAt "optional" fields = some .boolean)
    (path : String) (mode : UseMode) (mountPath : String) (subPath : Bool) :
    add ns clusterID (projectedFields fields o) kind nameField path mode mountPath subPath
      = add ns clusterID o kind nameField path mode mountPath subPath := by
  unfold add
  simp only [refString_projected o hname, useOptional_projected o hopt]

/-- A reference by name below an allowlisted key. -/
@[simp]
theorem addRef_projected {ref : String} (o : Object) (h : shapeAt ref fields = some impactRefShape)
    (kind path : String) :
    addRef ns clusterID (projectedFields fields o) kind path ref
      = addRef ns clusterID o kind path ref := by
  unfold addRef
  rw [lookup_projectedFields, h, Option.bind_some]
  cases o.lookup ref with
  | none => rfl
  | some value =>
    simp only [Option.map_some, impactRefShape, object_projected, bind_map_left]
    congr 1
    funext members
    exact add_projected ns clusterID members rfl (fun _ => rfl) _ _ _ _

section

variable (path : String) (i : Nat) (entry : Json)

@[simp]
theorem envFromEntry_projected :
    envFromEntry ns clusterID path i (projected impactEnvFromShape entry)
      = envFromEntry ns clusterID path i entry := by
  simp [envFromEntry, impactEnvFromShape, shapeAt]

@[simp]
theorem envEntry_projected :
    envEntry ns clusterID path i (projected impactEnvShape entry)
      = envEntry ns clusterID path i entry := by
  simp only [envEntry, impactEnvShape, object_projected, bind_map_left, lookup_projectedFields]
  congr 1
  funext _
  congr 1
  funext members
  cases members.lookup "valueFrom" <;> simp [shapeAt]

@[simp]
theorem volumeMountEntry_projected :
    volumeMountEntry path i (projected impactVolumeMountShape entry)
      = volumeMountEntry path i entry := by
  simp [volumeMountEntry, impactVolumeMountShape, shapeAt]

end

/-- A loop over a projected array, whose body does not notice. -/
theorem forArray_projected {key : String} {element : ImpactFieldShape} (o : Object)
    (h : shapeAt key fields = some (.array element)) {body : Nat → Json → Walking Unit}
    (hbody : ∀ i item, body i (projected element item) = body i item) :
    forArray (projectedFields fields o) key body = forArray o key body := by
  unfold forArray
  rw [array_projected o h, bind_map_left]
  simp only [forRange_map, hbody]

theorem container_projected (pathPrefix : String) (i : Nat) (item : Json) :
    container ns clusterID pathPrefix i (projected impactContainerShape item)
      = container ns clusterID pathPrefix i item := by
  simp [container, impactContainerShape,
    forArray_projected _ _ (envFromEntry_projected ns clusterID _),
    forArray_projected _ _ (envEntry_projected ns clusterID _),
    forArray_projected _ _ (volumeMountEntry_projected _), shapeAt]

/-- The fields of `impactPodSpecShape`. -/
def podSpecFields : List ImpactProjectionField :=
  [.mk "containers" (.array impactContainerShape),
    .mk "initContainers" (.array impactContainerShape),
    .mk "ephemeralContainers" (.array impactContainerShape),
    .mk "volumes" (.array impactVolumeShape)]

section

variable (o : Object) (hname : shapeAt nameField fields = some .string)
  (hopt : kind ≠ "PersistentVolumeClaim" → shapeAt "optional" fields = some .boolean)
include hname hopt

theorem addMounts_projected (path : String) (mounts : List ImpactReferenceMount) :
    addMounts ns clusterID (projectedFields fields o) kind nameField path mounts
      = addMounts ns clusterID o kind nameField path mounts := by
  induction mounts with
  | nil => rfl
  | cons mount mounts ih =>
    rw [addMounts, addMounts, add_projected ns clusterID o hname hopt, ih]

theorem volumeUse_projected (path volumeName : String) :
    volumeUse ns clusterID (projectedFields fields o) kind nameField path volumeName
      = volumeUse ns clusterID o kind nameField path volumeName := by
  unfold volumeUse
  simp only [add_projected ns clusterID o hname hopt,
    addMounts_projected ns clusterID o hname hopt]

end

/-- The fields of a reference by name, of a Secret volume and of a
claim volume. -/
def refFields : List ImpactProjectionField := [.mk "name" .string, .mk "optional" .boolean]

def secretVolumeFields : List ImpactProjectionField :=
  [.mk "secretName" .string, .mk "optional" .boolean]

def claimVolumeFields : List ImpactProjectionField := [.mk "claimName" .string]

/-- A volume source below an allowlisted key. -/
theorem volumeRef_projected {outer : List ImpactProjectionField}
    (fields : List ImpactProjectionField) {field kind nameField : String} (o : Object)
    (hfield : shapeAt field outer = some (.object fields))
    (hname : shapeAt nameField fields = some .string)
    (hopt : kind ≠ "PersistentVolumeClaim" → shapeAt "optional" fields = some .boolean)
    (path volumeName : String) :
    volumeRef ns clusterID (projectedFields outer o) field kind nameField path volumeName
      = volumeRef ns clusterID o field kind nameField path volumeName := by
  unfold volumeRef
  rw [lookup_projectedFields, hfield, Option.bind_some]
  cases o.lookup field with
  | none => rfl
  | some value =>
    simp only [Option.map_some, object_projected, bind_map_left,
      volumeUse_projected ns clusterID _ hname hopt]

theorem projectedSource_projected (path volumeName : String) (j : Nat) (entry : Json) :
    projectedSource ns clusterID path volumeName j (projected impactProjectedSourceShape entry)
      = projectedSource ns clusterID path volumeName j entry := by
  simp only [projectedSource, impactProjectedSourceShape, object_projected, bind_map_left]
  congr 1
  funext _
  congr 1
  funext members
  rw [volumeRef_projected ns clusterID refFields members rfl rfl (fun _ => rfl),
    volumeRef_projected ns clusterID refFields members rfl rfl (fun _ => rfl)]

variable (pathPrefix : String) (i : Nat) (seen : List String)

theorem volume_projected (entry : Json) :
    volume ns clusterID pathPrefix i seen (projected impactVolumeShape entry)
      = volume ns clusterID pathPrefix i seen entry := by
  simp only [volume, impactVolumeShape, object_projected, bind_map_left]
  congr 1
  funext _
  congr 1
  funext members
  rw [refString_projected members rfl,
    volumeRef_projected ns clusterID refFields members rfl rfl (fun _ => rfl),
    volumeRef_projected ns clusterID secretVolumeFields members rfl rfl (fun _ => rfl),
    volumeRef_projected ns clusterID claimVolumeFields members rfl rfl (fun h => absurd rfl h),
    lookup_projectedFields]
  -- What remains is the list of projected sources.
  cases members.lookup "projected" with
  | none => simp [shapeAt]
  | some value =>
    simp [shapeAt, forArray_projected _ _ (projectedSource_projected ns clusterID _ _)]

theorem volumeLoop_projected (entries : List Json) :
    volumeLoop ns clusterID pathPrefix i seen (entries.map (projected impactVolumeShape))
      = volumeLoop ns clusterID pathPrefix i seen entries := by
  induction entries generalizing i seen with
  | nil => rfl
  | cons entry entries ih =>
    rw [List.map_cons, volumeLoop, volumeLoop, volume_projected]
    simp only [ih]

/-- The walk over a projected pod spec is the walk over the pod
spec. -/
theorem podSpec_projected (spec : Object) (pathPrefix : String) :
    podSpec ns clusterID (projectedFields podSpecFields spec) pathPrefix
      = podSpec ns clusterID spec pathPrefix := by
  have hvolumes : volumes ns clusterID (projectedFields podSpecFields spec)
      = volumes ns clusterID spec := by
    funext path
    unfold volumes
    rw [array_projected spec (show shapeAt "volumes" podSpecFields = _ from rfl), bind_map_left]
    simp only [volumeLoop_projected]
  unfold podSpec containers
  rw [hvolumes, forArray_projected spec rfl (container_projected ns clusterID _),
    forArray_projected spec rfl (container_projected ns clusterID _),
    forArray_projected spec rfl (container_projected ns clusterID _)]

end Walk

/-! ### The raw object around the pod spec -/

/-- The fields of the shape below the keys of a path. -/
def nestedFields : List String → List ImpactProjectionField
  | [] => podSpecFields
  | key :: rest => [.mk key (impactNestedShape rest)]

/-- The fields of the shape of a whole raw object. -/
def rawFields (rest : List String) : List ImpactProjectionField :=
  [.mk "kind" .string, .mk "apiVersion" .string, .mk "metadata" impactMetadataShape,
    .mk "spec" (impactNestedShape rest)]

theorem impactNestedShape_eq (rest : List String) :
    impactNestedShape rest = .object (nestedFields rest) := by
  cases rest <;> rfl

/-- Going down one key of a projected object. -/
theorem podSpecAt_cons_projected {fields : List ImpactProjectionField} {key : String}
    {rest : List String} (h : shapeAt key fields = some (impactNestedShape rest))
    (hrest : ∀ o, podSpecAt (projectedFields (nestedFields rest) o) rest
      = (podSpecAt o rest).map (projectedFields podSpecFields)) (o : Object) :
    podSpecAt (projectedFields fields o) (key :: rest)
      = (podSpecAt o (key :: rest)).map (projectedFields podSpecFields) := by
  rw [podSpecAt, podSpecAt, lookup_projectedFields, h, Option.bind_some, impactNestedShape_eq]
  cases o.lookup key with
  | none => rfl
  | some value =>
    cases value with
    | obj members => exact hrest members
    | _ => rfl

theorem podSpecAt_nested (rest : List String) (o : Object) :
    podSpecAt (projectedFields (nestedFields rest) o) rest
      = (podSpecAt o rest).map (projectedFields podSpecFields) := by
  induction rest generalizing o with
  | nil => rfl
  | cons key rest ih =>
    exact podSpecAt_cons_projected (by simp [nestedFields, shapeAt]) ih o

/-- The pod spec of a projected raw object is the projected pod
spec. -/
theorem podSpecAt_projected (rest : List String) (raw : Object) :
    podSpecAt (projectedFields (rawFields rest) raw) ("spec" :: rest)
      = (podSpecAt raw ("spec" :: rest)).map (projectedFields podSpecFields) :=
  podSpecAt_cons_projected (by simp [rawFields, shapeAt]) (podSpecAt_nested rest) raw

/-- The identity check reads allowlisted texts only. -/
theorem rawIdentityMatches_projected (r : Resource) (rest : List String) (raw : Object) :
    rawIdentityMatches r (projectedFields (rawFields rest) raw) = rawIdentityMatches r raw := by
  have hmeta : (((projectedFields (rawFields rest) raw).lookup "metadata").bind
        Json.members?).getD []
      = projectedFields [.mk "name" .string, .mk "namespace" .string, .mk "uid" .string,
          .mk "resourceVersion" .string]
        (((raw.lookup "metadata").bind Json.members?).getD []) := by
    rw [lookup_projectedFields]
    cases raw.lookup "metadata" with
    | none => simp [rawFields, shapeAt]
    | some value => cases value <;> simp [rawFields, shapeAt, impactMetadataShape, projected,
        Json.members?]
  unfold rawIdentityMatches
  simp only [hmeta]
  simp only [refString_projected, rawFields, shapeAt, if_true, String.reduceEq, if_false]

/-- The supported kinds: the path of the pod spec starts at `spec`,
and the shape follows that path. -/
theorem impactPodSpecPath_cases (kind gv : String) :
    (impactPodSpecPath kind gv = none ∧ impactReferenceShape kind gv = none) ∨
      ∃ rest, impactPodSpecPath kind gv = some ("spec" :: rest) ∧
        impactReferenceShape kind gv = some (.object (rawFields rest)) ∧ kind ≠ "" := by
  unfold impactReferenceShape
  cases hpath : impactPodSpecPath kind gv with
  | none => exact Or.inl ⟨rfl, rfl⟩
  | some path =>
    right
    unfold impactPodSpecPath at hpath
    have hkind : kind ≠ "" := by
      intro hk
      subst hk
      simp at hpath
    split at hpath
    · cases hpath
      exact ⟨[], rfl, rfl, hkind⟩
    · split_ifs at hpath <;> cases hpath
      · exact ⟨["template", "spec"], rfl, rfl, hkind⟩
      · exact ⟨["jobTemplate", "spec", "template", "spec"], rfl, rfl, hkind⟩

/-! ### The projected resource -/

/-- The raw object of a projected resource. -/
def projectedRaw (r : Resource) : Option Object :=
  match impactReferenceShape r.kind r.groupVersion, r.raw with
  | some shape, some raw =>
    if r.uid = "" || r.resourceVersion = "" then none
    else
      match projected shape (.obj raw) with
      | .obj (m :: ms) => some (m :: ms)
      | _ => none
  | _, _ => none

/-- The bytes charged for it. -/
def rawCost (r : Resource) : Nat :=
  match impactReferenceShape r.kind r.groupVersion, r.raw with
  | some shape, some raw =>
    if r.uid = "" || r.resourceVersion = "" then 0 else projectionCost shape (.obj raw)
  | _, _ => 0

/-- The resource that `AddResource` appends for a sanitized one. -/
def projectedResource (r : Resource) : Resource :=
  sanitizeResource
    { kind := r.kind, name := r.name, ns := r.ns, clusterID := r.clusterID, uid := r.uid,
      resourceVersion := r.resourceVersion, groupVersion := r.groupVersion,
      ownerReferences := r.ownerReferences, raw := projectedRaw r }

/-- The bytes that `AddResource` charges for a sanitized resource. -/
def resourceCost (r : Resource) : Nat :=
  Budget.cost 512 [r.kind, r.name, r.ns, r.clusterID, r.groupVersion, r.uid,
    r.resourceVersion] +
  ((r.ownerReferences.map fun owner =>
      Budget.cost 64 [owner.kind, owner.name, owner.uid]).sum +
    rawCost r)

/-- A resource that is no Secret keeps its identity, its owners and
the projected raw object. -/
theorem projectedResource_of_ne {r : Resource} (h : r.kind ≠ "Secret") :
    projectedResource r =
      { kind := r.kind, name := r.name, ns := r.ns, clusterID := r.clusterID, uid := r.uid,
        resourceVersion := r.resourceVersion, groupVersion := r.groupVersion,
        ownerReferences := r.ownerReferences, raw := projectedRaw r } := by
  unfold projectedResource
  rw [sanitizeResource_of_ne]
  exact h

theorem projectReferenceFields_meters (r : Resource) :
    Budget.Meters .limit (projectReferenceFields r) (projectedRaw r) (rawCost r) := by
  unfold projectReferenceFields projectedRaw rawCost
  cases impactReferenceShape r.kind r.groupVersion with
  | none => exact Budget.Meters.free _ none
  | some shape =>
    cases r.raw with
    | none => exact Budget.Meters.free _ none
    | some raw =>
      simp only
      split
      · exact Budget.Meters.free _ none
      · have h := (projectImpactValue_meters shape (.obj raw)).bind
          (f := fun value => match value with
            | .obj (m :: ms) => Budget.free (some (m :: ms))
            | _ => Budget.free none)
          (b := match projected shape (.obj raw) with
            | .obj (m :: ms) => some (m :: ms)
            | _ => none) (d := 0) ?_
        · exact h
        · split
          · exact Budget.Meters.free _ _
          · exact Budget.Meters.free _ none

theorem chargeOwners_meters (owners : List OwnerRef) :
    Budget.Meters .limit (ImpactProjectionBuilder.chargeOwners owners) ()
      (owners.map fun owner => Budget.cost 64 [owner.kind, owner.name, owner.uid]).sum := by
  induction owners with
  | nil => exact Budget.Meters.free _ ()
  | cons owner owners ih => exact (charge_meters 64 _).bind ih

theorem projectResource_meters (r : Resource) :
    Budget.Meters .limit (ImpactProjectionBuilder.projectResource r) (projectedResource r)
      (resourceCost r) := by
  refine (charge_meters 512 _).bind ((chargeOwners_meters _).bind ?_)
  exact meters_map _ (projectReferenceFields_meters r)

/-- `AddResource` appends the projected resource, or fails. -/
theorem addResource_eq (b : ImpactProjectionBuilder) (r : Resource) :
    b.addResource r =
      if r.clusterID ≠ b.opts.clusterID then .ok b
      else if (b.graph.resources.length : Int) = b.opts.maxResources ∨
          b.remaining < resourceCost (sanitizeResource r) then .error .limit
      else .ok { b with
        graph := { b.graph with
          resources := b.graph.resources ++ [projectedResource (sanitizeResource r)] }
        remaining := b.remaining - resourceCost (sanitizeResource r) } := by
  unfold ImpactProjectionBuilder.addResource
  by_cases hc : r.clusterID ≠ b.opts.clusterID
  · rw [if_pos hc, if_pos hc]
  · rw [if_neg hc, if_neg hc]
    by_cases hfull : (b.graph.resources.length : Int) = b.opts.maxResources
    · rw [if_pos hfull, if_pos (Or.inl hfull)]
    · rw [if_neg hfull, projectResource_meters (sanitizeResource r) b.remaining]
      by_cases hcost : resourceCost (sanitizeResource r) ≤ b.remaining
      · rw [if_pos hcost, if_neg (by omega)]
      · rw [if_neg hcost, if_pos (Or.inr (by omega))]

/-! ### Explaining an edge of a projected resource -/

/-- Two runs of the reader that cannot be told apart by status,
uses, error or remaining budget. -/
structure SameVerdict (x y : Except ImpactError ImpactReferenceEvidence × ImpactReferenceReader) :
    Prop where
  verdict : (x.1.map fun e => (e.status, e.uses)) = y.1.map fun e => (e.status, e.uses)
  entries : x.2.entries = y.2.entries
  bytes : x.2.bytes = y.2.bytes

theorem SameVerdict.refl
    (x : Except ImpactError ImpactReferenceEvidence × ImpactReferenceReader) :
    SameVerdict x x :=
  ⟨rfl, rfl, rfl⟩

/-- Parsing the projected resource. The one difference: a raw object
without any allowlisted key has no projection, so the reader finds
no fields where it would have found another identity. -/
theorem parse_projected (r : Resource) (hr : r.kind ≠ "Secret") :
    (∀ reader : ImpactReferenceReader,
        reader.parse (projectedResource r) = reader.parse r) ∨
      ((∃ raw, r.raw = some raw ∧
          ∀ key ∈ ["kind", "apiVersion", "metadata", "spec"], raw.lookup key = none) ∧
        ∀ reader : ImpactReferenceReader,
          reader.parse r = (.ok { reason := .sourceIdentityOrVersionMismatch }, reader) ∧
          reader.parse (projectedResource r)
            = (.ok { reason := .sourceFieldsUnavailable }, reader)) := by
  rw [projectedResource_of_ne hr]
  unfold ImpactReferenceReader.parse
  by_cases hver : (decide (r.uid = "") || decide (r.resourceVersion = "")) = true
  · left
    intro reader
    simp only [hver, if_true]
  · simp only [hver]
    unfold projectedRaw
    cases impactPodSpecPath_cases r.kind r.groupVersion with
    | inl hnone =>
      left
      intro reader
      simp only [hnone.1]
    | inr hsome =>
      obtain ⟨rest, hpath, hshape, hkind⟩ := hsome
      simp only [hpath, hshape]
      cases hraw : r.raw with
      | none => exact Or.inl fun _ => rfl
      | some raw =>
        simp only [hver]
        cases hproj : projectedFields (rawFields rest) raw with
        | nil =>
          -- No allowlisted key: the identity check fails on the kind.
          right
          have hkeys := (projectedFields_eq_nil_iff _ _).mp hproj
          have hmis : rawIdentityMatches r raw = false := by
            have hk : raw.lookup "kind" = none := hkeys _ (by simp [rawFields, shapeAt])
            simp [rawIdentityMatches, refString, hk, Ne.symm hkind]
          refine ⟨⟨raw, rfl, fun key hkey => hkeys key ?_⟩, fun reader => ⟨?_, ?_⟩⟩
          · simp only [List.mem_cons, List.not_mem_nil, or_false] at hkey
            rcases hkey with rfl | rfl | rfl | rfl <;> simp [rawFields, shapeAt]
          · simp [hmis]
          · simp [projected, hproj]
        | cons m ms =>
          left
          intro reader
          have hid := rawIdentityMatches_projected r rest raw
          have hspec := podSpecAt_projected rest raw
          rw [hproj] at hid hspec
          -- The check reads the identity fields, which the projection keeps.
          have hsame : ∀ raw' o, rawIdentityMatches
              { kind := r.kind, name := r.name, ns := r.ns, clusterID := r.clusterID
                uid := r.uid, resourceVersion := r.resourceVersion
                groupVersion := r.groupVersion, ownerReferences := r.ownerReferences
                raw := raw' } o = rawIdentityMatches r o := fun _ _ => rfl
          simp only [projected, hproj, Bool.false_eq_true, if_false, hsame, hid]
          by_cases hmatch : rawIdentityMatches r raw = true
          · simp only [hmatch, hspec]
            cases podSpecAt raw ("spec" :: rest) with
            | none => rfl
            | some spec =>
              simp only [Option.map_some, podSpec_projected]
          · simp only [hmatch]
            rfl

/-- The reader asks the consumer for its kind, its version and its
declarations. -/
theorem explain_congr {p r : Resource}
    (hparse : ∀ reader : ImpactReferenceReader, reader.parse p = reader.parse r)
    (hkind : p.kind = r.kind) (huid : p.uid = r.uid)
    (hversion : p.resourceVersion = r.resourceVersion) (hID : p.ID = r.ID)
    (reader : ImpactReferenceReader) (target : Resource) (step : ImpactStep) :
    reader.explain p target step = reader.explain r target step := by
  have hparsed : ∀ reader : ImpactReferenceReader, reader.parsed p = reader.parsed r := by
    intro reader
    unfold ImpactReferenceReader.parsed
    rw [hID, hparse]
  unfold ImpactReferenceReader.explain
  simp only [hkind, huid, hversion, hparsed]

/-- Two consumers whose declarations are absent, for whatever
reason, get the same verdict. -/
theorem explain_sameVerdict_of_absent {p r : Resource} {a b : EvidenceReason}
    (hp : ∀ reader : ImpactReferenceReader, reader.parse p = (.ok { reason := a }, reader))
    (hr : ∀ reader : ImpactReferenceReader, reader.parse r = (.ok { reason := b }, reader))
    (ha : a ≠ .none) (hb : b ≠ .none) (hkind : p.kind = r.kind) (huid : p.uid = r.uid)
    (hversion : p.resourceVersion = r.resourceVersion) (hID : p.ID = r.ID)
    (reader : ImpactReferenceReader) (target : Resource) (step : ImpactStep) :
    SameVerdict (reader.explain p target step) (reader.explain r target step) := by
  unfold ImpactReferenceReader.explain
  simp only [hkind, huid, hversion]
  cases reader.charge 256 [step.fromID, step.toID] with
  | mk first reader =>
    cases first with
    | error e => exact .refl _
    | ok _ =>
      by_cases hsecret : r.kind = "Secret"
      · simp only [hsecret, if_true]
        exact .refl _
      · simp only [hsecret, if_false]
        cases reader.charge 0 [r.uid, r.resourceVersion] with
        | mk second reader =>
          cases second with
          | error e => exact .refl _
          | ok _ =>
            simp only [ImpactReferenceReader.parsed, hID, hp, hr]
            split
            · exact .refl _
            · -- A cached entry is shared; a fresh one has no uses.
              cases reader.sources r.ID with
              | some parsed => exact .refl _
              | none =>
                simp only [ne_eq, ha, hb, not_false_eq_true, if_true]
                exact ⟨rfl, rfl, rfl⟩

/-- Explaining an edge of a resource that `AddResource` projected
gives the status, the uses, the error and the remaining budget of
explaining it on the resource itself, for every target, step and
budget. The reason is the same too when the raw object has one of
the allowlisted top-level keys. -/
theorem explain_addResource (b b' : ImpactProjectionBuilder) (r p : Resource)
    (hadd : b.addResource r = .ok b')
    (hp : b'.graph.resources = b.graph.resources ++ [p])
    (reader : ImpactReferenceReader) (target : Resource) (step : ImpactStep) :
    SameVerdict (reader.explain p target step) (reader.explain r target step) ∧
      ((∀ raw, r.raw = some raw →
          ∃ key ∈ ["kind", "apiVersion", "metadata", "spec"], (raw.lookup key).isSome) →
        ((reader.explain p target step).1.map fun e => e.reason)
          = (reader.explain r target step).1.map fun e => e.reason) := by
  have hproj : p = projectedResource (sanitizeResource r) := by
    rw [addResource_eq] at hadd
    split at hadd
    · -- Another cluster: nothing is appended.
      rw [← Except.ok.inj hadd] at hp
      exact absurd (congrArg List.length hp) (by simp)
    · split at hadd
      · exact absurd hadd (by simp)
      · rw [← Except.ok.inj hadd] at hp
        have := List.append_cancel_left hp
        simpa using this.symm
  by_cases hsecret : r.kind = "Secret"
  · -- A Secret is explained by its kind alone.
    have hpk : p.kind = "Secret" := by
      rw [hproj, projectedResource, sanitizeResource_kind, sanitizeResource_kind, hsecret]
    have heq : reader.explain p target step = reader.explain r target step := by
      unfold ImpactReferenceReader.explain
      simp only [hpk, hsecret, if_true]
    rw [heq]
    exact ⟨.refl _, fun _ => rfl⟩
  · rw [sanitizeResource_of_ne r hsecret] at hproj
    cases parse_projected r hsecret with
    | inl hparse =>
      rw [projectedResource_of_ne hsecret] at hproj hparse
      subst hproj
      rw [explain_congr hparse rfl rfl rfl rfl]
      exact ⟨.refl _, fun _ => rfl⟩
    | inr habsent =>
      obtain ⟨⟨raw, hraw, hkeys⟩, hparse⟩ := habsent
      rw [projectedResource_of_ne hsecret] at hproj hparse
      subst hproj
      refine ⟨explain_sameVerdict_of_absent (fun reader => (hparse reader).2)
        (fun reader => (hparse reader).1) (by decide) (by decide) rfl rfl rfl rfl reader target
        step, fun hsome => ?_⟩
      obtain ⟨key, hkey, hlook⟩ := hsome raw hraw
      rw [hkeys key hkey] at hlook
      exact absurd hlook (by simp)

/-- A Pod that mounts a ConfigMap under a sub-path, with a
literal variable beside. -/
def mountingPod : Resource where
  kind := "Pod"
  name := "p"
  ns := "d"
  groupVersion := "v1"
  uid := "u"
  resourceVersion := "7"
  raw := some
    [("kind", .str "Pod"), ("apiVersion", .str "v1"),
     ("metadata", .obj [("name", .str "p"), ("namespace", .str "d"), ("uid", .str "u"),
       ("resourceVersion", .str "7")]),
     ("spec", .obj
       [("containers", .arr [.obj
          [("env", .arr [.obj [("name", .str "TOKEN"), ("value", .str "secret")]]),
           ("volumeMounts", .arr [.obj [("name", .str "v"), ("subPath", .str "a/b")]])]]),
        ("volumes", .arr [.obj [("name", .str "v"), ("configMap", .obj [("name", .str "c")])]])])]

/-- The builder with room for one resource, before and after the Pod
is added. -/
def emptyBuilder : ImpactProjectionBuilder := ⟨⟨[], []⟩, { maxResources := 1 }, 10000⟩

theorem explain_addResource_mountingPod :
    emptyBuilder.addResource mountingPod = .ok
        { emptyBuilder with
          graph := ⟨[projectedResource mountingPod], []⟩
          remaining := 10000 - resourceCost mountingPod } ∧
      SameVerdict
        (newImpactReferenceReader.explain (projectedResource mountingPod)
          { kind := "ConfigMap" }
          ⟨"d/Pod/p", "d/ConfigMap/c", .usesConfigMap, "", "", none⟩)
        (newImpactReferenceReader.explain mountingPod { kind := "ConfigMap" }
          ⟨"d/Pod/p", "d/ConfigMap/c", .usesConfigMap, "", "", none⟩) := by
  have hadd : emptyBuilder.addResource mountingPod = .ok
      { emptyBuilder with
        graph := ⟨[projectedResource mountingPod], []⟩
        remaining := 10000 - resourceCost mountingPod } := by
    rfl
  exact ⟨hadd, (explain_addResource _ _ _ _ hadd rfl _ _ _).1⟩

end KubeAtlas.Proofs.Projection
