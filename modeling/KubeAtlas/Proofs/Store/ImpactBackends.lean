import KubeAtlas.Proofs.Graph.Identifiers
import KubeAtlas.Proofs.Projection.Compiler
import KubeAtlas.Proofs.Projection.Noninterference

/-!
# `KubeAtlas.Proofs.Store.ImpactBackends`: the two backends take the same snapshots

The memory store hands its resources to the projection builder as
they are. The Postgres store hands over what a query has already
projected. `row_of_resource` says that the builder cannot tell the
two apart, neither by what it copies nor by what it charges; a row
that the query withholds for its length is one that does not fit the
budget either. From there both snapshots are the same loop over the
same rows (`readImpactRows_eq`), and `snapshotImpact_backends`
compares their outcomes.
-/

set_option autoImplicit false

namespace KubeAtlas.Proofs.Store

open KubeAtlas.Graph Lib
open Lib.Strings (len)
open KubeAtlas.Store KubeAtlas.Proofs.Projection

/-! ### Reading a stored row -/

/-- A text in SQL, where the empty one was not written. -/
def present (s : String) : Option String := if s = "" then none else some s

theorem lookup_cons_ite {α : Type} (k key : String) (v : α) (ms : List (String × α)) :
    ((key, v) :: ms).lookup k = if k = key then some v else ms.lookup k := by
  rw [List.lookup_cons]
  by_cases h : k = key
  · rw [if_pos h, h, beq_self_eq_true]
  · rw [if_neg h, beq_false_of_ne h]

/-- A member that may be left out. -/
def member (key : String) (v : Option Json) : Object := v.toList.map fun v => (key, v)

@[simp]
theorem lookup_member (key k : String) (v : Option Json) :
    (member key v).lookup k = if k = key then v else none := by
  cases v with
  | none => exact (ite_self _).symm
  | some v => exact lookup_cons_ite k key v []

@[simp]
theorem any_member (key : String) (v : Option Json) (p : String × Json → Bool) :
    (member key v).any p = v.any fun v => p (key, v) := by
  cases v <;> simp [member]

theorem mem_member {key : String} {v : Option Json} {m : String × Json} (h : m ∈ member key v) :
    m.1 = key := by
  obtain ⟨v, -, rfl⟩ := List.mem_map.mp h
  rfl

/-- The owner references, where an empty slice was not written. -/
def ownersOf (owners : List OwnerRef) : Option Json :=
  if owners = [] then none else some (.arr (owners.map encodeOwner))

@[simp]
theorem omitEmpty_eq (key s : String) : omitEmpty key s = member key ((present s).map .str) := by
  unfold omitEmpty present
  split <;> rfl

@[simp]
theorem omitEmptyMap_eq (key : String) (entries : StringMap) :
    omitEmptyMap key entries = member key
      (if entries = [] then none
        else some (.obj (entries.map fun entry => (entry.1, .str entry.2)))) := by
  unfold omitEmptyMap
  split <;> rfl

@[simp]
theorem omitEmptyOwners_eq (key : String) (owners : List OwnerRef) :
    omitEmptyOwners key owners = member key (ownersOf owners) := by
  unfold omitEmptyOwners ownersOf
  split <;> rfl

/-- An empty raw object is lost. -/
@[simp]
theorem omitEmptyRaw_eq (key : String) (raw : Option Object) :
    omitEmptyRaw key raw = member key ((raw.filter fun raw => raw ≠ []).map .obj) := by
  match raw with
  | none => rfl
  | some [] => rfl
  | some (m :: ms) => rfl

section Row

variable (r : Resource)

/-- The columns that hold a text, as SQL reads them. -/
structure TextColumns (r : Resource) (data : Json) : Prop where
  kind : Jsonb.getText data "kind" = some r.kind
  name : Jsonb.getText data "name" = some r.name
  ns : Jsonb.getText data "namespace" = some r.ns
  groupVersion : Jsonb.getText data "groupVersion" = present r.groupVersion
  uid : Jsonb.getText data "uid" = present r.uid
  resourceVersion : Jsonb.getText data "resourceVersion" = present r.resourceVersion
  clusterID : Jsonb.getText data "clusterId" = present r.clusterID

theorem textColumns : TextColumns r (.obj (storageBlob r)) := by
  constructor <;>
    exact Jsonb.getText_of_get (by simp [Jsonb.get, Json.members?, storageBlob,
      List.lookup_append, lookup_cons_ite])

theorem lookup_storageBlob :
    (storageBlob r).lookup "ownerReferences" = ownersOf r.ownerReferences ∧
      (storageBlob r).lookup "raw" = (r.raw.filter fun raw => raw ≠ []).map .obj := by
  simp [storageBlob, List.lookup_append, lookup_cons_ite]

theorem present_getD (s : String) : (present s).getD "" = s := by
  unfold present
  by_cases h : s = "" <;> simp [h]

theorem clusterIDColumn_storageBlob : clusterIDColumn (storageBlob r) = r.clusterID := by
  unfold clusterIDColumn
  rw [(textColumns r).clusterID, present_getD]

end Row

/-! ### The reference fields of a row -/

/-- The `CASE` over the layouts picks the first layout whose
condition holds. -/
theorem find_impactCases (raw : Option Json) (kind gv : String)
    (layouts : List ((String × String) × (String → String → Bool))) (sequence : Nat) :
    (((impactCases layouts sequence).find? fun branch => branch.1 kind gv).map fun branch =>
        branch.2.eval raw fun _ => none)
      = (layouts.find? fun layout => (impactReferenceShape layout.1.1 layout.1.2).isSome &&
          layout.2 kind gv).bind fun layout =>
            (impactReferenceShape layout.1.1 layout.1.2).map fun shape =>
              projectedAt shape raw := by
  induction layouts generalizing sequence with
  | nil => rfl
  | cons layout layouts ih =>
    obtain ⟨sample, condition⟩ := layout
    rw [impactCases]
    cases hshape : impactReferenceShape sample.1 sample.2 with
    | none =>
      rw [List.find?_cons_of_neg (by simp [hshape])]
      exact ih sequence
    | some shape =>
      show (((condition, (project shape .raw sequence).1) ::
        impactCases layouts (project shape .raw sequence).2).find? _).map _ = _
      by_cases hcond : condition kind gv = true
      · rw [List.find?_cons_of_pos (by exact hcond), List.find?_cons_of_pos
          (by simp [hshape, hcond])]
        show some ((project shape .raw sequence).1.eval raw _)
          = (impactReferenceShape sample.1 sample.2).map _
        rw [eval_project, hshape]
        rfl
      · rw [List.find?_cons_of_neg (by exact hcond), List.find?_cons_of_neg
          (by simp [hshape, hcond])]
        exact ih _

/-- The three layouts are the three cases of `ImpactPodSpecPath`. -/
theorem impactCases_eq (raw : Option Json) (kind gv : String) :
    (((impactCases impactLayouts 0).find? fun branch => branch.1 kind gv).map fun branch =>
        branch.2.eval raw fun _ => none)
      = (impactReferenceShape kind gv).map fun shape => projectedAt shape raw := by
  rw [find_impactCases]
  by_cases hpod : kind = "Pod" ∧ gv = "v1"
  · obtain ⟨rfl, rfl⟩ := hpod
    rfl
  by_cases htemplate : (kind = "Deployment" ∨ kind = "ReplicaSet" ∨ kind = "StatefulSet" ∨
      kind = "DaemonSet") ∧ gv = "apps/v1"
  · obtain ⟨rfl | rfl | rfl | rfl, rfl⟩ := htemplate <;> rfl
  by_cases hjob : kind = "Job" ∧ gv = "batch/v1"
  · obtain ⟨rfl, rfl⟩ := hjob
    rfl
  by_cases hcron : kind = "CronJob" ∧ gv = "batch/v1"
  · obtain ⟨rfl, rfl⟩ := hcron
    rfl
  -- no other kind has a layout, in SQL or in Go
  have hnone : impactReferenceShape kind gv = none := by
    unfold impactReferenceShape impactPodSpecPath
    rw [if_neg (by simpa using hpod), if_neg (by simp; tauto), if_neg (by simpa using hcron)]
    rfl
  have hfind : impactLayouts.find? (fun layout =>
      (impactReferenceShape layout.1.1 layout.1.2).isSome && layout.2 kind gv) = none := by
    rw [List.find?_eq_none]
    intro layout hlayout
    simp only [impactLayouts, List.mem_cons, List.not_mem_nil, or_false] at hlayout
    obtain rfl | rfl | rfl := hlayout
    · simp; tauto
    · simp; tauto
    · simp; tauto
  rw [hfind, hnone]
  rfl

/-- The member `referenceFields` of the row of a resource. -/
def referenceFields (r : Resource) : Json :=
  if r.uid = "" || r.resourceVersion = "" then .null
  else
    match impactReferenceShape r.kind r.groupVersion with
    | none => .null
    | some shape => projectedAt shape (r.raw.map Json.obj)

theorem impactReferenceSQL_storageBlob (r : Resource) (hraw : r.raw ≠ some []) :
    (impactReferenceSQL (storageBlob r)).getD .null = referenceFields r := by
  have hcols := textColumns r
  have hkept : (r.raw.filter fun raw => raw ≠ []) = r.raw := by
    cases h : r.raw with
    | none => rfl
    | some raw => simpa [h] using hraw
  unfold impactReferenceSQL referenceFields
  rw [hcols.uid, hcols.resourceVersion, hcols.kind, hcols.groupVersion, present_getD,
    present_getD, (lookup_storageBlob r).2, hkept]
  by_cases hversion : (r.uid = "" || r.resourceVersion = "") = true
  · rw [if_pos hversion, if_pos hversion]
    rfl
  · rw [if_neg hversion, if_neg hversion]
    by_cases hgv : r.groupVersion = ""
    · -- an empty version was not written, and names no layout
      have hshape : impactReferenceShape r.kind r.groupVersion = none := by
        unfold impactReferenceShape impactPodSpecPath
        simp [hgv]
      rw [hshape, present, if_pos hgv]
      rfl
    · rw [present, if_neg hgv]
      show (Option.map _ ((impactCases impactLayouts 0).find? _)).getD Json.null = _
      rw [impactCases_eq]
      cases impactReferenceShape r.kind r.groupVersion <;> rfl

/-- The reference fields are `null`, and nothing is copied or
charged for them, or they are those of the raw object. -/
theorem referenceFields_cases (r : Resource) :
    (referenceFields r = .null ∧ projectedRaw r = none ∧ rawCost r = 0) ∨
      ∃ fields raw, impactReferenceShape r.kind r.groupVersion = some (.object fields) ∧
        r.raw = some raw ∧ (r.uid = "" || r.resourceVersion = "") = false ∧
        referenceFields r = .obj (projectedFields fields raw) := by
  unfold referenceFields projectedRaw rawCost
  cases hshape : impactReferenceShape r.kind r.groupVersion with
  | none => exact .inl ⟨ite_self _, rfl, rfl⟩
  | some shape =>
    obtain ⟨fields, rfl⟩ := exists_object_of_impactReferenceShape hshape
    cases r.uid = "" || r.resourceVersion = "" with
    | true => cases r.raw <;> exact .inl ⟨rfl, rfl, rfl⟩
    | false =>
      cases r.raw with
      | none => exact .inl ⟨rfl, rfl, rfl⟩
      | some raw => exact .inr ⟨fields, raw, rfl, rfl, rfl, rfl⟩

/-! ### The row of a resource -/

/-- The metadata that the query returns for a resource that is no
Secret. -/
def metadataMembers (r : Resource) : Object :=
  [("kind", .str r.kind), ("name", .str r.name), ("namespace", .str r.ns),
      ("clusterId", .str r.clusterID)] ++
    (omitEmpty "uid" r.uid ++ (omitEmpty "groupVersion" r.groupVersion ++
      (omitEmpty "resourceVersion" r.resourceVersion ++
        omitEmptyOwners "ownerReferences" r.ownerReferences)))

/-- The whole row. -/
def rowMembers (r : Resource) : Object :=
  metadataMembers r ++ [("referenceFields", referenceFields r)]

/-- The row of a Secret. -/
def secretMembers (r : Resource) : Object :=
  [("kind", .str "Secret"), ("name", .str r.name), ("namespace", .str r.ns),
    ("clusterId", .str r.clusterID)]

theorem stripMembers_text (key s : String) (ms : Object) :
    Jsonb.stripMembers ((key, Jsonb.ofText (present s)) :: ms)
      = omitEmpty key s ++ Jsonb.stripMembers ms := by
  rw [Jsonb.stripMembers]
  unfold present omitEmpty
  by_cases h : s = "" <;> simp [h, Jsonb.ofText, Jsonb.typeOf, Jsonb.stripNulls]

theorem stripItems_owners (owners : List OwnerRef) :
    Jsonb.stripItems (owners.map encodeOwner) = owners.map encodeOwner := by
  induction owners with
  | nil => rfl
  | cons owner owners ih =>
    rw [List.map_cons, Jsonb.stripItems, ih]
    rfl

/-- The owner references are selected as they were written. -/
theorem impactOwnerReferencesSQL_storageBlob (r : Resource) :
    impactOwnerReferencesSQL (storageBlob r) = ownersOf r.ownerReferences := by
  have hvalid : ∀ owners : List OwnerRef, (owners.map encodeOwner).any invalidOwner = false := by
    intro owners
    rw [List.any_map, List.any_eq_false]
    intro owner _
    simp [invalidOwner, encodeOwner, Jsonb.typeOf]
  unfold impactOwnerReferencesSQL
  rw [(lookup_storageBlob r).1, ownersOf]
  split_ifs with h
  · rfl
  · show (if (r.ownerReferences.map encodeOwner).any invalidOwner = true then _ else _) = _
    rw [hvalid, if_neg Bool.false_ne_true, List.map_map]
    rfl

variable {key s : String} {r : Resource}

/-- Every member that is to be a text was written as one. -/
theorem no_invalidMember (r : Resource) (data : Object) :
    (storageBlob r).any (invalidMember data) = false := by
  simp [storageBlob, invalidMember, Option.any_map, Jsonb.typeOf]

theorem projectedColumn_secret (hkind : r.kind = "Secret") :
    projectedColumn (storageBlob r) = some (.obj (secretMembers r)) := by
  have hcols := textColumns r
  unfold projectedColumn textColumn
  rw [if_neg (by rw [no_invalidMember]; exact Bool.false_ne_true), hcols.kind, hkind, if_pos rfl,
    hcols.name, hcols.ns, clusterIDColumn_storageBlob]
  rfl

/-- The owner references that `jsonb_strip_nulls` leaves. -/
theorem stripMembers_owners (r : Resource) :
    Jsonb.stripMembers
        [("ownerReferences", (impactOwnerReferencesSQL (storageBlob r)).getD .null)]
      = omitEmptyOwners "ownerReferences" r.ownerReferences := by
  rw [impactOwnerReferencesSQL_storageBlob, ownersOf, omitEmptyOwners]
  split_ifs
  · rfl
  · show [("ownerReferences", Json.arr (Jsonb.stripItems (r.ownerReferences.map encodeOwner)))] = _
    rw [stripItems_owners]

/-- No member of the metadata has the key of the reference fields. -/
theorem key_of_mem_metadataMembers {m : String × Json} (h : m ∈ metadataMembers r) :
    m.1 ≠ "referenceFields" := by
  simp only [metadataMembers, omitEmpty_eq, omitEmptyOwners_eq, List.mem_append] at h
  obtain h | h | h | h | h := h
  · simp only [List.mem_cons, List.not_mem_nil, or_false] at h
    obtain rfl | rfl | rfl | rfl := h <;> simp
  all_goals
    rw [mem_member h]
    simp

theorem projectedColumn_of_ne (hkind : r.kind ≠ "Secret") (hraw : r.raw ≠ some []) :
    projectedColumn (storageBlob r) = some (.obj (rowMembers r)) := by
  have hcols := textColumns r
  unfold projectedColumn textColumn
  rw [if_neg (by rw [no_invalidMember]; exact Bool.false_ne_true), hcols.kind,
    if_neg (by simpa using hkind), hcols.name, hcols.ns, hcols.uid, hcols.groupVersion,
    hcols.resourceVersion, clusterIDColumn_storageBlob, impactReferenceSQL_storageBlob r hraw]
  show some (Json.obj (Jsonb.concat (("kind", Json.str r.kind) :: ("name", .str r.name) ::
    ("namespace", .str r.ns) :: ("clusterId", .str r.clusterID) ::
      Jsonb.stripMembers [("uid", Jsonb.ofText (present r.uid)), _, _, _]) _)) = _
  rw [stripMembers_text, stripMembers_text, stripMembers_text, stripMembers_owners]
  -- the two objects have no key in common
  have hleft : (metadataMembers r).filter
      (fun m => ([("referenceFields", referenceFields r)].lookup m.1).isNone)
        = metadataMembers r := by
    rw [List.filter_eq_self]
    intro m hm
    rw [lookup_cons_ite, if_neg (key_of_mem_metadataMembers hm)]
    rfl
  exact congrArg
    (fun left => some (Json.obj (left ++ [("referenceFields", referenceFields r)]))) hleft

/-! ### Decoding a row -/

/-- The resource that a row decodes to: the identity and the owners,
with the reference fields for the raw object. -/
def rowResource (r : Resource) : Resource :=
  { kind := r.kind, name := r.name, ns := r.ns, clusterID := r.clusterID, uid := r.uid,
    resourceVersion := r.resourceVersion, groupVersion := r.groupVersion,
    ownerReferences := r.ownerReferences, raw := (referenceFields r).members? }

variable {invalid : ImpactRowError} {members : Object}

theorem decodeString_of_lookup (h : members.lookup key = (present s).map .str) :
    decodeString invalid members key = .ok s := by
  unfold decodeString present at *
  by_cases hs : s = "" <;> simp [h, hs]

theorem decodeString_of_str (h : members.lookup key = some (.str s)) :
    decodeString invalid members key = .ok s := by
  unfold decodeString
  rw [h]

theorem mapM_decodeOwner (owners : List OwnerRef) :
    (owners.map encodeOwner).mapM (decodeOwner .invalidResource) = .ok owners := by
  induction owners with
  | nil => rfl
  | cons owner owners ih =>
    rw [List.map_cons, List.mapM_cons, ih]
    rfl

theorem decodeResource_rowMembers (r : Resource) :
    decodeResource (.obj (rowMembers r)) = .ok (rowResource r) := by
  have hlookup : (rowMembers r).lookup "kind" = some (.str r.kind) ∧
      (rowMembers r).lookup "name" = some (.str r.name) ∧
      (rowMembers r).lookup "namespace" = some (.str r.ns) ∧
      (rowMembers r).lookup "clusterId" = some (.str r.clusterID) ∧
      (rowMembers r).lookup "uid" = (present r.uid).map .str ∧
      (rowMembers r).lookup "groupVersion" = (present r.groupVersion).map .str ∧
      (rowMembers r).lookup "resourceVersion" = (present r.resourceVersion).map .str ∧
      (rowMembers r).lookup "ownerReferences" = ownersOf r.ownerReferences ∧
      (rowMembers r).lookup "referenceFields" = some (referenceFields r) := by
    simp [rowMembers, metadataMembers, List.lookup_append, lookup_cons_ite]
  obtain ⟨hkind, hname, hns, hcluster, huid, hgv, hrv, howners, hfields⟩ := hlookup
  have hdecoded : decodeOwners .invalidResource (rowMembers r) = .ok r.ownerReferences := by
    unfold decodeOwners
    rw [howners, ownersOf]
    split_ifs with h
    · rw [h]
    · exact mapM_decodeOwner r.ownerReferences
  have hraw : decodeObject .invalidResource (rowMembers r) "referenceFields"
      = .ok (referenceFields r).members? := by
    unfold decodeObject
    rw [hfields]
    obtain ⟨h, -⟩ | ⟨_, _, -, -, -, h⟩ := referenceFields_cases r <;> rw [h] <;> rfl
  unfold decodeResource
  simp only [decodeString_of_str hkind, decodeString_of_str hname, decodeString_of_str hns,
    decodeString_of_str hcluster, decodeString_of_lookup huid, decodeString_of_lookup hgv,
    decodeString_of_lookup hrv, hdecoded, hraw]
  rfl

theorem decodeResource_secretMembers (r : Resource) :
    decodeResource (.obj (secretMembers r))
      = .ok { kind := "Secret", name := r.name, ns := r.ns, clusterID := r.clusterID } := rfl

/-! ### The builder cannot tell -/

/-- A projected object is projected to itself, at the price of the
original. -/
theorem projected_projected {kind gv : String} {shape : ImpactFieldShape}
    (hshape : impactReferenceShape kind gv = some shape) (v : Json) :
    projected shape (projected shape v) = projected shape v ∧
      projectionCost shape (projected shape v) = projectionCost shape v :=
  projected_congr shape _ _ (agreesOn_projected shape v (distinctKeys_impactReferenceShape hshape))

/-- The reference fields of a row cost what the raw object costs,
and are copied to what it is copied to. -/
theorem raw_rowResource (r : Resource) :
    projectedRaw (rowResource r) = projectedRaw r ∧ rawCost (rowResource r) = rawCost r := by
  obtain ⟨hfields, hraw, hcost⟩ | ⟨fields, raw, hshape, hraw, hversion, hfields⟩ :=
    referenceFields_cases r
  · rw [hraw, hcost]
    unfold projectedRaw rawCost rowResource
    rw [hfields]
    cases impactReferenceShape r.kind r.groupVersion <;> exact ⟨rfl, rfl⟩
  · obtain ⟨hcopy, hcost⟩ := projected_projected hshape (.obj raw)
    have hobj : projected (.object fields) (.obj raw) = .obj (projectedFields fields raw) := by
      rw [projected]
    rw [hobj] at hcopy hcost
    unfold projectedRaw rawCost
    simp only [rowResource, hshape, hraw, hversion, hfields, Json.members?, hcopy, hcost, hobj,
      and_self]

/-- The builder makes of a row what it makes of the resource that
was stored. -/
theorem addResource_rowResource (hkind : r.kind ≠ "Secret") (b : ImpactProjectionBuilder) :
    b.addResource (rowResource r) = b.addResource r := by
  obtain ⟨hraw, hcost⟩ := raw_rowResource r
  have hkind' : (rowResource r).kind ≠ "Secret" := hkind
  have hcopy : projectedResource (rowResource r) = projectedResource r := by
    rw [projectedResource_of_ne hkind', projectedResource_of_ne hkind, hraw]
    rfl
  have hprice : resourceCost (rowResource r) = resourceCost r := by
    unfold resourceCost
    rw [hcost]
    rfl
  rw [addResource_eq, addResource_eq, sanitizeResource_of_ne _ hkind',
    sanitizeResource_of_ne _ hkind, hcopy, hprice]
  rfl

/-- Of a Secret it only reads what the row has. -/
theorem addResource_secret (hkind : r.kind = "Secret") (b : ImpactProjectionBuilder) :
    b.addResource { kind := "Secret", name := r.name, ns := r.ns, clusterID := r.clusterID }
      = b.addResource r := by
  rw [addResource_eq, addResource_eq, sanitizeResource_of_secret r hkind]
  rfl

/-! ### The length of a row -/

theorem cost_singleton (overhead : Nat) (s : String) :
    Budget.cost overhead [s] = overhead + 6 * len s := by
  simp [Budget.cost]

theorem len_render_null : len (Jsonb.render .null) = 4 := by decide

theorem len_render_null_le : len (Jsonb.render .null) + 2 ≤ 32 := by decide

mutual

/-- The text of a projected value, with a separator, is no longer
than what is charged for the value. -/
theorem len_render_projected : ∀ (shape : ImpactFieldShape) (v : Json),
    len (Jsonb.render (projected shape v)) + 2 ≤ projectionCost shape v
  | .string, v => by
    cases v with
    | str text =>
      have h := Jsonb.len_quote_le text
      show len (Jsonb.quote text) + 2 ≤ 32 + Budget.cost 0 [text]
      rw [cost_singleton]
      omega
    | _ => exact len_render_null_le
  | .presenceString, v => by
    have hempty : len (Jsonb.render (.str "")) = 2 := by decide
    have hmarker : len (Jsonb.render (.str impactPresentString)) = 11 := by decide +kernel
    cases v with
    | str text =>
      show len (Jsonb.render (if text = "" then _ else _)) + 2 ≤
        32 + if text = "" then 0 else _
      by_cases htext : text = ""
      · rw [if_pos htext]
        omega
      · rw [if_neg htext]
        omega
    | _ => exact len_render_null_le
  | .boolean, v => by
    have hflag : ∀ flag, len (Jsonb.render (.bool flag)) ≤ 5 := by decide
    cases v with
    | bool flag =>
      have h := hflag flag
      show len (Jsonb.render (.bool flag)) + 2 ≤ 32
      omega
    | _ => exact len_render_null_le
  | .object fields, v => by
    cases v with
    | obj members =>
      have hobj := Jsonb.len_render_obj_le (projectedFields fields members)
      have hfields := len_render_projectedFields fields members
      show len (Jsonb.render (.obj (projectedFields fields members))) + 2 ≤
        32 + fieldsCost fields members
      omega
    | _ => exact len_render_null_le
  | .array element, v => by
    cases v with
    | arr items =>
      have harr := Jsonb.len_render_arr_le (items.map (projected element))
      rw [List.map_map] at harr
      have hitems : (items.map ((fun v => len (Jsonb.render v) + 2) ∘ projected element)).sum ≤
          (items.map (projectionCost element)).sum :=
        List.sum_le_sum fun item _ => len_render_projected element item
      show len (Jsonb.render (.arr (items.map (projected element)))) + 2 ≤
        32 + (items.map (projectionCost element)).sum
      omega
    | _ => exact len_render_null_le

theorem len_render_projectedFields : ∀ (fields : List ImpactProjectionField) (members : Object),
    Jsonb.membersLen (projectedFields fields members) ≤ fieldsCost fields members
  | [], _ => by
    exact Nat.le_refl 0
  | field :: fields, members => by
    rw [projectedFields, fieldsCost, Jsonb.membersLen_append]
    exact Nat.add_le_add (len_render_projectedField field members)
      (len_render_projectedFields fields members)

theorem len_render_projectedField : ∀ (field : ImpactProjectionField) (members : Object),
    Jsonb.membersLen (projectedField field members) ≤ fieldCost field members
  | .mk name shape, members => by
    rw [projectedField, fieldCost]
    cases members.lookup name with
    | none => exact Nat.le_refl 0
    | some entry =>
      have hname := Jsonb.len_quote_le name
      have hentry := len_render_projected shape entry
      show len (Jsonb.quote name) + 4 + len (Jsonb.render (projected shape entry)) + 0 ≤
        Budget.cost 8 [name] + projectionCost shape entry
      rw [cost_singleton]
      omega

end

/-- The lengths of the keys of a row, quoted. -/
theorem len_quote_keys :
    len (Jsonb.quote "kind") = 6 ∧ len (Jsonb.quote "name") = 6 ∧
    len (Jsonb.quote "namespace") = 11 ∧ len (Jsonb.quote "clusterId") = 11 ∧
    len (Jsonb.quote "uid") = 5 ∧ len (Jsonb.quote "groupVersion") = 14 ∧
    len (Jsonb.quote "resourceVersion") = 17 ∧ len (Jsonb.quote "ownerReferences") = 17 ∧
    len (Jsonb.quote "referenceFields") = 17 := by
  decide +kernel

theorem membersLen_text (key s : String) (members : Object) :
    Jsonb.membersLen ((key, .str s) :: members) ≤
      len (Jsonb.quote key) + 6 + 6 * len s + Jsonb.membersLen members := by
  have h := Jsonb.len_quote_le s
  rw [Jsonb.membersLen_cons, show Jsonb.render (.str s) = Jsonb.quote s by rw [Jsonb.render]]
  omega

theorem membersLen_texts (texts : List (String × String)) :
    Jsonb.membersLen (texts.map fun text => (text.1, .str text.2)) ≤
      (texts.map fun text => len (Jsonb.quote text.1) + 6 + 6 * len text.2).sum := by
  induction texts with
  | nil => exact Nat.le_refl 0
  | cons text texts ih =>
    have h := membersLen_text text.1 text.2 (texts.map fun text => (text.1, .str text.2))
    rw [List.map_cons, List.map_cons, List.sum_cons]
    omega

theorem membersLen_omitEmpty (key s : String) :
    Jsonb.membersLen (omitEmpty key s) ≤ len (Jsonb.quote key) + 6 + 6 * len s := by
  unfold omitEmpty
  split_ifs
  · exact Nat.zero_le _
  · exact membersLen_text key s []

/-- The text of an owner reference, with a separator, fits what is
charged for it. -/
theorem len_render_owner (owner : OwnerRef) :
    len (Jsonb.render (encodeOwner owner)) + 2 ≤
      Budget.cost 64 [owner.kind, owner.name, owner.uid] := by
  obtain ⟨hkind, hname, -, -, huid, -⟩ := len_quote_keys
  have hobj := Jsonb.len_render_obj_le
    [("kind", .str owner.kind), ("name", .str owner.name), ("uid", .str owner.uid)]
  have htexts := membersLen_texts
    [("kind", owner.kind), ("name", owner.name), ("uid", owner.uid)]
  unfold encodeOwner Budget.cost
  simp only [List.map_cons, List.map_nil, List.sum_cons, List.sum_nil] at htexts ⊢
  omega

theorem membersLen_omitEmptyOwners (key : String) (owners : List OwnerRef) :
    Jsonb.membersLen (omitEmptyOwners key owners) ≤ len (Jsonb.quote key) + 6 +
      (owners.map fun owner => Budget.cost 64 [owner.kind, owner.name, owner.uid]).sum := by
  unfold omitEmptyOwners
  by_cases h : owners = []
  · rw [if_pos h]
    exact Nat.zero_le _
  · have harr := Jsonb.len_render_arr_le (owners.map encodeOwner)
    rw [List.map_map] at harr
    have howners : (owners.map ((fun v => len (Jsonb.render v) + 2) ∘ encodeOwner)).sum ≤
        (owners.map fun owner => Budget.cost 64 [owner.kind, owner.name, owner.uid]).sum :=
      List.sum_le_sum fun owner _ => len_render_owner owner
    have hnil : Jsonb.membersLen [] = 0 := rfl
    rw [if_neg h, Jsonb.membersLen_cons]
    omega

/-- The text of the reference fields is that of `null`, or fits what
is charged for the raw object. -/
theorem len_render_referenceFields (r : Resource) :
    len (Jsonb.render (referenceFields r)) ≤ 4 + rawCost r := by
  obtain ⟨hfields, -, hcost⟩ | ⟨fields, raw, hshape, hraw, hversion, hfields⟩ :=
    referenceFields_cases r
  · rw [hfields, hcost, len_render_null]
  · have h := len_render_projected (.object fields) (.obj raw)
    rw [projected] at h
    unfold rawCost
    simp only [hfields, hshape, hraw, hversion, Bool.false_eq_true, if_false]
    omega

/-- The text of a row fits what is charged for the resource. -/
theorem len_render_row (r : Resource) :
    len (Jsonb.render (.obj (rowMembers r))) ≤ resourceCost r := by
  obtain ⟨hkind, hname, hns, hcluster, huid, hgv, hrv, howners, hfields⟩ := len_quote_keys
  have hobj := Jsonb.len_render_obj_le (rowMembers r)
  have hrow : Jsonb.membersLen (rowMembers r) ≤ 156 + 6 * len r.kind + 6 * len r.name +
      6 * len r.ns + 6 * len r.clusterID + 6 * len r.uid + 6 * len r.groupVersion +
      6 * len r.resourceVersion +
      (r.ownerReferences.map fun owner => Budget.cost 64 [owner.kind, owner.name, owner.uid]).sum +
      len (Jsonb.render (referenceFields r)) := by
    have htexts := membersLen_texts [("kind", r.kind), ("name", r.name), ("namespace", r.ns),
      ("clusterId", r.clusterID)]
    have h₁ := membersLen_omitEmpty "uid" r.uid
    have h₂ := membersLen_omitEmpty "groupVersion" r.groupVersion
    have h₃ := membersLen_omitEmpty "resourceVersion" r.resourceVersion
    have h₄ := membersLen_omitEmptyOwners "ownerReferences" r.ownerReferences
    have hnil : Jsonb.membersLen [] = 0 := rfl
    simp only [List.map_cons, List.map_nil, List.sum_cons, List.sum_nil] at htexts
    unfold rowMembers metadataMembers
    rw [Jsonb.membersLen_append, Jsonb.membersLen_append, Jsonb.membersLen_append,
      Jsonb.membersLen_append, Jsonb.membersLen_append, Jsonb.membersLen_cons "referenceFields"]
    omega
  have hraw := len_render_referenceFields r
  unfold resourceCost Budget.cost at *
  simp only [List.map_cons, List.map_nil, List.sum_cons, List.sum_nil] at *
  omega

theorem len_render_secret (r : Resource) :
    len (Jsonb.render (.obj (secretMembers r))) ≤
      resourceCost (secretReferenceResource r.ns r.name r.clusterID) := by
  obtain ⟨hkind, hname, hns, hcluster, -⟩ := len_quote_keys
  have hobj := Jsonb.len_render_obj_le (secretMembers r)
  have htexts := membersLen_texts [("kind", "Secret"), ("name", r.name), ("namespace", r.ns),
    ("clusterId", r.clusterID)]
  unfold secretMembers at *
  unfold resourceCost Budget.cost secretReferenceResource
  simp only [List.map_cons, List.map_nil, List.sum_cons, List.sum_nil] at htexts ⊢
  omega

theorem len_render_edge (k : EdgeKey) : len (Jsonb.render (edgeColumn k)) ≤ edgeCost k := by
  have hkeys : len (Jsonb.quote "from") = 6 ∧ len (Jsonb.quote "to") = 4 ∧
      len (Jsonb.quote "type") = 6 := by decide +kernel
  have hobj := Jsonb.len_render_obj_le
    [("from", .str k.fromID), ("to", .str k.toID), ("type", .str k.type)]
  have htexts := membersLen_texts [("from", k.fromID), ("to", k.toID), ("type", k.type)]
  unfold edgeColumn edgeCost Budget.cost
  simp only [List.map_cons, List.map_nil, List.sum_cons, List.sum_nil] at htexts ⊢
  omega

/-! ### The loops over the rows -/

/-- What the builder makes of the row of a resource: what it makes
of the resource. -/
theorem row_of_resource (hraw : r.raw ≠ some []) :
    ∃ row r', projectedColumn (storageBlob r) = some row ∧ decodeResource row = .ok r' ∧
      (∀ b : ImpactProjectionBuilder, b.addResource r' = b.addResource r) ∧
      len (Jsonb.render row) ≤ resourceCost (sanitizeResource r) := by
  by_cases hkind : r.kind = "Secret"
  · refine ⟨_, _, projectedColumn_secret hkind, decodeResource_secretMembers r,
      addResource_secret hkind, ?_⟩
    rw [sanitizeResource_of_secret r hkind]
    exact len_render_secret r
  · refine ⟨_, _, projectedColumn_of_ne hkind hraw, decodeResource_rowMembers r,
      addResource_rowResource hkind, ?_⟩
    rw [sanitizeResource_of_ne r hkind]
    exact len_render_row r

section Rows

variable {α : Type}
  {step : ImpactProjectionBuilder → α → Except SnapshotError ImpactProjectionBuilder}
  {keep : α → Bool} {price : α → Nat} {Valid : ImpactProjectionBuilder → Prop}
  {room : ImpactProjectionBuilder → Nat}
  {push : ImpactProjectionBuilder → α → ImpactProjectionBuilder}

/-- A loop over rows is the loop over what they encode. A row is
withheld only if it is longer than the whole budget, and then its
item costs more than what is left. -/
theorem readImpactRows_eq
    (h : Budget.Takes .limit step keep price Valid room (fun b => b.remaining) push)
    {add : ImpactProjectionBuilder → Json → Except ImpactRowError ImpactProjectionBuilder}
    {column : α → Option Json} {maxBytes : Int} (hmax : 0 ≤ maxBytes) {xs : List α}
    (hrow : ∀ x ∈ xs, keep x = true ∧ ∃ v, column x = some v ∧
      len (Jsonb.render v) ≤ price x ∧ ∀ b, add b v = (step b x).mapError .snapshot)
    {b : ImpactProjectionBuilder} (hb : Valid b) (hbytes : b.remaining ≤ maxBytes.toNat) :
    readImpactRows add b (xs.map fun x => capped maxBytes (column x))
      = (xs.foldlM step b).mapError .snapshot := by
  induction xs generalizing b with
  | nil => rfl
  | cons x xs ih =>
    obtain ⟨hkeep, v, hcolumn, hlen, hadd⟩ := hrow x List.mem_cons_self
    have htake := h.take b x hb hkeep
    unfold readImpactRows at ih ⊢
    rw [List.map_cons, List.foldlM_cons, List.foldlM_cons, hcolumn, capped, Option.filter_some]
    by_cases hfits : (len (Jsonb.render v) : Int) ≤ maxBytes
    · rw [if_pos (decide_eq_true hfits)]
      show (add b v).bind _ = ((step b x).bind _).mapError _
      rw [hadd, htake]
      by_cases hfull : room b = 0 ∨ b.remaining < price x
      · rw [if_pos hfull]
        rfl
      · rw [if_neg hfull]
        obtain ⟨hvalid, -, hleft⟩ := h.push b x hb (by omega)
        exact ih (fun y hy => hrow y (List.mem_cons_of_mem x hy)) hvalid (by omega)
    · rw [if_neg (by simpa using hfits)]
      show Except.error (ImpactRowError.snapshot .limit) = ((step b x).bind _).mapError _
      rw [htake, if_pos (Or.inr (by omega))]
      rfl

end Rows

variable {rs : List Resource} {o : ImpactSnapshotOptions}

/-- The rows of `resources`, whatever the limit leaves of them. -/
theorem readImpactRows_resources (hmax : 0 ≤ o.maxBytes) (hpos : 0 ≤ o.maxResources)
    (hraw : ∀ r ∈ rs, r.raw ≠ some []) :
    readImpactRows addResourceRow (builderOf o [])
        (impactResourcesSQL (rs.map storageBlob) o.clusterID (o.maxResources + 1) o.maxBytes)
      = (rs.foldlM ImpactProjectionBuilder.addResource (builderOf o [])).mapError .snapshot := by
  have hvalid : (builderOf o []).opts = o ∧
      (((builderOf o []).graph.resources.length : Nat) : Int) ≤ o.maxResources := ⟨rfl, hpos⟩
  have hcluster : (fun data => decide (clusterIDColumn data = o.clusterID)) ∘ storageBlob
      = fun r => decide (r.clusterID = o.clusterID) := by
    funext r
    show decide (clusterIDColumn (storageBlob r) = o.clusterID) = _
    rw [clusterIDColumn_storageBlob]
  have hroom : (o.maxResources - (((builderOf o []).graph.resources.length : Nat) : Int)).toNat
      < (o.maxResources + 1).toNat := by
    show (o.maxResources - (0 : Nat)).toNat < _
    omega
  unfold impactResourcesSQL
  rw [List.filter_map, hcluster, ← List.map_take, List.map_map,
    ← (addResource_takes o).foldlM_take rs hvalid hroom]
  apply readImpactRows_eq (addResource_takes o) hmax _ hvalid (Nat.sub_le _ _)
  intro r hr
  obtain ⟨hmem, hkeep⟩ := List.mem_filter.mp (List.mem_of_mem_take hr)
  obtain ⟨row, r', hcolumn, hdecode, hadd, hlen⟩ := row_of_resource (hraw r hmem)
  refine ⟨hkeep, row, hcolumn, hlen, fun b => ?_⟩
  unfold addResourceRow
  rw [hdecode, ← hadd b]
  rfl

/-- The rows of `edges`. -/
theorem readImpactRows_edges (hmax : 0 ≤ o.maxBytes) (hpos : 0 ≤ o.maxEdges) (rs : List Resource)
    (keys : List EdgeKey) :
    readImpactRows addEdgeRow (builderOf o rs)
        (impactEdgesSQL keys o.clusterID (o.maxEdges + 1) o.maxBytes)
      = ((keys.map bareEdge).foldlM ImpactProjectionBuilder.addEdge (builderOf o rs)).mapError
          .snapshot := by
  have hvalid : (builderOf o rs).opts = o ∧
      (((builderOf o rs).graph.edges.length : Nat) : Int) ≤ o.maxEdges := ⟨rfl, hpos⟩
  have hcluster : (fun k : EdgeKey => impactEdgesWhere o.clusterID k.fromID k.toID)
      = (fun e => edgeInCluster o.clusterID e.key) ∘ bareEdge := by
    funext k
    exact Graph.impactEdgesWhere_eq o.clusterID k.fromID k.toID
  have hroom : (o.maxEdges - (((builderOf o rs).graph.edges.length : Nat) : Int)).toNat
      < (o.maxEdges + 1).toNat := by
    show (o.maxEdges - (0 : Nat)).toNat < _
    omega
  have hrows : impactEdgesSQL keys o.clusterID (o.maxEdges + 1) o.maxBytes =
      (((keys.map bareEdge).filter fun e => edgeInCluster o.clusterID e.key).take
        (o.maxEdges + 1).toNat).map fun e => capped o.maxBytes (some (edgeColumn e.key)) := by
    unfold impactEdgesSQL
    rw [hcluster, List.filter_map, ← List.map_take, List.map_map]
    rfl
  rw [hrows, ← (addEdge_takes o).foldlM_take (keys.map bareEdge) hvalid hroom]
  apply readImpactRows_eq (addEdge_takes o) hmax _ hvalid (Nat.sub_le _ _)
  intro e he
  obtain ⟨hmem, hkeep⟩ := List.mem_filter.mp (List.mem_of_mem_take he)
  obtain ⟨k, -, rfl⟩ := List.mem_map.mp hmem
  exact ⟨hkeep, _, rfl, len_render_edge k, fun b => rfl⟩

/-! ### The two backends -/

variable {opts o : ImpactSnapshotOptions}

/-- Options that have been normalized stay as they are. -/
theorem normalize_normalized (h : opts.normalize = .ok o) :
    o.normalize = .ok o ∧ 0 ≤ o.maxBytes := by
  unfold ImpactSnapshotOptions.normalize at h ⊢
  dsimp only at h ⊢
  split at h
  · cases h
  · rename_i hvalid
    cases h
    generalize opts.withDefaults = o at hvalid
    have hbounds : o.maxResources ≠ 0 ∧ o.maxEdges ≠ 0 ∧ o.maxBytes ≠ 0 ∧ 0 ≤ o.maxBytes := by
      simp only [Bool.or_eq_true, decide_eq_true_eq] at hvalid
      omega
    have hdefaults : o.withDefaults = o := by
      unfold ImpactSnapshotOptions.withDefaults
      rw [if_neg hbounds.1, if_neg hbounds.2.1, if_neg hbounds.2.2.1]
    rw [hdefaults, if_neg hvalid]
    exact ⟨rfl, hbounds.2.2.2⟩

/-- A snapshot of the tables with valid options succeeds exactly
when what it selects fits. -/
theorem postgres_snapshotImpact_eq (hopts : opts.normalize = .ok o)
    (hraw : ∀ r ∈ rs, r.raw ≠ some []) (keys : List EdgeKey) :
    (ImpactTables.mk (rs.map storageBlob) keys).snapshotImpact opts =
      if Fits o (chosenResources o.clusterID rs)
          (chosenEdges o.clusterID (keys.map bareEdge)) then
        .ok ⟨(chosenResources o.clusterID rs).map fun r => projectedResource (sanitizeResource r),
          (chosenEdges o.clusterID (keys.map bareEdge)).map fun e => bareEdge e.key⟩
      else .error (.snapshot .limit) := by
  obtain ⟨hnormal, hmax⟩ := normalize_normalized hopts
  obtain ⟨-, hpos⟩ := normalize_ok hopts
  have hbuilder : newImpactProjectionBuilder o = .ok (builderOf o []) := by
    unfold newImpactProjectionBuilder
    rw [hnormal]
    rfl
  have hrun : (ImpactTables.mk (rs.map storageBlob) keys).snapshotImpact opts =
      ((rs.foldlM ImpactProjectionBuilder.addResource (builderOf o [])).bind fun b =>
        ((keys.map bareEdge).foldlM ImpactProjectionBuilder.addEdge b).map fun b =>
          b.graph).mapError .snapshot := by
    unfold ImpactTables.snapshotImpact
    rw [hopts]
    show ((newImpactProjectionBuilder o).mapError ImpactRowError.snapshot).bind _ = _
    rw [hbuilder]
    show (readImpactRows addResourceRow (builderOf o []) (impactResourcesSQL (rs.map storageBlob)
      o.clusterID (o.maxResources + 1) o.maxBytes)).bind _ = _
    rw [readImpactRows_resources hmax hpos.1 hraw, foldlM_addResource hpos.1]
    split
    · show (readImpactRows addEdgeRow (builderOf o _) (impactEdgesSQL keys o.clusterID
        (o.maxEdges + 1) o.maxBytes)).map (fun b => b.graph) = _
      rw [readImpactRows_edges hmax hpos.2]
      show _ = (((keys.map bareEdge).foldlM ImpactProjectionBuilder.addEdge
        (builderOf o _)).map fun b => b.graph).mapError _
      cases (keys.map bareEdge).foldlM ImpactProjectionBuilder.addEdge (builderOf o _) <;> rfl
    · rfl
  rw [hrun, foldlM_snapshot hpos, apply_ite (Except.mapError _)]
  rfl

/-- The tables hold what the memory store holds: each resource and
each edge is one row, and the rows stand in any order. -/
structure SameContents (range : MapOrder) (s : MemoryStore) (t : ImpactTables) : Prop where
  resources : ∃ rs : List Resource,
    rs.Perm (GoMap.values range s.resources) ∧ t.resources = rs.map storageBlob
  edges : t.edges.Perm ((s.outgoing.values range).map Edge.key)

/-- The two snapshots have the same resources and edges up to order,
or fail with the same error of the options or of a limit. -/
inductive SameOutcome : Except SnapshotError Graph → Except ImpactRowError Graph → Prop
  | ok {g g' : Graph} (hresources : g.resources.Perm g'.resources)
      (hedges : g.edges.Perm g'.edges) : SameOutcome (.ok g) (.ok g')
  | error (e : SnapshotError) : SameOutcome (.error e) (.error (.snapshot e))

theorem fits_perm {rs rs' : List Resource} {es es' : List Edge} (hrs : rs.Perm rs')
    (hes : (es.map Edge.key).Perm (es'.map Edge.key)) :
    Fits o rs es ↔ Fits o rs' es' := by
  have hcost : resourcesCost rs = resourcesCost rs' := (hrs.map _).sum_eq
  have hkeys : edgesCost es = edgesCost es' := by
    have h := (hes.map edgeCost).sum_eq
    rw [List.map_map, List.map_map] at h
    exact h
  have hlen : es.length = es'.length := by
    simpa only [List.length_map] using hes.length_eq
  unfold Fits
  rw [hcost, hkeys, hrs.length_eq, hlen]

/-- The selected keys are selected before or after the edges are
stripped to them. -/
theorem keys_chosenEdges (cluster : String) (es : List Edge) :
    (chosenEdges cluster es).map Edge.key
      = (es.map Edge.key).filter fun k => edgeInCluster cluster k := by
  rw [List.filter_map]
  rfl

/-- The two backends take the same snapshots of the same contents,
under every options value. Each resource is read back from its row
such that the builder copies the same fields of it and is left with
the same budget, whatever it held before. -/
theorem snapshotImpact_backends (range : MapOrder) (s : MemoryStore) (t : ImpactTables)
    (hsame : SameContents range s t)
    (hraw : ∀ r ∈ GoMap.values range s.resources, r.raw ≠ some []) :
    (∀ opts, SameOutcome (s.snapshotImpact range opts) (t.snapshotImpact opts)) ∧
    ∀ r ∈ GoMap.values range s.resources, ∃ row r',
      projectedColumn (storageBlob r) = some row ∧ decodeResource row = .ok r' ∧
      ∀ b : ImpactProjectionBuilder, b.addResource r' = b.addResource r := by
  obtain ⟨⟨rs, hperm, hrows⟩, hedges⟩ := hsame
  refine ⟨fun opts => ?_, fun r hr => ?_⟩
  · cases hopts : opts.normalize with
    | error e =>
      -- neither backend gets as far as its contents
      have hmem : s.snapshotImpact range opts = .error e := by
        unfold MemoryStore.snapshotImpact newImpactProjectionBuilder
        rw [hopts]
        rfl
      have hpg : t.snapshotImpact opts = .error (.snapshot e) := by
        unfold ImpactTables.snapshotImpact
        rw [hopts]
        rfl
      rw [hmem, hpg]
      exact .error e
    | ok o =>
      have hkeys : (chosenEdges o.clusterID (t.edges.map bareEdge)).map Edge.key |>.Perm
          ((chosenEdges o.clusterID (s.outgoing.values range)).map Edge.key) := by
        rw [keys_chosenEdges, keys_chosenEdges, List.map_map,
          show Edge.key ∘ bareEdge = id from rfl, List.map_id]
        exact hedges.filter _
      have hchosen : (chosenResources o.clusterID rs).Perm
          (chosenResources o.clusterID (GoMap.values range s.resources)) := hperm.filter _
      have ht : t = ⟨rs.map storageBlob, t.edges⟩ := by
        rw [← hrows]
      rw [snapshotImpact_eq range s hopts (normalize_ok hopts).2, ht,
        postgres_snapshotImpact_eq hopts (fun r hr => hraw r (hperm.subset hr)) t.edges]
      by_cases hfits : Fits o (chosenResources o.clusterID (GoMap.values range s.resources))
          (chosenEdges o.clusterID (s.outgoing.values range))
      · rw [if_pos hfits, if_pos ((fits_perm hchosen hkeys).mpr hfits)]
        refine .ok (hchosen.map _).symm ?_
        have h := (hkeys.map bareEdge).symm
        rw [List.map_map, List.map_map] at h
        exact h
      · rw [if_neg hfits, if_neg fun h => hfits ((fits_perm hchosen hkeys).mp h)]
        exact .error .limit
  · obtain ⟨row, r', hcolumn, hdecode, hadd, -⟩ := row_of_resource (hraw r hr)
    exact ⟨row, r', hcolumn, hdecode, hadd⟩

/-- A Pod that mounts a Secret, with a member of the wrong type and
a literal value. -/
def mountingPod : Resource :=
  { kind := "Pod", name := "p", ns := "d", groupVersion := "v1", uid := "u",
    resourceVersion := "1"
    raw := some [("spec", .obj [("serviceAccountName", .bool true),
      ("volumes", .arr [.null, .obj [("secret", .obj [("secretName", .str "s")])]])])] }

/-- The edge from the Pod to the Secret. -/
def mountingEdge : Edge := { fromID := "d/Pod/p", toID := "d/Secret/s", type := "USES_SECRET" }

/-- The Pod and the Secret in the two backends, with the rows the
other way round. -/
def mountingStore : MemoryStore where
  resources := ⟨[⟨"d/Secret/s", secretReferenceResource "d" "s" ""⟩, ⟨"d/Pod/p", mountingPod⟩],
    show ["d/Secret/s", "d/Pod/p"].Nodup by decide⟩
  outgoing := AList.singleton "d/Pod/p" (AList.singleton ⟨"d/Secret/s", "USES_SECRET"⟩ mountingEdge)
  incoming := AList.singleton "d/Secret/s" (AList.singleton ⟨"d/Pod/p", "USES_SECRET"⟩ mountingEdge)

def mountingTables : ImpactTables where
  resources := [mountingPod, secretReferenceResource "d" "s" ""].map storageBlob
  edges := [mountingEdge.key]

theorem snapshotImpact_backends_mounting :
    SameContents RangeOrder.inserted mountingStore mountingTables ∧
    (∀ r ∈ GoMap.values RangeOrder.inserted mountingStore.resources, r.raw ≠ some []) ∧
    SameOutcome (mountingStore.snapshotImpact RangeOrder.inserted {})
      (mountingTables.snapshotImpact {}) := by
  have hsame : SameContents RangeOrder.inserted mountingStore mountingTables :=
    ⟨⟨[mountingPod, secretReferenceResource "d" "s" ""], .swap _ _ _, rfl⟩, .refl _⟩
  have hraw : ∀ r ∈ GoMap.values RangeOrder.inserted mountingStore.resources,
      r.raw ≠ some [] := by
    show ∀ r ∈ [secretReferenceResource "d" "s" "", mountingPod], r.raw ≠ some []
    simp [mountingPod, secretReferenceResource]
  obtain ⟨houtcome, -⟩ :=
    snapshotImpact_backends RangeOrder.inserted mountingStore mountingTables hsame hraw
  exact ⟨hsame, hraw, houtcome {}⟩

end KubeAtlas.Proofs.Store
