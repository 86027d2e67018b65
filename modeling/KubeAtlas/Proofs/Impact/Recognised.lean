import KubeAtlas.Analysis.References
import KubeAtlas.Extractor.References

/-!
# `KubeAtlas.Proofs.Impact.Recognised`: the references a pod spec declares

What the reference reader recognises in a pod spec, as a list read
off the spec: `specReferences`. The walk charges a budget, marks
malformed fields and adds a use for each mount of a volume; none of
this changes which targets have a use in the end, as long as nothing
is malformed. `Collects act post refs` says this of one step of the
walk, and the rules for it follow the walk: `Collects.bind` for a
sequence, `collects_forRange` for a loop. `uses_of_parse` is the
result for a whole resource.

The fields are read with the readers of the extractors, so that the
two walks can be compared. A field that is absent reads as `""`
there, and `""` is no reference.
-/

set_option autoImplicit false

namespace KubeAtlas.Proofs.Impact

open KubeAtlas.Graph Lib Analysis Analysis.ImpactPodReferences
open KubeAtlas.Extractor (asMap nested nestedSlice nestedString member rawOf)

/-! ### The declared references -/

/-- A reference: the kind and the name of an object in the namespace
of the consumer. -/
structure Reference where
  kind : String
  name : String
  deriving DecidableEq

/-- The references of an entry of `envFrom`. -/
def envFromReferences (entry : Object) : List Reference :=
  [⟨"ConfigMap", nestedString entry ["configMapRef", "name"]⟩,
    ⟨"Secret", nestedString entry ["secretRef", "name"]⟩]

/-- The references of an entry of `env`. -/
def envReferences (entry : Object) : List Reference :=
  [⟨"ConfigMap", nestedString entry ["valueFrom", "configMapKeyRef", "name"]⟩,
    ⟨"Secret", nestedString entry ["valueFrom", "secretKeyRef", "name"]⟩]

/-- The references of a container. -/
def containerReferences (c : Object) : List Reference :=
  (nestedSlice c ["envFrom"]).flatMap (fun entry => envFromReferences (asMap entry)) ++
    (nestedSlice c ["env"]).flatMap fun entry => envReferences (asMap entry)

/-- The references of a container list of a pod spec. -/
def containerListReferences (spec : Object) (field : String) : List Reference :=
  (nestedSlice spec [field]).flatMap fun c => containerReferences (asMap c)

/-- The reference of a volume with one source. -/
def plainVolumeReferences (v : Object) : List Reference :=
  [⟨"ConfigMap", nestedString v ["configMap", "name"]⟩,
    ⟨"Secret", nestedString v ["secret", "secretName"]⟩,
    ⟨"PersistentVolumeClaim", nestedString v ["persistentVolumeClaim", "claimName"]⟩]

/-- The references of an entry of `projected.sources`. -/
def sourceReferences (entry : Object) : List Reference :=
  [⟨"ConfigMap", nestedString entry ["configMap", "name"]⟩,
    ⟨"Secret", nestedString entry ["secret", "name"]⟩]

/-- The references of a projected volume. -/
def projectedReferences (v : Object) : List Reference :=
  (nestedSlice v ["projected", "sources"]).flatMap fun entry => sourceReferences (asMap entry)

/-- The references of a pod spec. -/
def specReferences (spec : Object) : List Reference :=
  containerListReferences spec "containers" ++
    (containerListReferences spec "initContainers" ++
      (containerListReferences spec "ephemeralContainers" ++
        (nestedSlice spec ["volumes"]).flatMap fun v =>
          plainVolumeReferences (asMap v) ++ projectedReferences (asMap v)))

/-! ### Readers of one key -/

theorem nestedString_cons (o : Object) (key : String) (path : List String) :
    nestedString o (key :: path) = (nested (member o key) path).text := rfl

theorem nested_null (path : List String) : nested .null path = .null := by
  cases path with
  | nil | cons => rfl

variable {value : Json} {o : Object}

theorem member_of_lookup {key : String} (h : o.lookup key = some value) : member o key = value := by
  unfold member
  rw [h, Option.getD_some]

theorem member_of_absent {key : String} (h : o.lookup key = none) :
    member o key = .null := by
  unfold member
  rw [h, Option.getD_none]

/-- Below an absent key there is no text. -/
theorem nestedString_of_absent {key : String} (h : o.lookup key = none) (path : List String) :
    nestedString o (key :: path) = "" := by
  rw [nestedString_cons, member_of_absent h, nested_null]
  rfl

/-- A step into a value, whether or not it is an object. -/
theorem nested_asMap (value : Json) (key : String) (path : List String) :
    nested value (key :: path) = nested (.obj (asMap value)) (key :: path) := by
  cases value with
  | obj members => rfl
  | _ => exact (nested_null path).symm

/-- Below a present key the text is read in its value. -/
theorem nestedString_of_present {key : String} (h : o.lookup key = some value) (key' : String)
    (path : List String) :
    nestedString o (key :: key' :: path) = nestedString (asMap value) (key' :: path) := by
  rw [nestedString_cons, member_of_lookup h, nested_asMap]
  rfl

theorem nestedSlice_of_absent {key : String} (h : o.lookup key = none) (path : List String) :
    nestedSlice o (key :: path) = [] := by
  show (nested (member o key) path).items?.getD [] = []
  rw [member_of_absent h, nested_null]
  rfl

theorem nestedSlice_of_present {key : String} (h : o.lookup key = some value) (key' : String)
    (path : List String) :
    nestedSlice o (key :: key' :: path) = nestedSlice (asMap value) (key' :: path) := by
  show (nested (member o key) (key' :: path)).items?.getD [] = _
  rw [member_of_lookup h, nested_asMap]
  rfl

/-- The reader of a text field and the reader of a path of one key
agree. -/
theorem refString_eq (o : Object) (key : String) : refString o key = nestedString o [key] := by
  unfold refString
  show _ = (member o key).text
  cases h : o.lookup key with
  | none => rw [member_of_absent h]; rfl
  | some value => rw [member_of_lookup h]

/-! ### Steps of the walk -/

section Collecting

variable (ns clusterID : String)

/-- The key under which the reader keeps the uses of a reference. -/
def Reference.key (ref : Reference) : ImpactReferenceTarget :=
  ⟨({ kind := ref.kind, name := ref.name, ns := ns, clusterID := clusterID } : Resource).ID,
    useEdgeType ref.kind⟩

/-- Whether one of the references is kept under a key. -/
def Names (refs : List Reference) (key : ImpactReferenceTarget) : Prop :=
  ∃ ref ∈ refs, ref.name ≠ "" ∧ ref.key ns clusterID = key

/-- A step that ends without a malformed field starts without one,
and it adds uses for the targets of `refs` and no others. -/
def Collects {α : Type} (act : Walking α) (refs : List Reference) : Prop :=
  ∀ (p : ImpactPodReferences) (a : α) (p' : ImpactPodReferences), act p = (.ok a, p') →
    p'.malformed = false → p.malformed = false ∧
      ∀ key, p'.uses key ≠ [] ↔ p.uses key ≠ [] ∨ Names ns clusterID refs key

variable {ns clusterID} {refs : List Reference}

/-- A reference without a name is none. -/
theorem not_names (h : ∀ ref ∈ refs, ref.name = "") (key : ImpactReferenceTarget) :
    ¬ Names ns clusterID refs key := by
  intro hnames
  obtain ⟨ref, hmem, hname, _⟩ := hnames
  exact hname (h ref hmem)

theorem names_append {refs refs' : List Reference} {key : ImpactReferenceTarget} :
    Names ns clusterID (refs ++ refs') key ↔
      Names ns clusterID refs key ∨ Names ns clusterID refs' key := by
  unfold Names
  simp only [List.mem_append, or_and_right, exists_or]

variable {α : Type}

/-- A step that leaves the uses alone collects references without
names. -/
theorem Collects.of_frame {act : Walking α}
    (hframe : ∀ p a p', act p = (.ok a, p') → p'.malformed = false → p.malformed = false ∧ p'.uses
      = p.uses) (h : ∀ ref ∈ refs, ref.name = "") : Collects ns clusterID act refs := by
  intro p a p' hrun hok
  have hsame := hframe p a p' hrun hok
  refine ⟨hsame.1, fun key => ?_⟩
  rw [hsame.2]
  exact (or_iff_left (not_names h key)).symm

theorem Collects.pure {a : α} (h : ∀ ref ∈ refs, ref.name = "") :
    Collects ns clusterID (pure a : Walking α) refs := by
  refine Collects.of_frame (fun p b p' hrun hok => ?_) h
  have hrun : ((.ok a, p) : Except ImpactError α × ImpactPodReferences) = (.ok b, p') := hrun
  cases hrun
  exact ⟨hok, rfl⟩

variable {p q : ImpactPodReferences}

section

variable {α β : Type} {act : Walking α} {next : α → Walking β}

/-- A sequence goes on from the state its first step leaves. -/
theorem run_bind_ok {a : α} (h : act p = (.ok a, q)) :
    (act >>= next) p = next a q := by
  simp only [bind, ExceptT.bind, ExceptT.mk, StateT.bind, h]
  rfl

/-- A sequence stops with the error of its first step. -/
theorem run_bind_error {e : ImpactError} (h : act p = (.error e, q)) :
    (act >>= next) p = (.error e, q) := by
  simp only [bind, ExceptT.bind, ExceptT.mk, StateT.bind, h]
  rfl

/-- The run of a sequence that ends well, split at its middle. -/
theorem run_bind {p p' : ImpactPodReferences} {b : β} (h : (act >>= next) p = (.ok b, p')) :
    ∃ a q, act p = (.ok a, q) ∧ next a q = (.ok b, p') := by
  cases hact : act p with
  | mk result q =>
    cases result with
    | error e =>
      rw [run_bind_error hact] at h
      cases h
    | ok a => exact ⟨a, q, rfl, (run_bind_ok hact).symm.trans h⟩

/-- Two steps one after the other. -/
theorem Collects.bind {refs refs' : List Reference} (h : Collects ns clusterID act refs)
    (h' : ∀ a, Collects ns clusterID (next a) refs') :
    Collects ns clusterID (act >>= next) (refs ++ refs') := by
  intro p b p' hrun hok
  obtain ⟨a, q, hact, hnext⟩ := run_bind hrun
  have hsecond := h' a q b p' hnext hok
  have hfirst := h p a q hact hsecond.1
  refine ⟨hfirst.1, fun key => ?_⟩
  rw [hsecond.2 key, hfirst.2 key, names_append, or_assoc]

end

theorem collects_charge (overhead : Nat) (fields : List String) :
    Collects ns clusterID (charge overhead fields) [] := by
  refine Collects.of_frame (fun p a p' hrun hok => ?_) (fun _ hmem => nomatch hmem)
  have hstate : p' = { p with reader := (p.reader.charge overhead fields).2 } :=
    (congrArg Prod.snd hrun).symm
  subst hstate
  exact ⟨hok, rfl⟩

/-- After a malformed field there is nothing left to say. -/
theorem collects_markMalformed (refs : List Reference) :
    Collects ns clusterID markMalformed refs := by
  intro p a p' hrun hok
  have hstate : p' = { p with malformed := true } := (congrArg Prod.snd hrun).symm
  subst hstate
  cases hok

/-- A step after a check that marks a field as malformed. -/
theorem Collects.guard {c : Prop} [Decidable c] {act : Walking α}
    (h : Collects ns clusterID act refs) :
    Collects ns clusterID (if c then markMalformed >>= fun _ => act else act) refs := by
  by_cases hc : c
  · rw [if_pos hc]
    exact Collects.bind (collects_markMalformed []) fun _ => h
  · rw [if_neg hc]
    exact h

/-- A step after a charge. -/
theorem Collects.charge_bind {overhead : Nat} {fields : List String} {next : Unit → Walking α}
    (h : Collects ns clusterID (next ()) refs) :
    Collects ns clusterID (charge overhead fields >>= next) refs :=
  Collects.bind (collects_charge overhead fields) fun _ => h

/-! ### Readers -/

/-- A reader: unless it meets a malformed field, it returns `result`
and changes nothing. -/
def Reads {α : Type} (act : Walking α) (result : α) : Prop :=
  ∀ (p : ImpactPodReferences) (a : α) (p' : ImpactPodReferences), act p = (.ok a, p') →
    (p' = p ∧ a = result) ∨ p'.malformed = true

theorem reads_pure (a : α) : Reads (pure a : Walking α) a := by
  intro p b p' hrun
  have hrun : ((.ok a, p) : Except ImpactError α × ImpactPodReferences) = (.ok b, p') := hrun
  cases hrun
  exact .inl ⟨rfl, rfl⟩

theorem reads_malformed (a result : α) :
    Reads (do markMalformed; pure a : Walking α) result := by
  intro p b p' hrun
  have hstate : p' = { p with malformed := true } := (congrArg Prod.snd hrun).symm
  exact .inr (hstate ▸ rfl)

theorem reads_object (value : Json) :
    Reads (ImpactPodReferences.object value) (asMap value) := by
  cases value with
  | obj members => exact reads_pure members
  | _ => exact reads_malformed _ _

theorem reads_array (o : Object) (field : String) :
    Reads (array o field) (nestedSlice o [field]) := by
  show Reads (array o field) ((member o field).items?.getD [])
  unfold array
  cases h : o.lookup field with
  | none =>
    rw [member_of_absent h]
    exact reads_pure []
  | some value =>
    rw [member_of_lookup h]
    cases value with
    | arr items => exact reads_pure items
    | _ => exact reads_malformed _ _

/-- A step that uses what a reader returned. -/
theorem Collects.read {α β : Type} {act : Walking α} {result : α} {next : α → Walking β}
    (refs : α → List Reference) (h : Reads act result)
    (h' : ∀ a, Collects ns clusterID (next a) (refs a)) :
    Collects ns clusterID (act >>= next) (refs result) := by
  intro p b p' hrun hok
  obtain ⟨a, q, hact, hnext⟩ := run_bind hrun
  have hsecond := h' a q b p' hnext hok
  cases h p a q hact with
  | inl hread =>
    obtain ⟨rfl, rfl⟩ := hread
    exact hsecond
  | inr hbad => exact absurd hsecond.1 (by simp [hbad])

/-- A step below an optional key: when the key is absent there is no
reference. -/
theorem Collects.below {last : α} {o : Object} {key : String} {next : Object → Walking α}
    (refs : Object → List Reference) {all : List Reference}
    (h : ∀ members, Collects ns clusterID (next members) (refs members))
    (habsent : o.lookup key = none → ∀ ref ∈ all, ref.name = "")
    (hpresent : ∀ value, o.lookup key = some value → refs (asMap value) = all) :
    Collects ns clusterID
      (match o.lookup key with
        | none => Pure.pure last
        | some value => ImpactPodReferences.object value >>= next) all := by
  cases hkey : o.lookup key with
  | none => exact Collects.pure (habsent hkey)
  | some value =>
    rw [← hpresent value hkey]
    exact Collects.read refs (reads_object value) h

variable {body : Nat → Json → Walking Unit}

section

variable {refs : Json → List Reference}
  (h : ∀ i item, Collects ns clusterID (body i item) (refs item))
include h

/-- A `for` loop collects what its rounds collect. -/
theorem collects_forRange (i : Nat) (items : List Json) :
    Collects ns clusterID (forRange body i items) (items.flatMap refs) := by
  induction items generalizing i with
  | nil => exact Collects.pure fun _ hmem => nomatch hmem
  | cons item items ih =>
    exact Collects.bind (h i item) fun _ => ih (i + 1)

theorem collects_forArray (o : Object) (field : String) :
    Collects ns clusterID (forArray o field body)
      ((nestedSlice o [field]).flatMap refs) :=
  Collects.read (·.flatMap refs) (reads_array o field) fun items => collects_forRange h 0 items

end

/-! ### One reference -/

/-- Adding a use gives its target one, and no other target. -/
theorem uses_update (uses : ImpactReferenceTarget → List ImpactReferenceUse)
    (target key : ImpactReferenceTarget) (use : ImpactReferenceUse) :
    Function.update uses target (uses target ++ [use]) key ≠ [] ↔
      uses key ≠ [] ∨ target = key := by
  by_cases h : key = target
  · subst h
    simp
  · rw [Function.update_of_ne h]
    simp [Ne.symm h]

theorem collects_useOptional (ref : Object) (kind : String) :
    Collects ns clusterID (useOptional ref kind) [] := by
  have hnone : ∀ r ∈ ([] : List Reference), r.name = "" := fun _ hmem => nomatch hmem
  have hbad : Collects ns clusterID (do markMalformed; pure UseOptional.required) [] :=
    Collects.bind (collects_markMalformed []) fun _ => Collects.pure hnone
  unfold useOptional
  by_cases hk : kind = "PersistentVolumeClaim"
  · rw [if_pos hk]
    exact Collects.pure hnone
  · rw [if_neg hk]
    cases ref.lookup "optional" with
    | none => exact Collects.pure hnone
    | some value =>
      cases value with
      | bool flag => cases flag <;> exact Collects.pure hnone
      | _ => exact hbad

theorem collects_add (ref : Object) (kind nameField path : String) (mode : UseMode)
    (mountPath : String) (subPath : Bool) :
    Collects ns clusterID (add ns clusterID ref kind nameField path mode mountPath subPath)
      [⟨kind, nestedString ref [nameField]⟩] := by
  rw [← refString_eq]
  refine Collects.charge_bind ?_
  by_cases hname : refString ref nameField = "" ∨
      Strings.containsAny (refString ref nameField) ['/', ':']
  · rw [if_pos (by simpa using hname)]
    exact collects_markMalformed _
  · rw [if_neg (by simpa using hname)]
    refine Collects.bind (collects_useOptional ref kind) fun lookup => ?_
    intro p a p' hrun hok
    have hstate := (congrArg Prod.snd hrun).symm
    subst hstate
    refine ⟨hok, fun key => ?_⟩
    refine (uses_update p.uses _ key _).trans (or_congr_right ?_)
    constructor
    · intro h
      exact ⟨_, List.mem_singleton_self _, fun hblank => hname (.inl hblank), h⟩
    · intro h
      obtain ⟨_, hmem, _, hkey⟩ := h
      rw [List.mem_singleton.mp hmem] at hkey
      exact hkey

/-- A reference by name below an optional key. -/
theorem collects_addRef (o : Object) (kind path ref : String) :
    Collects ns clusterID (addRef ns clusterID o kind path ref)
      [⟨kind, nestedString o [ref, "name"]⟩] := by
  refine Collects.below (fun members => [⟨kind, nestedString members ["name"]⟩])
    (fun members => collects_add members kind "name" _ .environment "" false) ?_ ?_
  · intro habsent r hmem
    rw [List.mem_singleton.mp hmem]
    exact nestedString_of_absent habsent _
  · intro value hvalue
    rw [nestedString_of_present hvalue]

/-! ### Containers -/

theorem collects_envFromEntry (path : String) (i : Nat) (entry : Json) :
    Collects ns clusterID (envFromEntry ns clusterID path i entry)
      (envFromReferences (asMap entry)) := by
  refine Collects.charge_bind
    (Collects.read envFromReferences (reads_object entry) fun members => ?_)
  exact Collects.bind (collects_addRef members "ConfigMap" _ "configMapRef") fun _ =>
    collects_addRef members "Secret" _ "secretRef"

theorem collects_envEntry (path : String) (i : Nat) (entry : Json) :
    Collects ns clusterID (envEntry ns clusterID path i entry)
      (envReferences (asMap entry)) := by
  refine Collects.charge_bind
    (Collects.read envReferences (reads_object entry) fun members => ?_)
  refine Collects.below
    (fun valueFrom => [⟨"ConfigMap", nestedString valueFrom ["configMapKeyRef", "name"]⟩,
      ⟨"Secret", nestedString valueFrom ["secretKeyRef", "name"]⟩])
    (fun valueFrom =>
      Collects.bind (collects_addRef valueFrom "ConfigMap" _ "configMapKeyRef") fun _ =>
        collects_addRef valueFrom "Secret" _ "secretKeyRef") ?_ ?_
  · intro habsent
    simp [envReferences, nestedString_of_absent habsent]
  · intro value hvalue
    simp only [envReferences, nestedString_of_present hvalue]

theorem collects_subPathField (mount : Object) (field : String) :
    Collects ns clusterID (subPathField mount field) [] := by
  have hnone : ∀ r ∈ ([] : List Reference), r.name = "" := fun _ hmem => nomatch hmem
  unfold subPathField
  cases mount.lookup field with
  | none => exact Collects.pure hnone
  | some value =>
    cases value with
    | str text => exact Collects.pure hnone
    | _ =>
      exact Collects.bind (collects_markMalformed []) fun _ => Collects.pure hnone

/-- A volume mount is no reference. -/
theorem collects_volumeMountEntry (path : String) (i : Nat) (entry : Json) :
    Collects ns clusterID (volumeMountEntry path i entry) [] := by
  have hnone : ∀ r ∈ ([] : List Reference), r.name = "" := fun _ hmem => nomatch hmem
  refine Collects.charge_bind (Collects.read (fun _ => []) (reads_object entry) fun mount => ?_)
  refine Collects.guard (Collects.charge_bind ?_)
  refine Collects.bind (collects_subPathField mount "subPath") fun _ =>
    Collects.bind (collects_subPathField mount "subPathExpr") fun _ => ?_
  refine Collects.of_frame (fun p a p' hrun hok => ?_) hnone
  have hstate := (congrArg Prod.snd hrun).symm
  subst hstate
  exact ⟨hok, rfl⟩

/-- A container declares what its environment refers to. -/
theorem collects_container (pathPrefix : String) (i : Nat) (item : Json) :
    Collects ns clusterID (container ns clusterID pathPrefix i item)
      (containerReferences (asMap item)) := by
  refine Collects.charge_bind
    (Collects.read containerReferences (reads_object item) fun members => ?_)
  refine Collects.bind
    (collects_forArray (fun j entry => collects_envFromEntry _ j entry) members "envFrom")
    fun _ => ?_
  rw [← List.append_nil (List.flatMap _ _)]
  refine Collects.bind
    (collects_forArray (fun j entry => collects_envEntry _ j entry) members "env") fun _ => ?_
  have hmounts : (nestedSlice members ["volumeMounts"]).flatMap
      (fun _ => ([] : List Reference)) = [] := List.flatMap_eq_nil_iff.mpr fun _ _ => rfl
  rw [← hmounts]
  exact collects_forArray (fun j entry => collects_volumeMountEntry _ j entry) members
    "volumeMounts"

theorem collects_containers (spec : Object) (field pathPrefix : String) :
    Collects ns clusterID (containers ns clusterID spec field pathPrefix)
      (containerListReferences spec field) :=
  collects_forArray (fun i item => collects_container pathPrefix i item) spec field

/-! ### Volumes -/

/-- A use for every mount of a volume, the first of which makes the
reference. -/
theorem collects_addMounts (ref : Object) (kind nameField path : String)
    (mounts : List ImpactReferenceMount) :
    Collects ns clusterID (addMounts ns clusterID ref kind nameField path mounts)
      (mounts.map fun _ => ⟨kind, nestedString ref [nameField]⟩) := by
  induction mounts with
  | nil => exact Collects.pure fun _ hmem => nomatch hmem
  | cons mount mounts ih =>
    exact Collects.bind (collects_add ref kind nameField path _ _ _) fun _ => ih

/-- A reference counts once. -/
theorem names_replicate (ref : Reference) (a : α) (as : List α) (key : ImpactReferenceTarget) :
    Names ns clusterID ((a :: as).map fun _ => ref) key ↔ Names ns clusterID [ref] key := by
  unfold Names
  simp only [List.mem_map, List.mem_singleton]
  constructor
  · rintro ⟨_, ⟨_, _, rfl⟩, h⟩
    exact ⟨ref, rfl, h⟩
  · rintro ⟨_, rfl, h⟩
    exact ⟨_, ⟨a, List.mem_cons_self, rfl⟩, h⟩

/-- A volume source is a reference whether or not a container mounts
the volume. -/
theorem collects_volumeUse (ref : Object) (kind nameField path volumeName : String) :
    Collects ns clusterID (volumeUse ns clusterID ref kind nameField path volumeName)
      [⟨kind, nestedString ref [nameField]⟩] := by
  intro p a p' hrun hok
  have hget : (get : Walking ImpactPodReferences) p = (.ok p, p) := rfl
  unfold volumeUse at hrun
  rw [run_bind_ok hget] at hrun
  cases hlist : p.mounts volumeName with
  | nil =>
    rw [hlist] at hrun
    exact collects_add ref kind nameField path _ _ _ p a p' hrun hok
  | cons mount mounts =>
    rw [hlist] at hrun
    have hadd := collects_addMounts ref kind nameField path (mount :: mounts) p a p' hrun hok
    refine ⟨hadd.1, fun key => ?_⟩
    rw [hadd.2 key, names_replicate]

theorem collects_volumeRef (v : Object) (field kind nameField path volumeName : String) :
    Collects ns clusterID (volumeRef ns clusterID v field kind nameField path volumeName)
      [⟨kind, nestedString v [field, nameField]⟩] := by
  refine Collects.below (fun members => [⟨kind, nestedString members [nameField]⟩])
    (fun members => collects_volumeUse members kind nameField _ volumeName) ?_ ?_
  · intro habsent r hmem
    rw [List.mem_singleton.mp hmem]
    exact nestedString_of_absent habsent _
  · intro value hvalue
    rw [nestedString_of_present hvalue]

theorem collects_projectedSource (path volumeName : String) (j : Nat) (entry : Json) :
    Collects ns clusterID (projectedSource ns clusterID path volumeName j entry)
      (sourceReferences (asMap entry)) := by
  refine Collects.charge_bind
    (Collects.read sourceReferences (reads_object entry) fun members => ?_)
  exact Collects.bind (collects_volumeRef members "configMap" "ConfigMap" "name" _ _) fun _ =>
    collects_volumeRef members "secret" "Secret" "name" _ _

variable (pathPrefix : String) (i : Nat) (seen : List String)

theorem collects_volume (entry : Json) :
    Collects ns clusterID (volume ns clusterID pathPrefix i seen entry)
      (plainVolumeReferences (asMap entry) ++ projectedReferences (asMap entry)) := by
  refine Collects.charge_bind (Collects.read
    (fun v => plainVolumeReferences v ++ projectedReferences v) (reads_object entry)
    fun members => Collects.charge_bind ?_)
  refine Collects.guard ?_
  show Collects ns clusterID _ ([_] ++ ([_] ++ ([_] ++ projectedReferences members)))
  refine Collects.bind (collects_volumeRef members "configMap" "ConfigMap" "name" _ _) fun _ =>
    Collects.bind (collects_volumeRef members "secret" "Secret" "secretName" _ _) fun _ =>
      Collects.bind (collects_volumeRef members "persistentVolumeClaim"
        "PersistentVolumeClaim" "claimName" _ _) fun _ => ?_
  refine Collects.below
    (fun projected => (nestedSlice projected ["sources"]).flatMap fun entry =>
      sourceReferences (asMap entry)) (fun projected => ?_) ?_ ?_
  · rw [← List.append_nil (List.flatMap _ _)]
    exact Collects.bind
      (collects_forArray (fun j entry => collects_projectedSource _ _ j entry) projected
        "sources")
      fun _ => Collects.pure fun _ hmem => nomatch hmem
  · intro habsent
    simp [projectedReferences, nestedSlice_of_absent habsent]
  · intro value hvalue
    simp only [projectedReferences, nestedSlice_of_present hvalue]

theorem collects_volumeLoop (entries : List Json) :
    Collects ns clusterID (volumeLoop ns clusterID pathPrefix i seen entries)
      (entries.flatMap fun v =>
        plainVolumeReferences (asMap v) ++ projectedReferences (asMap v)) := by
  induction entries generalizing i seen with
  | nil => exact Collects.pure fun _ hmem => nomatch hmem
  | cons entry entries ih =>
    exact Collects.bind (collects_volume pathPrefix i seen entry) fun name =>
      ih (i + 1) (name :: seen)

/-- The walk over a pod spec recognises its references. -/
theorem collects_podSpec (spec : Object) (pathPrefix : String) :
    Collects ns clusterID (podSpec ns clusterID spec pathPrefix) (specReferences spec) := by
  refine Collects.bind (collects_containers spec "containers" _) fun _ =>
    Collects.bind (collects_containers spec "initContainers" _) fun _ =>
      Collects.bind (collects_containers spec "ephemeralContainers" _) fun _ => ?_
  exact Collects.read
    (fun entries : List Json => entries.flatMap fun v =>
      plainVolumeReferences (asMap v) ++ projectedReferences (asMap v))
    (reads_array spec "volumes") fun entries => collects_volumeLoop _ 0 [] entries

end Collecting

/-! ### A whole resource -/

/-- The pod spec of a resource, where the schema of its kind has it. -/
def resourceSpec (r : Resource) : Option Object :=
  (impactPodSpecPath r.kind r.groupVersion).bind fun path => podSpecAt (rawOf r) path

variable {parsed : ImpactReferenceSource} {reader : ImpactReferenceReader} {r : Resource}

/-- What the reader accepts: it found a pod spec and walked it to
the end without a malformed field. Every other outcome has a reason. -/
theorem walk_of_parse (hparse : (reader.parse r).1 = .ok parsed) (hreason : parsed.reason = .none) :
    ∃ spec pathPrefix p, resourceSpec r = some spec ∧
      podSpec r.ns r.clusterID spec pathPrefix
          { reader := reader, uses := fun _ => [], mounts := fun _ => [], malformed := false }
        = (.ok (), p) ∧
      p.malformed = false ∧ parsed.uses = p.uses := by
  unfold ImpactReferenceReader.parse at hparse
  by_cases hversion : (r.uid = "" || r.resourceVersion = "") = true
  · rw [if_pos hversion] at hparse
    cases hparse
    cases hreason
  rw [if_neg hversion] at hparse
  cases hpath : impactPodSpecPath r.kind r.groupVersion with
  | none =>
    rw [hpath] at hparse
    cases hparse
    cases hreason
  | some path =>
    rw [hpath] at hparse
    cases hraw : r.raw with
    | none =>
      rw [hraw] at hparse
      cases hparse
      cases hreason
    | some raw =>
      rw [hraw] at hparse
      dsimp only at hparse
      by_cases hidentity : (!rawIdentityMatches r raw) = true
      · rw [if_pos hidentity] at hparse
        cases hparse
        cases hreason
      rw [if_neg hidentity] at hparse
      cases hspec : podSpecAt raw path with
      | none =>
        rw [hspec] at hparse
        cases hparse
        cases hreason
      | some spec =>
        rw [hspec] at hparse
        dsimp only at hparse
        have hresource : resourceSpec r = some spec := by
          unfold resourceSpec rawOf
          rw [hpath, hraw, Option.getD_some, Option.bind_some, hspec]
        cases hwalk : podSpec r.ns r.clusterID spec ("/" ++ String.intercalate "/" path)
            { reader := reader, uses := fun _ => [], mounts := fun _ => []
              malformed := false } with
        | mk result p =>
          rw [hwalk] at hparse
          cases result with
          | error e => cases hparse
          | ok done =>
            dsimp only at hparse
            by_cases hbad : p.malformed = true
            · rw [if_pos hbad] at hparse
              cases hparse
              cases hreason
            · rw [if_neg hbad] at hparse
              cases hparse
              exact ⟨spec, _, p, hresource, hwalk, by simpa using hbad, rfl⟩

/-- A resource the reader accepts has a pod spec, and the targets
with uses are the references that the spec declares. -/
theorem uses_of_parse (hparse : (reader.parse r).1 = .ok parsed) (hreason : parsed.reason = .none) :
    ∃ spec, resourceSpec r = some spec ∧
      ∀ key, parsed.uses key ≠ [] ↔ Names r.ns r.clusterID (specReferences spec) key := by
  obtain ⟨spec, pathPrefix, p, hspec, hwalk, hok, huses⟩ := walk_of_parse hparse hreason
  refine ⟨spec, hspec, fun key => ?_⟩
  rw [huses, (collects_podSpec spec pathPrefix _ _ p hwalk hok).2 key]
  -- The walk starts without any use.
  exact or_iff_right fun h => h rfl

end KubeAtlas.Proofs.Impact
