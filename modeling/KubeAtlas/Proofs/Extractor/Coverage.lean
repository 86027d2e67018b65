import KubeAtlas.Proofs.Impact.Recognised

/-!
# `KubeAtlas.Proofs.Extractor.Coverage`: references without an edge

The reference reader explains an edge from a workload to a ConfigMap
or a Secret. It can do so only where the edge exists, and the edges
come from another walk over the same pod spec, that of the two
extractors. `emitted_iff` compares the two. Every Secret the reader
recognises has its edge: the Secret extractor walks the three
container lists and the projected volumes. The ConfigMap extractor
walks the regular containers and the plain volumes only, so the
statement holds of a workload exactly if each ConfigMap that an init
container, an ephemeral container or a projected volume names is
also named in one of the places it looks at.

The extractors look for a pod template below `spec.template`,
`spec.jobTemplate` and `spec`, in this order, without asking for the
kind. `WellFormed` excludes objects on which this picks a template
that the schema of the kind does not have.
-/

set_option autoImplicit false

namespace KubeAtlas.Proofs.Extractor

open KubeAtlas.Graph Lib Analysis KubeAtlas.Extractor KubeAtlas.Proofs.Impact

/-! ### What the extractors emit -/

theorem mem_emitUnseen {fromID : String} {type : EdgeType} {seen ids : List String} {e : Edge} :
    e ∈ emitUnseen fromID type seen ids ↔
      ∃ toID ∈ ids, toID ∉ seen ∧ e = { fromID := fromID, toID := toID, type := type } := by
  induction ids generalizing seen with
  | nil => simp [emitUnseen]
  | cons toID ids ih =>
    rw [emitUnseen]
    by_cases hseen : seen.contains toID = true
    · rw [if_pos hseen, ih]
      have hmem : toID ∈ seen := by simpa using hseen
      constructor
      · rintro ⟨id, hid, hnot, he⟩
        exact ⟨id, List.mem_cons_of_mem _ hid, hnot, he⟩
      · rintro ⟨id, hid, hnot, he⟩
        cases List.mem_cons.mp hid with
        | inl heq => exact absurd hmem (heq ▸ hnot)
        | inr hrest => exact ⟨id, hrest, hnot, he⟩
    · rw [if_neg hseen, List.mem_cons, ih]
      have hmem : toID ∉ seen := by simpa using hseen
      constructor
      · rintro (he | ⟨id, hid, hnot, he⟩)
        · exact ⟨toID, List.mem_cons_self, hmem, he⟩
        · exact ⟨id, List.mem_cons_of_mem _ hid,
            fun h => hnot (List.mem_cons_of_mem _ h), he⟩
      · rintro ⟨id, hid, hnot, he⟩
        by_cases heq : id = toID
        · exact .inl (heq ▸ he)
        · -- A later target is new unless it is the one just emitted.
          refine .inr ⟨id, (List.mem_cons.mp hid).resolve_left heq, ?_, he⟩
          intro h
          exact hnot ((List.mem_cons.mp h).resolve_left heq)

variable {r : Resource}

theorem mem_emitNamed {type : EdgeType} {refs : List Named} {e : Edge} :
    e ∈ emitNamed r type refs ↔
      ∃ ref ∈ refs, ref.name ≠ "" ∧
        e = { fromID := r.ID, toID := target r ref.kind ref.ns ref.name, type := type } := by
  unfold emitNamed
  rw [mem_emitUnseen]
  simp only [List.mem_map, List.mem_filter, decide_eq_true_eq]
  constructor
  · rintro ⟨_, ⟨ref, ⟨hmem, hname⟩, rfl⟩, _, he⟩
    exact ⟨ref, hmem, hname, he⟩
  · rintro ⟨ref, hmem, hname, he⟩
    exact ⟨_, ⟨ref, ⟨hmem, hname⟩, rfl⟩, List.not_mem_nil, he⟩

/-- In one namespace of one cluster, a kind and a name make an
identifier that no other name shares. -/
theorem target_injective {kind ns name name' : String}
    (h : target r kind ns name = target r kind ns name') : name = name' := by
  unfold target Resource.ID at h
  by_cases hcluster : r.clusterID = ""
  · simpa [hcluster] using h
  · simpa [hcluster] using h

/-! ### Where the pod spec is -/

/-- What the schemas of the supported kinds say about templates: a
Pod has none, and a CronJob only that of its jobs. -/
structure WellFormed (r : Resource) : Prop where
  pod : r.kind = "Pod" → nested (.obj (rawOf r)) ["spec", "template"] = .null ∧
    nested (.obj (rawOf r)) ["spec", "jobTemplate"] = .null
  cronJob : r.kind = "CronJob" → nested (.obj (rawOf r)) ["spec", "template"] = .null

theorem nested_append (value : Json) (path path' : List String) :
    nested value (path ++ path') = nested (nested value path) path' := by
  induction path generalizing value with
  | nil => rfl
  | cons key path ih =>
    cases value with
    | obj members => exact ih (member members key)
    | _ => exact (nested_null path').symm

variable {raw spec : Object} {path : List String}

/-- The two descents to a pod spec agree. -/
theorem nested_of_podSpecAt (h : podSpecAt raw path = some spec) :
    nested (.obj raw) path = .obj spec := by
  induction path generalizing raw with
  | nil =>
    cases h
    rfl
  | cons key path ih =>
    cases hkey : raw.lookup key with
    | none => simp [podSpecAt, hkey] at h
    | some value =>
      show nested (member raw key) path = .obj spec
      rw [member_of_lookup hkey]
      cases value with
      | obj members => exact ih (by simpa [podSpecAt, hkey, Json.members?] using h)
      | _ => simp [podSpecAt, hkey, Json.members?] at h

theorem nestedSlice_below (h : nested (.obj raw) path = .obj spec) (field : String) :
    nestedSlice raw (path ++ [field]) = nestedSlice spec [field] := by
  unfold nestedSlice
  rw [nested_append, h]

section

variable {raw : Object} (h : nested (.obj raw) path = .null) (path' : List String)
include h

theorem nestedSlice_of_null :
    nestedSlice raw (path ++ path') = [] := by
  unfold nestedSlice
  rw [nested_append, h, nested_null]
  rfl

theorem nestedMap_of_null :
    nestedMap raw (path ++ path') = none := by
  unfold nestedMap
  rw [nested_append, h, nested_null]
  rfl

end

theorem nestedMap_of_object (h : nested (.obj raw) path = .obj spec) :
    nestedMap raw path = some spec := by
  unfold nestedMap
  rw [h]
  rfl

/-- The three places a supported kind can keep its pod spec. -/
theorem impactPodSpecPath_eq_some {kind gv : String} (h : impactPodSpecPath kind gv = some path) :
    (kind = "Pod" ∧ path = ["spec"]) ∨
      (hasPodTemplate kind = true ∧ path = ["spec", "template", "spec"]) ∨
      (kind = "CronJob" ∧ path = ["spec", "jobTemplate", "spec", "template", "spec"]) := by
  unfold impactPodSpecPath at h
  split at h
  · rename_i hpod
    simp only [Bool.and_eq_true, decide_eq_true_eq] at hpod
    exact .inl ⟨hpod.1, (Option.some.inj h).symm⟩
  · split at h
    · rename_i htemplate
      refine .inr (.inl ⟨?_, (Option.some.inj h).symm⟩)
      simp only [Bool.or_eq_true, Bool.and_eq_true, decide_eq_true_eq] at htemplate
      rcases htemplate with ⟨((hk | hk) | hk) | hk, _⟩ | ⟨hk, _⟩ <;> subst hk <;> decide
    · split at h
      · rename_i hcron
        simp only [Bool.and_eq_true, decide_eq_true_eq] at hcron
        exact .inr (.inr ⟨hcron.1, (Option.some.inj h).symm⟩)
      · cases h

/-- How the extractors see the pod spec of a well-formed resource:
`podSpec` finds it, and the items of its lists are among those that
`podTemplateSlice` returns. -/
structure SeenAs (r : Resource) (spec : Object) : Prop where
  podBearing : r.kind = "Pod" ∨ hasPodTemplate r.kind = true
  podSpec : podSpec r = some spec
  slice : ∀ field item, item ∈ nestedSlice spec [field] → item ∈ podTemplateSlice field r

variable {field : String} {items : List Json}

theorem podTemplateSlice_of_template
    (h : nestedSlice (rawOf r) ["spec", "template", "spec", field] = items) (hne : items ≠ []) :
    podTemplateSlice field r = items := by
  unfold podTemplateSlice
  rw [h, if_pos hne]

section

variable (htemplate : nestedSlice (rawOf r) ["spec", "template", "spec", field] = [])
include htemplate

theorem podTemplateSlice_of_cronJob
    (h : nestedSlice (rawOf r) ["spec", "jobTemplate", "spec", "template", "spec", field] = items)
    (hne : items ≠ []) : podTemplateSlice field r = items := by
  unfold podTemplateSlice
  rw [htemplate, if_neg (not_not.mpr rfl), h, if_pos hne]

theorem podTemplateSlice_of_pod (hcron :
      nestedSlice (rawOf r) ["spec", "jobTemplate", "spec", "template", "spec", field] = []) :
    podTemplateSlice field r = nestedSlice (rawOf r) ["spec", field] := by
  unfold podTemplateSlice
  rw [htemplate, if_neg (not_not.mpr rfl), hcron, if_neg (not_not.mpr rfl)]

end

theorem seenAs_of_wellFormed {spec : Object} (hr : WellFormed r) (h : resourceSpec r = some spec) :
    SeenAs r spec := by
  unfold resourceSpec at h
  cases hpath : impactPodSpecPath r.kind r.groupVersion with
  | none =>
    rw [hpath] at h
    cases h
  | some path =>
    rw [hpath, Option.bind_some] at h
    have hspec := nested_of_podSpecAt h
    rcases impactPodSpecPath_eq_some hpath with ⟨hk, rfl⟩ | ⟨hk, rfl⟩ | ⟨hk, rfl⟩
    · obtain ⟨htemplate, hjob⟩ := hr.pod hk
      refine ⟨.inl hk, ?_, fun field item hitem => ?_⟩
      · have hnone : nestedMap (rawOf r) ["spec", "template", "spec"] = none :=
          nestedMap_of_null htemplate ["spec"]
        have hnone' :
            nestedMap (rawOf r) ["spec", "jobTemplate", "spec", "template", "spec"] = none :=
          nestedMap_of_null hjob ["spec", "template", "spec"]
        unfold podSpec
        rw [hnone, hnone', nestedMap_of_object hspec]
        rfl
      · rw [podTemplateSlice_of_pod (nestedSlice_of_null htemplate ["spec", field])
          (nestedSlice_of_null hjob ["spec", "template", "spec", field])]
        exact (nestedSlice_below hspec field) ▸ hitem
    · refine ⟨.inr hk, ?_, fun field item hitem => ?_⟩
      · unfold podSpec
        rw [nestedMap_of_object hspec]
        rfl
      · rw [podTemplateSlice_of_template (nestedSlice_below hspec field)
          (List.ne_nil_of_mem hitem)]
        exact hitem
    · have htemplate := hr.cronJob hk
      refine ⟨.inr (by rw [hk]; decide), ?_, fun field item hitem => ?_⟩
      · have hnone : nestedMap (rawOf r) ["spec", "template", "spec"] = none :=
          nestedMap_of_null htemplate ["spec"]
        unfold podSpec
        rw [hnone, nestedMap_of_object hspec]
        rfl
      · rw [podTemplateSlice_of_cronJob (nestedSlice_of_null htemplate ["spec", field])
          (nestedSlice_below hspec field) (List.ne_nil_of_mem hitem)]
        exact hitem

/-! ### The two walks compared -/

variable {kind name : String}

theorem mem_containerReferences {c : Object} :
    ⟨kind, name⟩ ∈ containerReferences c ↔
      (kind = "ConfigMap" ∧
        name ∈ stringsAt (nestedSlice c ["envFrom"]) ["configMapRef", "name"] ++
          stringsAt (nestedSlice c ["env"]) ["valueFrom", "configMapKeyRef", "name"]) ∨
      (kind = "Secret" ∧
        name ∈ stringsAt (nestedSlice c ["envFrom"]) ["secretRef", "name"] ++
          stringsAt (nestedSlice c ["env"]) ["valueFrom", "secretKeyRef", "name"]) := by
  simp only [containerReferences, envFromReferences, envReferences, stringsAt,
    List.mem_append, List.mem_flatMap, List.mem_cons, List.not_mem_nil, or_false,
    List.mem_map, Reference.mk.injEq]
  grind

theorem mem_plainVolumeReferences {v : Object} :
    ⟨kind, name⟩ ∈ plainVolumeReferences v ↔
      (kind = "ConfigMap" ∧ name = nestedString v ["configMap", "name"]) ∨
      (kind = "Secret" ∧ name = nestedString v ["secret", "secretName"]) ∨
      (kind = "PersistentVolumeClaim" ∧
        name = nestedString v ["persistentVolumeClaim", "claimName"]) := by
  simp only [plainVolumeReferences, List.mem_cons, List.not_mem_nil, or_false,
    Reference.mk.injEq]

theorem mem_projectedReferences {v : Object} :
    ⟨kind, name⟩ ∈ projectedReferences v ↔
      (kind = "ConfigMap" ∧
        name ∈ stringsAt (nestedSlice v ["projected", "sources"]) ["configMap", "name"]) ∨
      (kind = "Secret" ∧
        name ∈ stringsAt (nestedSlice v ["projected", "sources"]) ["secret", "name"]) := by
  simp only [projectedReferences, sourceReferences, stringsAt, List.mem_flatMap,
    List.mem_cons, List.not_mem_nil, or_false, List.mem_map, Reference.mk.injEq]
  grind

/-- The references in the places where the ConfigMap extractor does
not look. -/
def hiddenReferences (spec : Object) : List Reference :=
  containerListReferences spec "initContainers" ++
    (containerListReferences spec "ephemeralContainers" ++
      (nestedSlice spec ["volumes"]).flatMap fun v => projectedReferences (asMap v))

section Compared

variable {r : Resource} {spec : Object} (hseen : SeenAs r spec)

include hseen

theorem secret_of_container {field name : String}
    (hfield : field ∈ ["containers", "initContainers", "ephemeralContainers"])
    (h : ⟨"Secret", name⟩ ∈ containerListReferences spec field) : name ∈ podSecretNames r := by
  obtain ⟨c, hc, href⟩ := List.mem_flatMap.mp h
  have hname := (mem_containerReferences.mp href).resolve_left fun h => by simp at h
  unfold podSecretNames
  rw [hseen.podSpec, Option.getD_some]
  refine List.mem_append_left _ (List.mem_append_left _ (List.mem_flatMap.mpr ⟨field, hfield, ?_⟩))
  exact List.mem_flatMap.mpr ⟨c, hc, hname.2⟩

variable {name : String}

theorem secret_of_volume {v : Json} (hv : v ∈ nestedSlice spec ["volumes"])
    (h : ⟨"Secret", name⟩ ∈ plainVolumeReferences (asMap v) ++ projectedReferences (asMap v)) :
    name ∈ podSecretNames r := by
  have hname : name ∈ nestedString (asMap v) ["secret", "secretName"] ::
      stringsAt (nestedSlice (asMap v) ["projected", "sources"]) ["secret", "name"] := by
    cases List.mem_append.mp h with
    | inl hplain =>
      have hplain := mem_plainVolumeReferences.mp hplain
      simp only [String.reduceEq, false_and, true_and, false_or, or_false] at hplain
      exact hplain ▸ List.mem_cons_self
    | inr hprojected =>
      have hprojected := mem_projectedReferences.mp hprojected
      simp only [String.reduceEq, false_and, true_and, false_or] at hprojected
      exact List.mem_cons_of_mem _ hprojected
  refine List.mem_append_left _ (List.mem_append_right _ (List.mem_flatMap.mpr ⟨v, ?_, hname⟩))
  exact hseen.slice "volumes" v hv

/-- The Secret extractor finds every Secret that the spec declares. -/
theorem secret_found (h : ⟨"Secret", name⟩ ∈ specReferences spec) :
    name ∈ podSecretNames r := by
  unfold specReferences at h
  simp only [List.mem_append] at h
  rcases h with h | h | h | h
  · exact secret_of_container hseen (by simp) h
  · exact secret_of_container hseen (by simp) h
  · exact secret_of_container hseen (by simp) h
  · obtain ⟨v, hv, href⟩ := List.mem_flatMap.mp h
    exact secret_of_volume hseen hv href

/-- The ConfigMap extractor finds every ConfigMap that is not
hidden. -/
theorem configMap_found (h : ⟨"ConfigMap", name⟩ ∈ specReferences spec) :
    name ∈ configMapNames r ∨ ⟨"ConfigMap", name⟩ ∈ hiddenReferences spec := by
  unfold specReferences at h
  unfold hiddenReferences
  simp only [List.mem_append] at h ⊢
  rcases h with h | h | h | h
  · obtain ⟨c, hc, href⟩ := List.mem_flatMap.mp h
    have hname := (mem_containerReferences.mp href).resolve_right fun h => by simp at h
    refine .inl (List.mem_append_left _ (List.mem_flatMap.mpr ⟨c, ?_, hname.2⟩))
    exact hseen.slice "containers" c hc
  · exact .inr (.inl h)
  · exact .inr (.inr (.inl h))
  · obtain ⟨v, hv, href⟩ := List.mem_flatMap.mp h
    cases List.mem_append.mp href with
    | inl hplain =>
      have hplain := mem_plainVolumeReferences.mp hplain
      simp only [String.reduceEq, false_and, true_and, or_false] at hplain
      refine .inl (List.mem_append_right _ (List.mem_map.mpr ⟨v, ?_, hplain.symm⟩))
      exact hseen.slice "volumes" v hv
    | inr hprojected =>
      exact .inr (.inr (.inr (List.mem_flatMap.mpr ⟨v, hv, hprojected⟩)))

/-- What the two extractors emit for a workload. -/
theorem configMapEdges_eq :
    configMapEdges r
      = emitNamed r .usesConfigMap ((configMapNames r).map (⟨"ConfigMap", r.ns, ·⟩)) := by
  unfold configMapEdges
  cases hseen.podBearing with
  | inl hpod => simp [hpod]
  | inr htemplate => simp [htemplate]

theorem mem_secretRefs (h : name ∈ podSecretNames r) :
    ⟨"Secret", r.ns, name⟩ ∈ secretRefs r := by
  unfold secretRefs
  dsimp only
  rw [if_pos (by simpa using hseen.podBearing)]
  exact List.mem_append_left _ (List.mem_append_left _ (List.mem_append_left _
    (List.mem_map.mpr ⟨name, h, rfl⟩)))

end Compared

section

variable {spec : Object}

/-- A hidden reference is one the reader recognises. -/
theorem mem_specReferences_of_hidden {ref : Reference}
    (h : ref ∈ hiddenReferences spec) : ref ∈ specReferences spec := by
  unfold hiddenReferences at h
  unfold specReferences
  simp only [List.mem_append] at h ⊢
  rcases h with h | h | h
  · exact .inr (.inl h)
  · exact .inr (.inr (.inl h))
  · obtain ⟨v, hv, href⟩ := List.mem_flatMap.mp h
    exact .inr (.inr (.inr
      (List.mem_flatMap.mpr ⟨v, hv, List.mem_append_right _ href⟩)))

/-- The reader recognises three kinds of targets. -/
theorem kind_of_mem {ref : Reference} (h : ref ∈ specReferences spec) :
    ref.kind = "ConfigMap" ∨ ref.kind = "Secret" ∨ ref.kind = "PersistentVolumeClaim" := by
  have hcontainer : ∀ field, ref ∈ containerListReferences spec field →
      ref.kind = "ConfigMap" ∨ ref.kind = "Secret" := by
    intro field hfield
    obtain ⟨c, _, href⟩ := List.mem_flatMap.mp hfield
    exact (mem_containerReferences.mp href).imp (·.1) (·.1)
  unfold specReferences at h
  simp only [List.mem_append] at h
  rcases h with h | h | h | h
  · exact (hcontainer _ h).imp_right .inl
  · exact (hcontainer _ h).imp_right .inl
  · exact (hcontainer _ h).imp_right .inl
  · obtain ⟨v, _, href⟩ := List.mem_flatMap.mp h
    cases List.mem_append.mp href with
    | inl hplain =>
      exact (mem_plainVolumeReferences.mp hplain).imp (·.1) fun h => h.imp (·.1) (·.1)
    | inr hprojected =>
      exact (mem_projectedReferences.mp hprojected).imp (·.1) fun h => .inl h.1

/-! ### Coverage -/

/-- The extractors emit the edge that leads from `r` to a target of
the reader. -/
def Emitted (r : Resource) (key : ImpactReferenceTarget) : Prop :=
  ∃ e ∈ configMapEdges r ++ secretEdges r,
    e.fromID = r.ID ∧ e.toID = key.id ∧ e.type = key.edgeType

/-- Every ConfigMap and every Secret that the reader recognises has
its edge. -/
def Covered (r : Resource) (parsed : ImpactReferenceSource) : Prop :=
  ∀ key, key.edgeType = .usesConfigMap ∨ key.edgeType = .usesSecret →
    parsed.uses key ≠ [] → Emitted r key

/-- Every ConfigMap of a hidden reference is also named where the
extractor looks. -/
def HiddenNamed (r : Resource) : Prop :=
  ∀ spec, resourceSpec r = some spec → ∀ name, ⟨"ConfigMap", name⟩ ∈ hiddenReferences spec →
    name ≠ "" → name ∈ configMapNames r

theorem emitted_secret (hseen : SeenAs r spec) {name : String} (hne : name ≠ "")
    (h : ⟨"Secret", name⟩ ∈ specReferences spec) :
    Emitted r ((⟨"Secret", name⟩ : Reference).key r.ns r.clusterID) := by
  refine ⟨_, List.mem_append_right _ (mem_emitNamed.mpr
    ⟨_, mem_secretRefs hseen (secret_found hseen h), hne, rfl⟩), rfl, rfl, rfl⟩

/-- An edge to a ConfigMap is emitted exactly if the extractor finds
its name. -/
theorem emitted_configMap_iff (hseen : SeenAs r spec) {name : String} (hne : name ≠ "") :
    Emitted r ((⟨"ConfigMap", name⟩ : Reference).key r.ns r.clusterID)
      ↔ name ∈ configMapNames r := by
  constructor
  · rintro ⟨e, hmem, _, hto, htype⟩
    cases List.mem_append.mp hmem with
    | inl hconfig =>
      rw [configMapEdges_eq hseen] at hconfig
      obtain ⟨ref, href, _, rfl⟩ := mem_emitNamed.mp hconfig
      obtain ⟨name', hname', rfl⟩ := List.mem_map.mp href
      have hsame : name' = name := target_injective (show target r _ _ _ = _ from hto)
      exact hsame ▸ hname'
    | inr hsecret =>
      -- An edge to a Secret has another type.
      obtain ⟨_, _, _, rfl⟩ := mem_emitNamed.mp hsecret
      have hne : EdgeType.usesSecret ≠ .usesConfigMap := by decide
      exact absurd htype hne
  · intro hname
    have hedge : ({ fromID := r.ID, toID := target r "ConfigMap" r.ns name
                    type := .usesConfigMap } : Edge) ∈ configMapEdges r := by
      rw [configMapEdges_eq hseen]
      exact mem_emitNamed.mpr ⟨_, List.mem_map.mpr ⟨name, hname, rfl⟩, hne, rfl⟩
    exact ⟨_, List.mem_append_left _ hedge, rfl, rfl, rfl⟩

end

/-- The extractors cover what the reader recognises in a well-formed
workload exactly if no ConfigMap is named only by an init container,
an ephemeral container or a projected volume. -/
theorem covered_iff {reader : ImpactReferenceReader} {r : Resource}
    {parsed : ImpactReferenceSource} (hr : WellFormed r)
    (hparse : (reader.parse r).1 = .ok parsed) (hreason : parsed.reason = .none) :
    Covered r parsed ↔ HiddenNamed r := by
  obtain ⟨spec, hspec, huses⟩ := uses_of_parse hparse hreason
  have hseen := seenAs_of_wellFormed hr hspec
  constructor
  · intro hcovered spec' hspec' name hhidden hne
    obtain rfl : spec = spec' := Option.some.inj (hspec.symm.trans hspec')
    refine (emitted_configMap_iff hseen hne).mp (hcovered _ (.inl rfl) ?_)
    exact (huses _).mpr ⟨_, mem_specReferences_of_hidden hhidden, hne, rfl⟩
  · intro hnamed key htype hkey
    obtain ⟨⟨kind, name⟩, hmem, hne, rfl⟩ := (huses key).mp hkey
    rcases kind_of_mem hmem with hk | hk | hk <;> obtain rfl : kind = _ := hk
    · refine (emitted_configMap_iff hseen hne).mpr ?_
      cases configMap_found hseen hmem with
      | inl hfound => exact hfound
      | inr hhidden => exact hnamed spec hspec name hhidden hne
    · exact emitted_secret hseen hne hmem
    · -- A claim is neither a ConfigMap nor a Secret.
      have hne : EdgeType.mountsVolume ≠ .usesConfigMap ∧ EdgeType.mountsVolume ≠ .usesSecret := by
        decide
      exact absurd htype (not_or.mpr hne)

/-! ### A Pod whose init container has a ConfigMap of its own -/

/-- A Pod whose init container takes its environment from the
ConfigMap `c`; with `also`, so does its regular container. -/
def initPod (also : Bool) : Resource :=
  let container : Json :=
    .obj [("envFrom", .arr [.obj [("configMapRef", .obj [("name", .str "c")])]])]
  { kind := "Pod", name := "p", ns := "d", groupVersion := "v1", uid := "1"
    resourceVersion := "1"
    raw := some
      [("kind", .str "Pod"), ("apiVersion", .str "v1"),
        ("metadata", .obj [("name", .str "p"), ("namespace", .str "d"), ("uid", .str "1"),
          ("resourceVersion", .str "1")]),
        ("spec", .obj [("initContainers", .arr [container]),
          ("containers", .arr (if also then [container] else []))])] }

theorem initPod_wellFormed (also : Bool) : WellFormed (initPod also) where
  pod _ := ⟨rfl, rfl⟩
  cronJob h := absurd h (by simp [initPod])

/-- The reader accepts the Pod and recognises the ConfigMap. -/
theorem initPod_recognised (also : Bool) :
    ∃ parsed, (newImpactReferenceReader.parse (initPod also)).1 = .ok parsed ∧
      parsed.reason = .none ∧ parsed.uses ⟨"d/ConfigMap/c", .usesConfigMap⟩ ≠ [] := by
  cases also <;> exact ⟨_, rfl, rfl, by decide +kernel⟩

/-- A ConfigMap that only an init container uses has no edge. -/
theorem init_configMap_not_covered :
    WellFormed (initPod false) ∧
      ∃ parsed, (newImpactReferenceReader.parse (initPod false)).1 = .ok parsed ∧
        parsed.reason = .none ∧ parsed.uses ⟨"d/ConfigMap/c", .usesConfigMap⟩ ≠ [] ∧
        configMapEdges (initPod false) = [] ∧ secretEdges (initPod false) = [] ∧
        ¬ Covered (initPod false) parsed := by
  obtain ⟨parsed, hparse, hreason, huse⟩ := initPod_recognised false
  have hconfig : configMapEdges (initPod false) = [] := by decide +kernel
  have hsecret : secretEdges (initPod false) = [] := by decide +kernel
  refine ⟨initPod_wellFormed false, parsed, hparse, hreason, huse, hconfig, hsecret, ?_⟩
  intro hcovered
  obtain ⟨e, hmem, _⟩ := hcovered _ (.inl rfl) huse
  cases hmem

/-- With the same ConfigMap in a regular container there is nothing
to miss. -/
theorem covered_when_named_twice :
    ∃ parsed, (newImpactReferenceReader.parse (initPod true)).1 = .ok parsed ∧
      parsed.reason = .none ∧ parsed.uses ⟨"d/ConfigMap/c", .usesConfigMap⟩ ≠ [] ∧
      Covered (initPod true) parsed := by
  obtain ⟨parsed, hparse, hreason, huse⟩ := initPod_recognised true
  refine ⟨parsed, hparse, hreason, huse,
    (covered_iff (initPod_wellFormed true) hparse hreason).mpr ?_⟩
  intro spec hspec name hhidden _
  cases hspec
  have hname : (⟨"ConfigMap", name⟩ : Reference) ∈ [⟨"ConfigMap", "c"⟩, ⟨"Secret", ""⟩] := hhidden
  have hc : name = "c" := by simpa using hname
  rw [hc]
  decide +kernel

end KubeAtlas.Proofs.Extractor
