import KubeAtlas.Proofs.Graph.Identifiers
import KubeAtlas.Proofs.Impact.AuthorizationIndex
import KubeAtlas.Proofs.Impact.Traversal

/-!
# `KubeAtlas.Proofs.Impact.AuthorizationMotif`: the facet follows its motif

An `Association` is a stored role, subject or account edge between
two loaded resources of the right classes, and the only one of its
type at its source where the type allows one only. `Motif` lists,
for each class of root, the resources that the facet is about:
twelve patterns of one to three associations.

The traversal knows nothing of patterns. It asks
`impactAuthorizationTransition` at each resource which edge types it
may follow, and in which direction. `Motif.step` says that such a
step leads from one pattern to the next, and `walk_iff_motif` that
the walks from the root are the patterns.
`analyzeImpactAuthorization_motif` then reads the result off
`Search.Final`.
-/

set_option autoImplicit false

namespace KubeAtlas.Proofs.Impact

open KubeAtlas.Graph Lib Analysis
open KubeAtlas.Proofs.Graph (Plain)

/-! ### The motif -/

section Motif

variable (g : Graph) (cluster : String)

/-- The edge of type `type` from `source` to `target` is stored
between loaded resources whose classes and scopes it allows. A
binding refers to one role, and a workload to one account: an edge
with a rival is not an association. -/
structure Association (type : EdgeType) (source target : Resource) : Prop where
  stored : ⟨source.ID, target.ID, type⟩ ∈ g.edges.map Edge.key
  source_loaded : source ∈ selected cluster g.resources
  target_loaded : target ∈ selected cluster g.resources
  allowed : validAuthorizationEdge type source target = true
  sole : type = .bindsRole ∨ type = .usesServiceAccount →
    ∀ e ∈ g.edges, e.fromID = source.ID → e.type = type → e.toID = target.ID

/-- The resources at the end of the patterns of each class of root,
with the number of associations in the pattern. -/
inductive Motif (root : Resource) : AuthorizationClass → Nat → Resource → Prop
  | roleBinding {b : Resource} (h : Association g cluster .bindsRole b root) :
      Motif root .role 1 b
  | roleAccount {b a : Resource} (h : Association g cluster .bindsRole b root)
      (h' : Association g cluster .bindsSubject b a) : Motif root .role 2 a
  | roleWorkload {b a w : Resource} (h : Association g cluster .bindsRole b root)
      (h' : Association g cluster .bindsSubject b a)
      (h'' : Association g cluster .usesServiceAccount w a) : Motif root .role 3 w
  | bindingRole {r : Resource} (h : Association g cluster .bindsRole root r) :
      Motif root .binding 1 r
  | bindingAccount {a : Resource} (h : Association g cluster .bindsSubject root a) :
      Motif root .binding 1 a
  | bindingWorkload {a w : Resource} (h : Association g cluster .bindsSubject root a)
      (h' : Association g cluster .usesServiceAccount w a) : Motif root .binding 2 w
  | accountBinding {b : Resource} (h : Association g cluster .bindsSubject b root) :
      Motif root .account 1 b
  | accountRole {b r : Resource} (h : Association g cluster .bindsSubject b root)
      (h' : Association g cluster .bindsRole b r) : Motif root .account 2 r
  | accountWorkload {w : Resource} (h : Association g cluster .usesServiceAccount w root) :
      Motif root .account 1 w
  | workloadAccount {a : Resource} (h : Association g cluster .usesServiceAccount root a) :
      Motif root .workload 1 a
  | workloadBinding {a b : Resource} (h : Association g cluster .usesServiceAccount root a)
      (h' : Association g cluster .bindsSubject b a) : Motif root .workload 2 b
  | workloadRole {a b r : Resource} (h : Association g cluster .usesServiceAccount root a)
      (h' : Association g cluster .bindsSubject b a)
      (h'' : Association g cluster .bindsRole b r) : Motif root .workload 3 r

/-- What the traversal may do at `r`: follow an association that
leaves it, or go back along one that enters it. -/
@[mk_iff]
inductive MotifStep (cls : AuthorizationClass) (r r' : Resource) : Prop
  | forward {type : EdgeType}
      (allowed : impactAuthorizationTransition cls (impactAuthorizationClass r) type false = true)
      (along : Association g cluster type r r') : MotifStep cls r r'
  | backward {type : EdgeType}
      (allowed : impactAuthorizationTransition cls (impactAuthorizationClass r) type true = true)
      (along : Association g cluster type r' r) : MotifStep cls r r'

variable {g cluster}

namespace Association

@[grind →]
theorem binding_of_role {b r : Resource} (h : Association g cluster .bindsRole b r) :
    impactAuthorizationClass b = some .binding ∧ impactAuthorizationClass r = some .role := by
  have hallowed := h.allowed
  simp only [validAuthorizationEdge, if_true, Bool.and_eq_true, decide_eq_true_eq] at hallowed
  exact hallowed.1

@[grind →]
theorem binding_of_subject {b a : Resource} (h : Association g cluster .bindsSubject b a) :
    impactAuthorizationClass b = some .binding ∧ impactAuthorizationClass a = some .account := by
  simpa [validAuthorizationEdge, EdgeType.bindsSubject, EdgeType.bindsRole] using h.allowed

@[grind →]
theorem workload_of_account {w a : Resource}
    (h : Association g cluster .usesServiceAccount w a) :
    impactAuthorizationClass w = some .workload ∧ impactAuthorizationClass a = some .account := by
  have hallowed := h.allowed
  simp only [validAuthorizationEdge, show EdgeType.usesServiceAccount ≠ .bindsRole by decide,
    show EdgeType.usesServiceAccount ≠ .bindsSubject by decide, if_true, if_false,
    Bool.and_eq_true, decide_eq_true_eq] at hallowed
  exact hallowed.1

end Association

/-! ### Steps at each class of resource -/

namespace MotifStep

variable {cls : AuthorizationClass} {r r' : Resource}

@[simp]
theorem of_role (hr : impactAuthorizationClass r = some .role) :
    MotifStep g cluster cls r r' ↔ cls = .role ∧ Association g cluster .bindsRole r' r := by
  simp [motifStep_iff, impactAuthorizationTransition, hr]

@[simp]
theorem of_binding (hr : impactAuthorizationClass r = some .binding) :
    MotifStep g cluster cls r r' ↔ (cls ≠ .role ∧ Association g cluster .bindsRole r r') ∨
      ((cls = .role ∨ cls = .binding) ∧ Association g cluster .bindsSubject r r') := by
  simp [motifStep_iff, impactAuthorizationTransition, hr, or_and_right, exists_or, and_assoc]

@[simp]
theorem of_account (hr : impactAuthorizationClass r = some .account) :
    MotifStep g cluster cls r r' ↔
      ((cls = .account ∨ cls = .workload) ∧ Association g cluster .bindsSubject r' r) ∨
        (cls ≠ .workload ∧ Association g cluster .usesServiceAccount r' r) := by
  simp [motifStep_iff, impactAuthorizationTransition, hr, or_and_right, exists_or, and_assoc]

@[simp]
theorem of_workload (hr : impactAuthorizationClass r = some .workload) :
    MotifStep g cluster cls r r' ↔
      cls = .workload ∧ Association g cluster .usesServiceAccount r r' := by
  simp [motifStep_iff, impactAuthorizationTransition, hr]

end MotifStep

/-! ### Patterns and walks -/

namespace Motif

variable {root r r' : Resource} {cls : AuthorizationClass} {n : Nat}

/-- The first step from the root makes a pattern of one association. -/
theorem first (hroot : impactAuthorizationClass root = some cls)
    (h : MotifStep g cluster cls root r) : Motif g cluster root cls 1 r := by
  cases cls <;> simp [hroot] at h
  case role => exact .roleBinding h
  case binding => exact h.elim .bindingRole .bindingAccount
  case account => exact h.elim .accountBinding .accountWorkload
  case workload => exact .workloadAccount h

section

variable (h : Motif g cluster root cls n r)
include h

/-- A further step makes a longer pattern, or there is none: the
last resource of a finished pattern has no step. -/
theorem step (hstep : MotifStep g cluster cls r r') :
    Motif g cluster root cls (n + 1) r' := by
  cases h with
  | roleBinding h => exact .roleAccount h (by simpa [h.binding_of_role] using hstep)
  | roleAccount h h' => exact .roleWorkload h h' (by simpa [h'.binding_of_subject] using hstep)
  | roleWorkload h h' h'' => simp [h''.workload_of_account] at hstep
  | bindingRole h => simp [h.binding_of_role] at hstep
  | bindingAccount h => exact .bindingWorkload h (by simpa [h.binding_of_subject] using hstep)
  | bindingWorkload h h' => simp [h'.workload_of_account] at hstep
  | accountBinding h => exact .accountRole h (by simpa [h.binding_of_subject] using hstep)
  | accountRole h h' => simp [h'.binding_of_role] at hstep
  | accountWorkload h => simp [h.workload_of_account] at hstep
  | workloadAccount h => exact .workloadBinding h (by simpa [h.workload_of_account] using hstep)
  | workloadBinding h h' => exact .workloadRole h h' (by simpa [h'.binding_of_subject] using hstep)
  | workloadRole h h' h'' => simp [h''.binding_of_role] at hstep

/-- A pattern has at least one association, and ends at a loaded
resource. -/
theorem loaded : (∃ k, n = k + 1) ∧ r ∈ selected cluster g.resources := by
  cases h <;> grind [Association]

/-- No pattern ends at a resource of the root's own class. -/
theorem class_ne : impactAuthorizationClass r ≠ some cls := by
  cases h <;> grind

end

end Motif

namespace Association

variable {cls : AuthorizationClass} {r r' : Resource}

/-- The steps that the patterns are made of. -/
theorem stepToBinding (h : Association g cluster .bindsRole r' r) :
    MotifStep g cluster .role r r' := by
  simp [h, h.binding_of_role]

theorem stepToRole (h : Association g cluster .bindsRole r r') (hcls : cls ≠ .role) :
    MotifStep g cluster cls r r' := by
  simp [h, h.binding_of_role, hcls]

theorem stepToSubject (h : Association g cluster .bindsSubject r r')
    (hcls : cls = .role ∨ cls = .binding) : MotifStep g cluster cls r r' := by
  simp [h, h.binding_of_subject, hcls]

theorem stepFromSubject (h : Association g cluster .bindsSubject r' r)
    (hcls : cls = .account ∨ cls = .workload) : MotifStep g cluster cls r r' := by
  simp [h, h.binding_of_subject, hcls]

theorem stepToWorkload (h : Association g cluster .usesServiceAccount r' r)
    (hcls : cls ≠ .workload) : MotifStep g cluster cls r r' := by
  simp [h, h.workload_of_account, hcls]

theorem stepToAccount (h : Association g cluster .usesServiceAccount r r') :
    MotifStep g cluster .workload r r' := by
  simp [h, h.workload_of_account]

end Association

/-- The walks of at least one step from the root are the patterns. -/
theorem walk_iff_motif {root : Resource} {cls : AuthorizationClass}
    (hroot : impactAuthorizationClass root = some cls) {n : Nat} {r : Resource} :
    Walk (MotifStep g cluster cls) root (n + 1) r ↔ Motif g cluster root cls (n + 1) r := by
  constructor
  · intro h
    induction n generalizing r with
    | zero =>
      obtain ⟨v, hv, hstep⟩ := Walk.succ_iff.mp h
      rw [Walk.zero_iff] at hv
      subst hv
      exact .first hroot hstep
    | succ n ih =>
      obtain ⟨v, hv, hstep⟩ := Walk.succ_iff.mp h
      exact (ih hv).step hstep
  · intro h
    cases h with
    | roleBinding h => exact .snoc .refl h.stepToBinding
    | roleAccount h h' => exact .snoc (.snoc .refl h.stepToBinding) (h'.stepToSubject (.inl rfl))
    | roleWorkload h h' h'' =>
      exact .snoc (.snoc (.snoc .refl h.stepToBinding) (h'.stepToSubject (.inl rfl)))
        (h''.stepToWorkload (by decide))
    | bindingRole h => exact .snoc .refl (h.stepToRole (by decide))
    | bindingAccount h => exact .snoc .refl (h.stepToSubject (.inr rfl))
    | bindingWorkload h h' =>
      exact .snoc (.snoc .refl (h.stepToSubject (.inr rfl))) (h'.stepToWorkload (by decide))
    | accountBinding h => exact .snoc .refl (h.stepFromSubject (.inl rfl))
    | accountRole h h' =>
      exact .snoc (.snoc .refl (h.stepFromSubject (.inl rfl))) (h'.stepToRole (by decide))
    | accountWorkload h => exact .snoc .refl (h.stepToWorkload (by decide))
    | workloadAccount h => exact .snoc .refl h.stepToAccount
    | workloadBinding h h' =>
      exact .snoc (.snoc .refl h.stepToAccount) (h'.stepFromSubject (.inr rfl))
    | workloadRole h h' h'' =>
      exact .snoc (.snoc (.snoc .refl h.stepToAccount) (h'.stepFromSubject (.inr rfl)))
        (h''.stepToRole (by decide))

end Motif

/-- The step along an association, or back along it. -/
def associationStep (type : EdgeType) (source target : Resource) (reverse : Bool) : ImpactStep :=
  { fromID := source.ID, toID := target.ID, type := type
    traversalFrom := (authorizationEnds ⟨source.ID, target.ID, type⟩ reverse).1
    traversalTo := (authorizationEnds ⟨source.ID, target.ID, type⟩ reverse).2 }

/-! ### Loaded projections -/

theorem plain_of_containsAny {s : String} (h : Strings.containsAny s ['/', ':'] = false) :
    Plain s := by
  rw [Strings.containsAny_eq_false_iff] at h
  exact ⟨fun hmem => h _ hmem (by simp), fun hmem => h _ hmem (by simp)⟩

variable {table : ResourceTable} {r : Resource}

theorem get_of_eq_some {id : String} (h : table id = some r) : table.get id = r := by
  show (table id).getD {} = r
  rw [h]
  rfl

/-- Only a ServiceAccount is an account. -/
theorem kind_of_account (h : impactAuthorizationClass r = some .account) :
    r.kind = "ServiceAccount" := by
  have hkind : ∃ version namespaced,
      authorizationKind r.kind = some (.account, version, namespaced) := by
    unfold impactAuthorizationClass at h
    cases hk : authorizationKind r.kind with
    | none =>
      rw [hk] at h
      cases h
    | some found =>
      obtain ⟨cls, version, namespaced⟩ := found
      rw [hk] at h
      dsimp only at h
      split at h
      · cases h
      · cases h
        exact ⟨version, namespaced, rfl⟩
  obtain ⟨version, namespaced, hk⟩ := hkind
  unfold authorizationKind at hk
  by_contra hne
  repeat' split at hk
  all_goals simp at hk

namespace Prepared

variable {g : Graph} {rootID : String} {opts o : ImpactOptions} {table : ResourceTable}
  {root : Resource} {id : String} {r : Resource}

section

variable (h : Prepared g rootID opts o table root)
include h

/-- A loaded resource has plain segments, and belongs to the
cluster. -/
theorem plain (hr : table id = some r) :
    r.ID = id ∧ r.clusterID = o.clusterID ∧ Plain r.ns ∧ Plain r.kind ∧ Plain o.clusterID := by
  obtain ⟨hmem, hid⟩ := (h.tabulates.lookup id r).mp hr
  have hvalid : validResource r = true := loadResources_valid h.loaded r hmem
  have hopts := normalizeImpactOptions_valid h.options
  unfold ImpactOptions.valid at hopts
  simp only [Bool.not_eq_true', Bool.or_eq_false_iff] at hopts
  unfold validResource at hvalid
  simp only [Bool.not_eq_true', Bool.or_eq_false_iff, Strings.containsAny_append] at hvalid
  obtain ⟨⟨-, hns, hkind⟩, -⟩ := hvalid
  exact ⟨hid, clusterID_of_mem_selected hmem, plain_of_containsAny hns,
    plain_of_containsAny hkind, plain_of_containsAny hopts.1.1.1.1.1.2⟩

/-- So the identifier of a loaded resource is in the cluster. -/
theorem inCluster (hr : table id = some r) :
    impactIDInCluster id o.clusterID = true := by
  obtain ⟨rfl, hcluster, hns, -, ho⟩ := h.plain hr
  exact (Graph.impactIDInCluster_ID hns (hcluster ▸ ho) o.clusterID).mpr hcluster.symm

/-- And that of a loaded account is not taken for a user or a group. -/
theorem not_userOrGroup (hr : table id = some r)
    (hclass : impactAuthorizationClass r = some .account) :
    isUserOrGroup id = false := by
  obtain ⟨rfl, hcluster, hns, hkind, ho⟩ := h.plain hr
  obtain ⟨head, hhead, hID, -⟩ := Graph.cut_slash_ID hns (hcluster ▸ ho)
  have hsplit : Strings.splitN '/' 3 r.ID = [head, r.kind, r.name] :=
    Strings.splitN_three_iff.mpr ⟨hhead, hkind.slash, hID⟩
  unfold isUserOrGroup
  rw [hsplit, kind_of_account hclass]
  rfl

/-- The edges that the facet may follow are the associations. -/
theorem edgeReason_eq_none_iff {edge : EdgeKey}
    (hmem : edge ∈ (collectAuthorizationEdges table g.edges).unique) :
    impactAuthorizationEdgeReason edge table o.clusterID
        (collectAuthorizationEdges table g.edges) = none ↔
      ∃ source target, table edge.fromID = some source ∧ table edge.toID = some target ∧
        Association g o.clusterID edge.type source target := by
  have hrefs := collectAuthorizationEdges_spec table g.edges
  unfold impactAuthorizationEdgeReason
  constructor
  · intro hreason
    split_ifs at hreason with hcluster hambiguous hsubject hmissing hinvalid
    obtain ⟨hsource, htarget⟩ : (table edge.fromID).isSome ∧ (table edge.toID).isSome := by
      simpa [Option.isSome_iff_ne_none] using hmissing
    obtain ⟨source, hs⟩ := Option.isSome_iff_exists.mp hsource
    obtain ⟨target, ht⟩ := Option.isSome_iff_exists.mp htarget
    obtain ⟨hsmem, hsid⟩ := (h.tabulates.lookup _ _).mp hs
    obtain ⟨htmem, htid⟩ := (h.tabulates.lookup _ _).mp ht
    refine ⟨source, target, hs, ht, ?_, hsmem, htmem, ?_, ?_⟩
    · rw [hsid, htid]
      exact ((hrefs.mem_unique edge).mp hmem).1
    · rw [get_of_eq_some hs, get_of_eq_some ht] at hinvalid
      simpa using hinvalid
    · rw [hsid, htid]
      exact (hrefs.not_ambiguous_iff hmem hsource).mp (Bool.eq_false_of_not_eq_true hambiguous)
  · rintro ⟨source, target, hs, ht, hassoc⟩
    obtain ⟨-, hsid⟩ := (h.tabulates.lookup _ _).mp hs
    obtain ⟨-, htid⟩ := (h.tabulates.lookup _ _).mp ht
    have hsole := hassoc.sole
    rw [hsid, htid] at hsole
    have hunambiguous := (hrefs.not_ambiguous_iff hmem (by rw [hs]; rfl)).mpr hsole
    have hsubject : edge.type = .bindsSubject → isUserOrGroup edge.toID = false := fun htype =>
      h.not_userOrGroup ht (htype ▸ hassoc).binding_of_subject.2
    rw [if_neg (by simp [h.inCluster hs, h.inCluster ht]), if_neg (by simp [hunambiguous]),
      if_neg (by simpa using hsubject), if_neg (by simp [hs, ht]),
      if_neg (by simp [get_of_eq_some hs, get_of_eq_some ht, hassoc.allowed])]

/-- An association is among the collected edges. -/
theorem mem_unique {type : EdgeType}
    {source target : Resource} (hassoc : Association g o.clusterID type source target) :
    table source.ID = some source ∧ table target.ID = some target ∧
      ⟨source.ID, target.ID, type⟩ ∈ (collectAuthorizationEdges table g.edges).unique := by
  have hs := (h.tabulates.lookup source.ID source).mpr ⟨hassoc.source_loaded, rfl⟩
  have ht := (h.tabulates.lookup target.ID target).mpr ⟨hassoc.target_loaded, rfl⟩
  refine ⟨hs, ht, ?_⟩
  rw [(collectAuthorizationEdges_spec table g.edges).mem_unique]
  refine ⟨hassoc.stored, ?_, Or.inl (by rw [hs]; rfl)⟩
  show isAuthorizationEdge type = true
  have hallowed := hassoc.allowed
  unfold validAuthorizationEdge at hallowed
  unfold isAuthorizationEdge
  split_ifs at hallowed with hrole hsubject haccount
  · simp [hrole]
  · simp [hsubject]
  · simp [haccount]

/-- The arcs of the traversal are the steps along associations that
the motif allows. -/
theorem mem_arcs_iff (range : RangeOrder EdgeKey)
    (cls : AuthorizationClass) {u : String} {step : ImpactStep} :
    step ∈ (indexAuthorizationEdges range cls table o.clusterID
        (collectAuthorizationEdges table g.edges)).arcs u ↔
      ∃ type source target reverse, Association g o.clusterID type source target ∧
        impactAuthorizationTransition cls
          (impactAuthorizationClass (if reverse then target else source)) type reverse = true ∧
        u = (if reverse then target else source).ID ∧
        step = associationStep type source target reverse := by
  rw [(indexAuthorizationEdges_holds cls table o.clusterID _ range).mem_arcs, List.mem_flatMap]
  constructor
  · rintro ⟨edge, hmem, hentry⟩
    obtain ⟨reverse, rfl, harc⟩ := (mem_authorizationEntriesOf cls table o.clusterID _).mp hentry
    obtain ⟨hmotif, hreason, rfl⟩ := arc_mem_authorizationEntries harc
    obtain ⟨source, target, hs, ht, hassoc⟩ := (h.edgeReason_eq_none_iff hmem).mp hreason
    obtain ⟨-, hsid⟩ := (h.tabulates.lookup _ _).mp hs
    obtain ⟨-, htid⟩ := (h.tabulates.lookup _ _).mp ht
    refine ⟨edge.type, source, target, reverse, hassoc, ?_, ?_, by rw [associationStep, hsid, htid]⟩
    all_goals cases reverse
    · exact get_of_eq_some hs ▸ hmotif
    · exact get_of_eq_some ht ▸ hmotif
    · exact hsid.symm
    · exact htid.symm
  · rintro ⟨type, source, target, reverse, hassoc, hmotif, rfl, rfl⟩
    obtain ⟨hs, ht, hmem⟩ := h.mem_unique hassoc
    refine ⟨_, hmem, (mem_authorizationEntriesOf cls table o.clusterID _).mpr ⟨reverse, ?_, ?_⟩⟩
    · cases reverse with
      | false | true => rfl
    · have hreason := (h.edgeReason_eq_none_iff hmem).mpr ⟨source, target, hs, ht, hassoc⟩
      have hclass : table.get (authorizationEnds ⟨source.ID, target.ID, type⟩ reverse).1
          = if reverse then target else source := by
        cases reverse with
        | false => exact get_of_eq_some hs
        | true => exact get_of_eq_some ht
      rw [authorizationEntries_eq_arc (by rw [hclass]; exact hmotif) hreason]
      exact List.mem_singleton.mpr rfl

end

end Prepared

/-! ### The traversal runs on the motif -/

/-- The search problem of the facet. -/
abbrev authorizationProblem (range : RangeOrder EdgeKey) (cls : AuthorizationClass) (g : Graph)
    (o : ImpactOptions) (table : ResourceTable) :=
  authorizationSearch table (collectAuthorizationEdges table g.edges)
    (indexAuthorizationEdges range cls table o.clusterID
      (collectAuthorizationEdges table g.edges)).arcs
    (indexAuthorizationEdges range cls table o.clusterID
      (collectAuthorizationEdges table g.edges)).notices o

/-- The steps lead from `u` to `v`. Each leaves where the one before
it ended, and goes along an association, in its direction or against
it. -/
def Crosses (g : Graph) (cluster : String) : String → List ImpactStep → String → Prop
  | u, [], v => u = v
  | u, step :: rest, v =>
    step.traversalFrom = u ∧
      (∃ source target, Association g cluster step.type source target ∧
        step.fromID = source.ID ∧ step.toID = target.ID ∧
        ((step.traversalFrom = source.ID ∧ step.traversalTo = target.ID) ∨
          (step.traversalFrom = target.ID ∧ step.traversalTo = source.ID))) ∧
      Crosses g cluster step.traversalTo rest v

theorem Crosses.snoc {g : Graph} {cluster : String} {u v : String} {path : List ImpactStep}
    {type : EdgeType} {source target : Resource} {reverse : Bool}
    (h : Crosses g cluster u path v) (hassoc : Association g cluster type source target)
    (hv : v = (if reverse then target else source).ID) :
    Crosses g cluster u (path ++ [associationStep type source target reverse])
      (associationStep type source target reverse).traversalTo := by
  induction path generalizing u with
  | nil =>
    have huv : u = v := h
    subst huv
    refine ⟨?_, ⟨source, target, hassoc, rfl, rfl, ?_⟩, rfl⟩
    · rw [hv]
      cases reverse <;> rfl
    · cases reverse with
      | false => exact Or.inl ⟨rfl, rfl⟩
      | true => exact Or.inr ⟨rfl, rfl⟩
  | cons s path ih =>
    obtain ⟨hs, hassoc', hrest⟩ := h
    exact ⟨hs, hassoc', ih hrest⟩

namespace Prepared

variable {g : Graph} {rootID : String} {opts o : ImpactOptions} {table : ResourceTable}
  {root : Resource} {range : RangeOrder EdgeKey} {cls : AuthorizationClass}

section

variable (h : Prepared g rootID opts o table root)
include h

theorem arc_iff {u v : String} :
    Search.Arc (authorizationProblem range cls g o table) u v ↔
      ∃ r r', table u = some r ∧ table v = some r' ∧ MotifStep g o.clusterID cls r r' := by
  constructor
  · rintro ⟨step, hstep, rfl⟩
    obtain ⟨type, source, target, reverse, hassoc, hmotif, rfl, rfl⟩ :=
      (h.mem_arcs_iff range cls).mp hstep
    obtain ⟨hs, ht, -⟩ := h.mem_unique hassoc
    cases reverse with
    | false => exact ⟨source, target, hs, ht, .forward hmotif hassoc⟩
    | true => exact ⟨target, source, ht, hs, .backward hmotif hassoc⟩
  · rintro ⟨r, r', hr, hr', hstep⟩
    obtain ⟨-, rfl⟩ := (h.tabulates.lookup u r).mp hr
    obtain ⟨-, rfl⟩ := (h.tabulates.lookup v r').mp hr'
    cases hstep with
    | @forward type hmotif hassoc =>
      exact ⟨associationStep type r r' false, (h.mem_arcs_iff range cls).mpr
        ⟨type, r, r', false, hassoc, hmotif, rfl, rfl⟩, rfl⟩
    | @backward type hmotif hassoc =>
      exact ⟨associationStep type r' r true, (h.mem_arcs_iff range cls).mpr
        ⟨type, r', r, true, hassoc, hmotif, rfl, rfl⟩, rfl⟩

/-- Walks over identifiers are walks over the resources they name. -/
theorem walk_iff {n : Nat} {v : String} :
    Walk (Search.Arc (authorizationProblem range cls g o table)) rootID n v ↔
      ∃ r, table v = some r ∧ Walk (MotifStep g o.clusterID cls) root n r := by
  constructor
  · intro w
    induction w with
    | refl => exact ⟨root, h.root_eq, .refl⟩
    | snoc _ arc ih =>
      obtain ⟨r, hr, w⟩ := ih
      obtain ⟨r₁, r', hr₁, hr', hstep⟩ := h.arc_iff.mp arc
      obtain rfl : r = r₁ := Option.some.inj (hr.symm.trans hr₁)
      exact ⟨r', hr', .snoc w hstep⟩
  · rintro ⟨r, hr, w⟩
    induction w generalizing v with
    | refl =>
      obtain ⟨-, rfl⟩ := (h.tabulates.lookup _ _).mp hr
      obtain ⟨-, hroot⟩ := (h.tabulates.lookup _ _).mp h.root_eq
      rw [hroot]
      exact .refl
    | @snoc n r₁ r' _ hstep ih =>
      have hr₁ : table r₁.ID = some r₁ := by
        cases hstep with
        | forward _ hassoc => exact (h.mem_unique hassoc).1
        | backward _ hassoc => exact (h.mem_unique hassoc).2.1
      exact .snoc (ih hr₁) (h.arc_iff.mpr ⟨r₁, r', hr₁, hr, hstep⟩)

theorem authorizationSearch_lawful :
    Search.Lawful (authorizationProblem range cls g o table)
      { resource := impactIdentity root } where
  key_extend m step hstep := by
    obtain ⟨r, r', -, hr', -⟩ := h.arc_iff.mp ⟨step, hstep, rfl⟩
    change table step.traversalTo = some r' at hr'
    show (impactIdentity (table.get step.traversalTo)).id = step.traversalTo
    rw [get_of_eq_some hr', impactIdentity_id]
    exact ((h.tabulates.lookup _ _).mp hr').2
  depth_extend _ _ := rfl
  depth_root := rfl

/-- The walks of the search from the root are the patterns, and the
empty walk. -/
theorem walk_succ_iff (hclass : impactAuthorizationClass root = some cls) {n : Nat} {r : Resource}
    (hr : r ∈ selected o.clusterID g.resources) :
    Walk (Search.Arc (authorizationProblem range cls g o table)) rootID (n + 1) r.ID ↔
      Motif g o.clusterID root cls (n + 1) r := by
  have hr' : table r.ID = some r := (h.tabulates.lookup _ _).mpr ⟨hr, rfl⟩
  rw [h.walk_iff, ← walk_iff_motif hclass]
  constructor
  · rintro ⟨r₁, hr₁, w⟩
    obtain rfl : r = r₁ := Option.some.inj (hr'.symm.trans hr₁)
    exact w
  · exact fun w => ⟨r, hr', w⟩

/-- A match carries the identity of the loaded resource it names. -/
theorem match_resource {s : Search.State String ImpactAuthorizationMatch AuthorizationWork}
    (hfinal : Search.Final (authorizationProblem range cls g o table)
      { resource := impactIdentity root } s)
    {m : ImpactAuthorizationMatch} (hm : m ∈ s.found) :
    ∃ r ∈ selected o.clusterID g.resources, m.resource = impactIdentity r := by
  have hextend : ∀ p : ImpactAuthorizationMatch, ∀ step ∈
      (authorizationProblem range cls g o table).arcs
        ((authorizationProblem range cls g o table).key p),
      ∃ r ∈ selected o.clusterID g.resources,
        impactIdentity (table.get step.traversalTo) = impactIdentity r := by
    intro p step hstep
    obtain ⟨r, r', -, hr', -⟩ := h.arc_iff.mp ⟨step, hstep, rfl⟩
    change table step.traversalTo = some r' at hr'
    exact ⟨r', ((h.tabulates.lookup _ _).mp hr').1, by rw [get_of_eq_some hr']⟩
  obtain ⟨pre, post, hsplit⟩ := List.append_of_mem hm
  refine hfinal.found_induction
    (Q := fun _ m => ∃ r ∈ selected o.clusterID g.resources, m.resource = impactIdentity r)
    ?_ ?_ pre m post hsplit
  · exact fun _ step hstep => hextend _ step hstep
  · exact fun _ p _ step hstep _ => hextend p step hstep

/-- A trail of the search crosses associations only. -/
theorem crosses_of_trail {u v : String} {path : List ImpactStep}
    (ht : Search.Trail (authorizationProblem range cls g o table) u path v) :
    Crosses g o.clusterID u path v := by
  induction ht with
  | nil => rfl
  | snoc _ mem ih =>
    obtain ⟨type, source, target, reverse, hassoc, -, hu, rfl⟩ :=
      (h.mem_arcs_iff range cls).mp mem
    exact ih.snoc hassoc hu

end

end Prepared

/-! ### The result -/

/-- What the facet of a root of class `cls` says about the
projection. -/
structure MotifSpec (g : Graph) (cluster : String) (root : Resource) (cls : AuthorizationClass)
    (result : ImpactAuthorizationResult) : Prop where
  applicable : result.applicable = true
  /-- Each match ends a pattern, at its least length, and is not of the root's class. -/
  sound : ∀ m ∈ result.resources, ∃ r, m.resource = impactIdentity r ∧
    Motif g cluster root cls m.depth r ∧ (∀ n, Motif g cluster root cls n r → m.depth ≤ n) ∧
    impactAuthorizationClass r ≠ some cls
  /-- No resource is matched twice. -/
  once : (result.resources.map fun m => m.resource.id).Nodup
  /-- The path of a match leads to it over associations, one for each unit of depth. -/
  path : ∀ m ∈ result.resources, m.path.length = m.depth ∧
    Crosses g cluster root.ID (m.path.map fun s => s.toImpactStep) m.resource.id
  /-- The flag is up exactly when the end of a pattern is missing. -/
  truncated_iff : result.truncated = true ↔
    ∃ n r, Motif g cluster root cls n r ∧ ∀ m ∈ result.resources, m.resource ≠ impactIdentity r

/-- A step keeps its edge when it is given the scope of its binding. -/
theorem toImpactStep_authorizationStep (table : ResourceTable) (step : ImpactStep) :
    (authorizationStep table step).toImpactStep = step := by
  unfold authorizationStep
  split
  · dsimp only
    split
    · rfl
    · rfl
  · rfl

variable {cls : AuthorizationClass} {result : ImpactAuthorizationResult}
  {range : RangeOrder EdgeKey} {root : Resource}

/-- The stages of a run of the facet on a supported root. -/
theorem analyzeImpactAuthorization_ok {g : Graph} {o : ImpactOptions}
    (hclass : impactAuthorizationClass root = some cls)
    (h : analyzeImpactAuthorization range g.edges table root o = .ok result) :
    ∃ s, Search.search (authorizationProblem range cls g o table)
        { resource := impactIdentity root } {} = .ok s ∧
      result = authorizationResult o s := by
  unfold analyzeImpactAuthorization at h
  rw [hclass] at h
  dsimp only at h
  split at h
  · exact absurd h (by simp)
  · rename_i s hs
    exact ⟨s, hs, (Except.ok.inj h).symm⟩

/-- On a supported root, the result is read off the search. -/
theorem motifSpec_of_run {g : Graph} {rootID : String} {opts o : ImpactOptions}
    (hprepared : Prepared g rootID opts o table root)
    (hclass : impactAuthorizationClass root = some cls)
    (hrun : analyzeImpactAuthorization range g.edges table root o = .ok result) :
    MotifSpec g o.clusterID root cls result := by
  obtain ⟨s, hs, rfl⟩ := analyzeImpactAuthorization_ok hclass hrun
  have hlaw : Search.Lawful (authorizationProblem range cls g o table)
    { resource := impactIdentity root } := hprepared.authorizationSearch_lawful
  have hfinal := Search.search_final hlaw hs
  obtain ⟨hrootmem, hrootID⟩ := (hprepared.tabulates.lookup _ _).mp hprepared.root_eq
  have hkey : (authorizationProblem range cls g o table).key
      { resource := impactIdentity root } = rootID := by
    show (impactIdentity root).id = rootID
    rw [impactIdentity_id, hrootID]
  refine
    { applicable := rfl, sound := fun m hm => ?_, once := hfinal.found_nodup.1
      path := fun m hm => ?_, truncated_iff := ?_ }
  · obtain ⟨r, hr, hid⟩ := hprepared.match_resource hfinal hm
    have hdist := hfinal.isDistance hlaw (List.mem_cons_of_mem _ hm)
    have hmkey : (authorizationProblem range cls g o table).key m = r.ID := by
      show m.resource.id = r.ID
      rw [hid, impactIdentity_id]
    rw [hkey, hmkey] at hdist
    obtain ⟨n, hn⟩ : ∃ n, m.depth = n + 1 :=
      Nat.exists_eq_succ_of_ne_zero (Nat.one_le_iff_ne_zero.mp (hfinal.depth_pos hlaw hm))
    have hmotif : Motif g o.clusterID root cls m.depth r := by
      have hwalk : Walk _ rootID m.depth r.ID := hdist.1
      rw [hn] at hwalk ⊢
      exact (hprepared.walk_succ_iff hclass hr).mp hwalk
    refine ⟨r, hid, hmotif, fun k hk => ?_, hmotif.class_ne⟩
    obtain ⟨⟨k, rfl⟩, -⟩ := hk.loaded
    exact hdist.2 _ ((hprepared.walk_succ_iff hclass hr).mpr hk)
  · obtain ⟨pre, post, hsplit⟩ := List.append_of_mem hm
    obtain ⟨htrail, hlen, -⟩ := hfinal.trail hlaw
      (fun m => m.path.map fun s => s.toImpactStep) rfl
      (fun m step => by
        show (m.path ++ [authorizationStep table step]).map _ = _
        rw [List.map_append, List.map_singleton, toImpactStep_authorizationStep])
      pre m post hsplit
    rw [hkey, ← hrootID] at htrail
    rw [List.length_map] at hlen
    exact ⟨hlen, hprepared.crosses_of_trail htrail⟩
  · show (s.depthLimited || s.resultLimited) = true ↔ _
    rw [Bool.or_eq_true, hfinal.truncated_iff hlaw, hkey]
    constructor
    · rintro ⟨v, hreach, hmiss⟩
      obtain ⟨n, w⟩ := reflTransGen_iff_exists_walk.mp hreach
      cases n with
      | zero => exact absurd (hkey.trans (Walk.zero_iff.mp w)) (hmiss _ List.mem_cons_self)
      | succ n =>
        obtain ⟨r, hr, w⟩ := hprepared.walk_iff.mp w
        obtain ⟨-, hv⟩ := (hprepared.tabulates.lookup _ _).mp hr
        refine ⟨n + 1, r, (walk_iff_motif hclass).mp w, fun m hm hid => ?_⟩
        refine hmiss m (List.mem_cons_of_mem _ hm) ?_
        show m.resource.id = v
        rw [hid, impactIdentity_id, hv]
    · rintro ⟨n, r, hmotif, hmiss⟩
      obtain ⟨⟨n, rfl⟩, hr⟩ := hmotif.loaded
      refine ⟨r.ID, ((hprepared.walk_succ_iff hclass hr).mpr hmotif).reflTransGen, fun m hm => ?_⟩
      -- equal identifiers mean equal resources, and the root is no end of a pattern
      have hinj : ∀ r' ∈ selected o.clusterID g.resources, r'.ID = r.ID → r' = r :=
        fun r' hr' hid => List.inj_on_of_nodup_map hprepared.tabulates.nodup hr' hr hid
      cases List.mem_cons.mp hm with
      | inl hm =>
        subst hm
        intro hid
        have hroot : root = r := hinj root hrootmem (hrootID.trans (hkey.symm.trans hid))
        exact hmotif.class_ne (hroot ▸ hclass)
      | inr hm =>
        intro hid
        obtain ⟨r', hr', hid'⟩ := hprepared.match_resource hfinal hm
        have hsame : r' = r := by
          refine hinj r' hr' ?_
          rw [← impactIdentity_id, ← hid']
          exact hid
        exact hmiss m hm (hsame ▸ hid')

/-- The facet follows the motif of its root, in whatever order it
ranges over the edges. A root of no class has no facet. -/
theorem analyzeImpactAuthorization_motif (range : RangeOrder EdgeKey) (g : Graph)
    (rootID : String) (opts o : ImpactOptions) (table : ResourceTable) (root : Resource)
    (hprepared : Prepared g rootID opts o table root) (result : ImpactAuthorizationResult)
    (hrun : analyzeImpactAuthorization range g.edges table root o = .ok result) :
    (impactAuthorizationClass root = none →
      result.applicable = false ∧ result.resources = []) ∧
    ∀ cls, impactAuthorizationClass root = some cls →
      MotifSpec g o.clusterID root cls result := by
  refine ⟨fun hnone => ?_, fun cls hclass => motifSpec_of_run hprepared hclass hrun⟩
  unfold analyzeImpactAuthorization at hrun
  rw [hnone] at hrun
  cases hrun
  exact ⟨rfl, rfl⟩

/-- A role that is bound to an account which one Pod uses. A second
binding refers to the role and to another one, so neither of its
references counts. -/
def motifGraph : Graph where
  resources :=
    [{ kind := "Role", name := "reader", ns := "d" },
     { kind := "RoleBinding", name := "first", ns := "d" },
     { kind := "RoleBinding", name := "second", ns := "d" },
     { kind := "ServiceAccount", name := "bot", ns := "d" },
     { kind := "Pod", name := "web", ns := "d" }]
  edges :=
    [⟨"d/RoleBinding/first", "d/Role/reader", .bindsRole, []⟩,
     ⟨"d/RoleBinding/second", "d/Role/reader", .bindsRole, []⟩,
     ⟨"d/RoleBinding/second", "d/Role/writer", .bindsRole, []⟩,
     ⟨"d/RoleBinding/first", "d/ServiceAccount/bot", .bindsSubject, []⟩,
     ⟨"d/Pod/web", "d/ServiceAccount/bot", .usesServiceAccount, []⟩]

/-- From the role the facet lists the first binding, the account and
the Pod. -/
theorem analyzeImpactAuthorization_motif_bound :
    ∃ o table root result, Prepared motifGraph "d/Role/reader" {} o table root ∧
      analyzeImpactAuthorization (.inserted _) motifGraph.edges table root o = .ok result ∧
      result.resources.map (fun m => (m.resource.id, m.depth))
        = [("d/RoleBinding/first", 1), ("d/ServiceAccount/bot", 2), ("d/Pod/web", 3)] ∧
      MotifSpec motifGraph o.clusterID root .role result := by
  have hrun : (do
      let o ← (normalizeImpactOptions "d/Role/reader" {}).toOption
      let table ← (loadResources o.clusterID motifGraph.resources (fun _ => none)).toOption
      let root ← (checkRoot table "d/Role/reader" o).toOption
      let result ← (analyzeImpactAuthorization (.inserted _) motifGraph.edges table root o).toOption
      pure (impactAuthorizationClass root,
        result.resources.map fun m => (m.resource.id, m.depth)))
      = some (some .role,
        [("d/RoleBinding/first", 1), ("d/ServiceAccount/bot", 2), ("d/Pod/web", 3)]) := by
    decide +kernel
  obtain ⟨o, ho, hrun⟩ := exists_ok_of_bind hrun
  obtain ⟨table, htable, hrun⟩ := exists_ok_of_bind hrun
  obtain ⟨root, hroot, hrun⟩ := exists_ok_of_bind hrun
  obtain ⟨result, hresult, hrun⟩ := exists_ok_of_bind hrun
  obtain ⟨hclass, hlist⟩ := Prod.mk.inj (Option.some.inj hrun)
  have hprepared : Prepared motifGraph "d/Role/reader" {} o table root := ⟨ho, htable, hroot⟩
  obtain ⟨-, hspec⟩ := analyzeImpactAuthorization_motif (.inserted _) motifGraph
    "d/Role/reader" {} o table root hprepared result hresult
  exact ⟨o, table, root, result, hprepared, hresult, hlist, hspec .role hclass⟩

end KubeAtlas.Proofs.Impact
