import KubeAtlas.Proofs.Impact.AuthorizationIndex
import KubeAtlas.Proofs.Impact.Index

/-!
# `KubeAtlas.Proofs.Impact.Presentation`: the result does not depend on presentation

Nothing in an impact result may depend on the order in which a
projection lists its resources and edges, on repeated edges, on the
order of owner references, on other clusters, or on the order in
which Go ranges over a map. `Presents` lists these changes one by
one, and `analyzeImpact_presentation` shows that a chain of them
yields the same error or the same result.

The argument has two halves. Loading gives tables that agree up to
the order of owner references (`TableEquiv`), which is all that the
rest of the analysis reads of them. After that, both facets are
functions of the *set* of edge keys that touch a loaded resource
(`analyzeFrom_congr`): the indexes hold the same entries, so the
heaps pop in the same order and the two searches are one and the
same.
-/

set_option autoImplicit false

namespace KubeAtlas.Proofs.Impact

open KubeAtlas.Graph Lib Analysis

/-! ### Owner references in any order -/

/-- The same resource, up to the order of its owner references. -/
def SameUpToOwners (r r' : Resource) : Prop :=
  ∃ owners, r.ownerReferences.Perm owners ∧ r' = { r with ownerReferences := owners }

theorem SameUpToOwners.refl (r : Resource) : SameUpToOwners r r :=
  ⟨r.ownerReferences, .refl _, rfl⟩

instance : Std.Refl SameUpToOwners := ⟨.refl⟩

variable {r r' : Resource}

/-- Sanitizing keeps two resources the same up to owner references:
a Secret loses them, any other resource keeps them. -/
theorem SameUpToOwners.sanitize (h : SameUpToOwners r r') :
    SameUpToOwners (sanitizeResource r) (sanitizeResource r') := by
  obtain ⟨owners, hperm, rfl⟩ := h
  by_cases hk : r.kind = "Secret"
  · rw [sanitizeResource_of_secret r hk,
      sanitizeResource_of_secret { r with ownerReferences := owners } hk]
    exact .refl _
  · rw [sanitizeResource_of_ne r hk,
      sanitizeResource_of_ne { r with ownerReferences := owners } hk]
    exact ⟨owners, hperm, rfl⟩

theorem SameUpToOwners.identity_eq (h : SameUpToOwners r r') :
    impactIdentity r = impactIdentity r' := by
  obtain ⟨owners, -, hs⟩ := h.sanitize
  unfold impactIdentity
  rw [hs]
  rfl

theorem SameUpToOwners.class_eq (h : SameUpToOwners r r') :
    impactAuthorizationClass r = impactAuthorizationClass r' := by
  obtain ⟨owners, -, rfl⟩ := h
  rfl

/-- The loop over the owner references asks two questions: is there
a reference to this very instance, and is there one to another
known instance. -/
theorem ownerUIDStatusFrom_eq (owner : Resource) (known : Bool) (refs : List OwnerRef) :
    ownerUIDStatusFrom owner known refs =
      if refs.any (fun ref => ref.kind = owner.kind && ref.name = owner.name &&
          ref.uid = owner.uid) then .matched
      else if known || refs.any (fun ref => ref.kind = owner.kind && ref.name = owner.name &&
          ref.uid ≠ "") then .mismatch
      else .unknown := by
  induction refs generalizing known with
  | nil => cases known <;> rfl
  | cons ref refs ih =>
    rw [ownerUIDStatusFrom, List.any_cons, List.any_cons]
    by_cases hname : ref.kind = owner.kind ∧ ref.name = owner.name
    · obtain ⟨hk, hn⟩ := hname
      by_cases huid : ref.uid = owner.uid
      · simp [hk, hn, huid]
      · rw [if_neg (by simp [hk, hn]), if_neg huid, ih]
        simp only [hk, hn, huid, decide_true, decide_false, Bool.and_true, Bool.true_and,
          Bool.false_or, Bool.or_assoc]
    · have hskip : (decide (ref.kind ≠ owner.kind) || decide (ref.name ≠ owner.name)) = true := by
        rw [not_and_or] at hname
        simpa using hname
      have hno : (decide (ref.kind = owner.kind) && decide (ref.name = owner.name)) = false := by
        rw [Bool.and_eq_false_iff, decide_eq_false_iff_not, decide_eq_false_iff_not]
        exact not_and_or.mp hname
      rw [if_pos hskip, ih]
      simp only [hno, Bool.false_and, Bool.false_or]

/-- The owner status does not read the order of the references. -/
theorem impactOwnerUIDStatus_congr {child child' owner owner' : Resource}
    (hc : SameUpToOwners child child') (ho : SameUpToOwners owner owner') :
    impactOwnerUIDStatus child owner = impactOwnerUIDStatus child' owner' := by
  obtain ⟨refs, hperm, rfl⟩ := hc
  obtain ⟨owners, -, rfl⟩ := ho
  show (if owner.uid = "" then OwnerUIDStatus.unknown
      else ownerUIDStatusFrom owner false child.ownerReferences)
    = if owner.uid = "" then OwnerUIDStatus.unknown
      else ownerUIDStatusFrom { owner with ownerReferences := owners } false refs
  rw [ownerUIDStatusFrom_eq, ownerUIDStatusFrom_eq, hperm.any_eq, hperm.any_eq]

/-! ### Tables that agree up to owner references -/

/-- The same identifiers are loaded, with the same resources up to
the order of owner references. -/
def TableEquiv (t t' : ResourceTable) : Prop :=
  ∀ id, Option.Rel SameUpToOwners (t id) (t' id)

namespace TableEquiv

variable {t t' : ResourceTable}

section

variable (h : TableEquiv t t') (id : String)
include h

theorem isSome_eq : (t id).isSome = (t' id).isSome := by
  have hrel := h id
  generalize t id = a at hrel ⊢
  generalize t' id = b at hrel ⊢
  cases hrel with
  | some | none => rfl

theorem isNone_eq : (t id).isNone = (t' id).isNone := by
  rw [← Option.not_isSome, ← Option.not_isSome, h.isSome_eq]

theorem get : SameUpToOwners (t.get id) (t'.get id) := by
  have hrel := h id
  show SameUpToOwners ((t id).getD {}) ((t' id).getD {})
  generalize t id = a at hrel ⊢
  generalize t' id = b at hrel ⊢
  cases hrel with
  | some hr => exact hr
  | none => exact .refl _

end

theorem explain_eq (h : TableEquiv t t') (reader : ImpactReferenceReader)
    (source target : String) (step : ImpactStep) :
    reader.explain (t.get source) (t.get target) step
      = reader.explain (t'.get source) (t'.get target) step := by
  obtain ⟨_, -, hs⟩ := h.get source
  obtain ⟨_, -, ht⟩ := h.get target
  rw [hs, ht]
  rfl

end TableEquiv

/-! ### The ordinary facet -/

variable {t t' : ResourceTable}

theorem edgeEntries_congr (h : TableEquiv t t') (opts : ImpactOptions) (edge : EdgeKey) :
    edgeEntries t opts edge = edgeEntries t' opts edge := by
  simp only [edgeEntries, h.isNone_eq,
    impactOwnerUIDStatus_congr (h.get edge.fromID) (h.get edge.toID)]

/-- The two ends of a walk and the type determine the edge. -/
theorem edge_ext_of_ends {relation : ImpactRelation} {edge edge' : EdgeKey}
    (hends : traversalEnds relation edge = traversalEnds relation edge')
    (htype : edge.type = edge'.type) : edge = edge' := by
  obtain ⟨f, t, ty⟩ := edge
  subst htype
  by_cases hd : relation = .dependents
  · simp only [traversalEnds, hd, if_true, Prod.mk.injEq] at hends
    rw [hends.1, hends.2]
  · simp only [traversalEnds, hd, if_false, Prod.mk.injEq] at hends
    rw [hends.1, hends.2]

variable {opts : ImpactOptions}

/-- No resource has two steps to one neighbour by one edge type. -/
theorem entriesOf_injective {t : ResourceTable} {keys : List EdgeKey} (v : String)
    (s s' : ImpactStep) (hs : (v, .arc s) ∈ entriesOf t opts keys)
    (hs' : (v, .arc s') ∈ entriesOf t opts keys) (hto : s.traversalTo = s'.traversalTo)
    (htype : s.type = s'.type) : s = s' := by
  have hstep : ∀ s, (v, IndexEntry.arc s) ∈ entriesOf t opts keys →
      ∃ edge, (traversalEnds opts.relation edge).1 = v ∧ s = stepAlong t opts edge := by
    intro s hs
    obtain ⟨edge, -, hs⟩ := List.mem_flatMap.mp hs
    obtain ⟨entry, hentry, heq⟩ := List.mem_map.mp hs
    rw [Prod.mk.injEq] at heq
    obtain ⟨hv, rfl⟩ := heq
    exact ⟨edge, hv, (mem_edgeEntries_arc.mp hentry).2⟩
  obtain ⟨edge, hv, rfl⟩ := hstep s hs
  obtain ⟨edge', hv', rfl⟩ := hstep s' hs'
  have hends : traversalEnds opts.relation edge = traversalEnds opts.relation edge' :=
    Prod.ext (hv.trans hv'.symm) hto
  rw [edge_ext_of_ends hends htype]

/-- The edge keys that touch a loaded resource are the same. -/
def SameTouching (t : ResourceTable) (edges edges' : List Edge) : Prop :=
  ∀ edge : EdgeKey, (t edge.fromID).isSome ∨ (t edge.toID).isSome →
    (edge ∈ edges.map Edge.key ↔ edge ∈ edges'.map Edge.key)

variable {edges edges' : List Edge}

/-- Both scans read the same arcs and the same notices. -/
theorem scanEdges_congr (h : TableEquiv t t') (hedges : SameTouching t edges edges')
    (opts : ImpactOptions) :
    (scanEdges t opts edges).index.arcs = (scanEdges t' opts edges').index.arcs ∧
      (scanEdges t opts edges).index.notices = (scanEdges t' opts edges').index.notices := by
  have hscan := scanEdges_spec t opts edges
  have hscan' := scanEdges_spec t' opts edges'
  -- The start of a walk is one of the edge's two ends.
  have htouch : ∀ edge : EdgeKey, (t (traversalEnds opts.relation edge).1).isSome →
      (t edge.fromID).isSome ∨ (t edge.toID).isSome := by
    intro edge hstart
    by_cases hd : opts.relation = .dependents
    · rw [traversalEnds, if_pos hd] at hstart
      exact Or.inr hstart
    · rw [traversalEnds, if_neg hd] at hstart
      exact Or.inl hstart
  have hseen : (scanEdges t opts edges).seenEdges.Perm (scanEdges t' opts edges').seenEdges := by
    refine (List.perm_ext_iff_of_nodup hscan.nodup hscan'.nodup).mpr fun edge => ?_
    rw [hscan.mem_seen, hscan'.mem_seen, ← h.isSome_eq]
    exact and_congr_left fun hstart => hedges edge (htouch edge hstart)
  have hsame : entriesOf t' opts = entriesOf t opts := by
    unfold entriesOf
    simp only [edgeEntries_congr h]
  have hholds' := hscan'.holds
  rw [hsame] at hholds'
  exact hscan.holds.congr hholds' (hseen.flatMap_right _) entriesOf_injective

theorem impactSearch_congr (h : TableEquiv t t') (arcs : ByID (List ImpactStep))
    (notices : ByID NoticeTally) (opts : ImpactOptions) :
    impactSearch t arcs notices opts = impactSearch t' arcs notices opts := by
  have hexplain : explainStep t = explainStep t' := by
    funext step work
    unfold explainStep
    rw [h.explain_eq]
  unfold impactSearch
  simp only [(h.get _).identity_eq, hexplain]

/-! ### The authorization facet -/

variable {refs refs' : AuthorizationRefs}

section

variable (h : TableEquiv t t') (hrole : refs.roleRefs = refs'.roleRefs)
  (hacc : refs.accountRefs = refs'.accountRefs)
include h hrole hacc

theorem authorizationEntries_congr (rootClass : AuthorizationClass)
    (cluster : String) (edge : EdgeKey) :
    authorizationEntriesOf rootClass t cluster refs edge
      = authorizationEntriesOf rootClass t' cluster refs' edge := by
  have hvalid : validAuthorizationEdge edge.type (t.get edge.fromID) (t.get edge.toID)
      = validAuthorizationEdge edge.type (t'.get edge.fromID) (t'.get edge.toID) := by
    obtain ⟨_, -, hf⟩ := h.get edge.fromID
    obtain ⟨_, -, ht⟩ := h.get edge.toID
    rw [hf, ht]
    rfl
  have hreason : impactAuthorizationEdgeReason edge t cluster refs
      = impactAuthorizationEdgeReason edge t' cluster refs' := by
    unfold impactAuthorizationEdgeReason
    rw [hrole, hacc, h.isNone_eq, h.isNone_eq, hvalid]
  unfold authorizationEntriesOf authorizationEntries
  simp only [(h.get _).class_eq, hreason]

theorem enterAuthorization_congr (notices : ByID NoticeTally) :
    enterAuthorization t refs notices = enterAuthorization t' refs' notices := by
  funext current work
  simp only [enterAuthorization, (h.get _).class_eq, hrole, hacc]

theorem authorizationSearch_congr (arcs : ByID (List ImpactStep))
    (notices : ByID NoticeTally) (opts : ImpactOptions) :
    authorizationSearch t refs arcs notices opts
      = authorizationSearch t' refs' arcs notices opts := by
  have hstep : authorizationStep t = authorizationStep t' := by
    funext step
    obtain ⟨_, -, hb⟩ := h.get step.fromID
    unfold authorizationStep
    rw [hb]
  unfold authorizationSearch
  rw [enterAuthorization_congr h hrole hacc]
  simp only [(h.get _).identity_eq, hstep]

end

section

variable {root root' : Resource} (range range' : RangeOrder EdgeKey) (h : TableEquiv t t')
  (hedges : SameTouching t edges edges') (hroot : SameUpToOwners root root') (opts : ImpactOptions)
include h hedges hroot

/-- The facet is a function of the edge keys that touch a loaded
resource, whatever orders the two runs range in. -/
theorem analyzeImpactAuthorization_congr :
    analyzeImpactAuthorization range edges t root opts
      = analyzeImpactAuthorization range' edges' t' root' opts := by
  have hc := collectAuthorizationEdges_spec t edges
  have hc' := collectAuthorizationEdges_spec t' edges'
  have hunique : (collectAuthorizationEdges t edges).unique.Perm
      (collectAuthorizationEdges t' edges').unique := by
    refine (List.perm_ext_iff_of_nodup hc.nodup hc'.nodup).mpr fun edge => ?_
    rw [hc.mem_unique, hc'.mem_unique]
    unfold RelevantEdge
    rw [← h.isSome_eq, ← h.isSome_eq]
    exact and_congr_left fun hrel => hedges edge hrel.2
  have hrole : (collectAuthorizationEdges t edges).roleRefs
      = (collectAuthorizationEdges t' edges').roleRefs := by
    funext id
    rw [hc.roleRefs, hc'.roleRefs]
    exact hunique.countP_eq _
  have hacc : (collectAuthorizationEdges t edges).accountRefs
      = (collectAuthorizationEdges t' edges').accountRefs := by
    funext id
    rw [hc.accountRefs, hc'.accountRefs]
    exact hunique.countP_eq _
  unfold analyzeImpactAuthorization
  rw [← hroot.class_eq]
  cases impactAuthorizationClass root with
  | none => rfl
  | some rootClass =>
    have hentries : authorizationEntriesOf rootClass t' opts.clusterID
          (collectAuthorizationEdges t' edges')
        = authorizationEntriesOf rootClass t opts.clusterID
          (collectAuthorizationEdges t edges) :=
      funext fun edge => (authorizationEntries_congr h hrole hacc rootClass _ edge).symm
    have hholds := indexAuthorizationEdges_holds rootClass t opts.clusterID
      (collectAuthorizationEdges t edges) range
    have hholds' := indexAuthorizationEdges_holds rootClass t' opts.clusterID
      (collectAuthorizationEdges t' edges') range'
    rw [hentries] at hholds'
    obtain ⟨harcs, hnotices⟩ := hholds.congr hholds' (hunique.flatMap_right _)
      authorizationEntries_injective
    simp only [harcs, hnotices, authorizationSearch_congr h hrole hacc, hroot.identity_eq]

/-! ### The whole analysis -/

/-- After loading, the analysis is a function of the edge keys that
touch a loaded resource. -/
theorem analyzeFrom_congr :
    analyzeFrom range edges t root opts = analyzeFrom range' edges' t' root' opts := by
  obtain ⟨harcs, hnotices⟩ := scanEdges_congr h hedges opts
  unfold analyzeFrom impactResult
  simp only [harcs, hnotices, impactSearch_congr h, hroot.identity_eq,
    analyzeImpactAuthorization_congr range range' h hedges hroot]

end

/-! ### Loading -/

/-- Two results agree: both are one error, or both are results that
are related. -/
inductive SameResult {α : Type} (R : α → α → Prop) :
    Except ImpactError α → Except ImpactError α → Prop
  | ok {a b : α} (h : R a b) : SameResult R (.ok a) (.ok b)
  | error (e : ImpactError) : SameResult R (.error e) (.error e)

variable {l l' : List Resource}

/-- Resources that are the same one by one, up to owner references,
look the same to any reading that skips the owner references. -/
theorem map_eq_of_sameUpToOwners {β : Type} (h : List.Forall₂ SameUpToOwners l l')
    (f : Resource → β) (hf : ∀ r r', SameUpToOwners r r' → f r = f r') : l.map f = l'.map f := by
  induction h with
  | nil => rfl
  | cons hr _ ih => rw [List.map_cons, List.map_cons, hf _ _ hr, ih]

theorem exists_of_sameUpToOwners (h : List.Forall₂ SameUpToOwners l l') {r : Resource}
    (hr : r ∈ l) : ∃ r' ∈ l', SameUpToOwners r r' := by
  induction h with
  | nil => exact absurd hr List.not_mem_nil
  | @cons a b l l' hab _ ih =>
    cases List.mem_cons.mp hr with
    | inl heq => exact ⟨b, List.mem_cons_self, heq ▸ hab⟩
    | inr hmem =>
      obtain ⟨r', hr', hsame⟩ := ih hmem
      exact ⟨r', List.mem_cons_of_mem _ hr', hsame⟩

/-- Two projections that select the same resources, up to order and
up to the order of owner references. -/
def SelectSame (cluster : String) (l l' : List Resource) : Prop :=
  ∃ mid, (selected cluster l).Perm mid ∧
    List.Forall₂ SameUpToOwners mid (selected cluster l')

/-- They load alike. -/
theorem loadResources_congr {cluster : String} (h : SelectSame cluster l l') :
    SameResult TableEquiv (loadResources cluster l fun _ => none)
      (loadResources cluster l' fun _ => none) := by
  obtain ⟨mid, hperm, hown⟩ := h
  have hIDs : ((selected cluster l).map Resource.ID).Perm
      ((selected cluster l').map Resource.ID) := by
    rw [← map_eq_of_sameUpToOwners hown Resource.ID (by rintro r _ ⟨_, -, rfl⟩; rfl)]
    exact hperm.map _
  have hvalid : (∀ r ∈ selected cluster l, validResource r = true) ↔
      ∀ r ∈ selected cluster l', validResource r = true := by
    have hmap := map_eq_of_sameUpToOwners hown validResource
      (by rintro r _ ⟨_, -, rfl⟩; rfl)
    have hall : ∀ l : List Resource, (∀ r ∈ l, validResource r = true) ↔
        ∀ b ∈ l.map validResource, b = true := by
      intro l
      simp only [List.forall_mem_map]
    rw [hall, hall, ← hmap]
    exact forall_congr' fun b => by rw [(hperm.map validResource).mem_iff]
  cases loadResources_spec cluster l .empty with
  | inr herr =>
    cases loadResources_spec cluster l' .empty with
    | inr herr' =>
      rw [herr.1, herr'.1]
      exact .error _
    | inl hok' =>
      obtain ⟨t', -, htab', hv'⟩ := hok'
      exact absurd ⟨hvalid.mpr hv', hIDs.nodup_iff.mpr htab'.nodup⟩ herr.2
  | inl hok =>
    obtain ⟨t, hrun, htab, hv⟩ := hok
    cases loadResources_spec cluster l' .empty with
    | inr herr' => exact absurd ⟨hvalid.mp hv, hIDs.nodup_iff.mp htab.nodup⟩ herr'.2
    | inl hok' =>
      obtain ⟨t', hrun', htab', -⟩ := hok'
      rw [List.nil_append] at htab htab'
      rw [hrun, hrun']
      refine .ok fun id => ?_
      cases hr : t id with
      | some r =>
        obtain ⟨hmem, hid⟩ := (htab.lookup id r).mp hr
        obtain ⟨r', hmem', hsame⟩ := exists_of_sameUpToOwners hown (hperm.mem_iff.mp hmem)
        have hid' : r'.ID = id := by
          obtain ⟨_, -, rfl⟩ := hsame
          exact hid
        rw [(htab'.lookup id r').mpr ⟨hmem', hid'⟩]
        exact .some hsame
      | none =>
        have hnone : t' id = none := by
          rw [← Option.not_isSome_iff_eq_none, htab'.isSome_iff, ← hIDs.mem_iff,
            ← htab.isSome_iff, hr]
          simp
        rw [hnone]
        exact .none

/-- The checks on the root agree as well. -/
theorem checkRoot_congr (h : TableEquiv t t') (rootID : String) (opts : ImpactOptions) :
    SameResult SameUpToOwners (checkRoot t rootID opts) (checkRoot t' rootID opts) := by
  unfold checkRoot
  have hrel := h rootID
  generalize t rootID = a at hrel ⊢
  generalize t' rootID = b at hrel ⊢
  cases hrel with
  | none => exact .error _
  | @some root root' hsame =>
    have huid : root.uid = root'.uid := by
      obtain ⟨_, -, rfl⟩ := hsame
      rfl
    simp only [← huid]
    split_ifs
    · exact .error _
    · exact .error _
    · exact .ok hsame
    · exact .ok hsame

/-- The analysis reads a projection through the selected resources
and the edge keys that touch them, and nothing else. -/
theorem analyzeImpact_congr {g g' : Graph} {rootID : String} (range range' : RangeOrder EdgeKey)
    (hsel : SelectSame opts.clusterID g.resources g'.resources)
    (hedges : ∀ t, Tabulates t (selected opts.clusterID g.resources) → SameTouching t g.edges
      g'.edges) :
    analyzeImpact range (some g) rootID opts = analyzeImpact range' (some g') rootID opts := by
  unfold analyzeImpact normalizeImpactOptions
  by_cases hvalid : opts.withDefaults.valid rootID = true
  · simp only [hvalid, if_true]
    -- The defaults keep the cluster.
    have hload : SameResult TableEquiv
        (loadResources opts.withDefaults.clusterID g.resources fun _ => none)
        (loadResources opts.withDefaults.clusterID g'.resources fun _ => none) :=
      loadResources_congr hsel
    generalize ht : loadResources opts.withDefaults.clusterID g.resources (fun _ => none) = a
      at hload
    generalize loadResources opts.withDefaults.clusterID g'.resources (fun _ => none) = b at hload
    cases hload with
    | error e => rfl
    | @ok t t' htable =>
      have hroot := checkRoot_congr htable rootID opts.withDefaults
      dsimp only
      generalize checkRoot t rootID opts.withDefaults = a at hroot
      generalize checkRoot t' rootID opts.withDefaults = b at hroot
      cases hroot with
      | error e => rfl
      | ok hsame =>
        exact analyzeFrom_congr range range' htable (hedges t (loadResources_ok ht)) hsame _
  · simp only [hvalid]
    rfl

/-! ### Changes of presentation -/

/-- The identifier of a resource of another cluster. -/
def IsForeignID (cluster : String) (resources : List Resource) (id : String) : Prop :=
  ∃ r ∈ resources, r.clusterID ≠ cluster ∧ r.ID = id

/-- One change of presentation, for an analysis of `cluster`.
Foreign resources can be added as long as no foreign resource has
the identifier of a selected one. -/
inductive Presents (cluster : String) : Graph → Graph → Prop
  | permResources {g : Graph} {resources : List Resource}
      (h : g.resources.Perm resources) : Presents cluster g { g with resources := resources }
  | permEdges {g : Graph} {edges : List Edge} (h : g.edges.Perm edges) :
      Presents cluster g { g with edges := edges }
  | duplicateEdge {g : Graph} {e : Edge} (h : e ∈ g.edges) (attributes : StringMap) :
      Presents cluster g { g with edges := g.edges ++ [{ e with attributes := attributes }] }
  | permOwners {g : Graph} {before after : List Resource} {r : Resource}
      {owners : List OwnerRef} (hg : g.resources = before ++ r :: after)
      (h : r.ownerReferences.Perm owners) :
      Presents cluster g
        { g with resources := before ++ { r with ownerReferences := owners } :: after }
  | addForeign {g : Graph} {resources : List Resource} {edges : List Edge}
      (hforeign : ∀ r ∈ resources, r.clusterID ≠ cluster)
      (hbetween : ∀ e ∈ edges, IsForeignID cluster (g.resources ++ resources) e.fromID ∧
        IsForeignID cluster (g.resources ++ resources) e.toID)
      (hdistinct : ∀ r ∈ g.resources, r.clusterID = cluster →
        ¬ IsForeignID cluster (g.resources ++ resources) r.ID) :
      Presents cluster g ⟨g.resources ++ resources, g.edges ++ edges⟩

theorem SelectSame.of_perm {cluster : String}
    (h : (selected cluster l).Perm (selected cluster l')) : SelectSame cluster l l' :=
  ⟨_, h, List.forall₂_refl _⟩

/-- Selecting commutes with permuting the owner references of one
resource. -/
theorem selectSame_permOwners (cluster : String) (before after : List Resource)
    {r : Resource} {owners : List OwnerRef} (h : r.ownerReferences.Perm owners) :
    SelectSame cluster (before ++ r :: after)
      (before ++ { r with ownerReferences := owners } :: after) := by
  refine ⟨_, .refl _, ?_⟩
  have hsame : SameUpToOwners r { r with ownerReferences := owners } := ⟨owners, h, rfl⟩
  have happend : ∀ l l' : List Resource,
      selected cluster (l ++ l') = selected cluster l ++ selected cluster l' := by
    intro l l'
    simp [selected]
  rw [happend, happend]
  refine List.rel_append (List.forall₂_refl _) ?_
  by_cases hc : r.clusterID = cluster
  · rw [selected_cons_of_eq after hc,
      selected_cons_of_eq (r := { r with ownerReferences := owners }) after hc]
    exact .cons hsame.sanitize (List.forall₂_refl _)
  · rw [selected_cons_of_ne after hc,
      selected_cons_of_ne (r := { r with ownerReferences := owners }) after hc]
    exact List.forall₂_refl _

/-- One change of presentation keeps the outcome. -/
theorem analyzeImpact_presents {g g' : Graph} (range range' : RangeOrder EdgeKey) (rootID : String)
    (h : Presents opts.clusterID g g') :
    analyzeImpact range (some g) rootID opts = analyzeImpact range' (some g') rootID opts := by
  cases h with
  | permResources h =>
    refine analyzeImpact_congr range range' (.of_perm ?_) fun t _ _ _ => Iff.rfl
    exact (h.filter _).map _
  | permEdges h =>
    exact analyzeImpact_congr range range' (.of_perm (.refl _))
      fun t _ edge _ => (h.map Edge.key).mem_iff
  | @duplicateEdge e h attributes =>
    refine analyzeImpact_congr range range' (.of_perm (.refl _)) fun t _ edge _ => ?_
    have hkey : Edge.key { e with attributes := attributes } = e.key := rfl
    rw [List.map_append, List.mem_append, List.map_singleton, List.mem_singleton, hkey]
    refine ⟨Or.inl, fun hmem => ?_⟩
    cases hmem with
    | inl hmem => exact hmem
    | inr heq => exact heq ▸ List.mem_map_of_mem h
  | permOwners hg h =>
    refine analyzeImpact_congr range range' ?_ fun t _ _ _ => Iff.rfl
    rw [hg]
    exact selectSame_permOwners _ _ _ h
  | @addForeign resources edges hforeign hbetween hdistinct =>
    have hsel : selected opts.clusterID (g.resources ++ resources)
        = selected opts.clusterID g.resources := by
      have hnone : resources.filter (fun r => decide (r.clusterID = opts.clusterID)) = [] := by
        rw [List.filter_eq_nil_iff]
        intro r hr
        simpa using hforeign r hr
      simp [selected, hnone]
    refine analyzeImpact_congr range range' (.of_perm (by rw [hsel])) fun t htab edge ht => ?_
    rw [List.map_append, List.mem_append]
    refine ⟨Or.inl, fun hmem => ?_⟩
    cases hmem with
    | inl hmem => exact hmem
    | inr hmem =>
      -- A foreign edge touches no loaded resource.
      obtain ⟨e, he, rfl⟩ := List.mem_map.mp hmem
      obtain ⟨hfrom, hto⟩ := hbetween e he
      have hloaded : ∀ id, (t id).isSome →
          ¬ IsForeignID opts.clusterID (g.resources ++ resources) id := by
        intro id hid
        obtain ⟨s, hs, rfl⟩ := List.mem_map.mp (htab.isSome_iff.mp hid)
        obtain ⟨r, hr, rfl⟩ := List.mem_map.mp hs
        rw [List.mem_filter] at hr
        rw [sanitizeResource_ID]
        exact hdistinct r hr.1 (by simpa using hr.2)
      cases ht with
      | inl ht => exact absurd hfrom (hloaded _ ht)
      | inr ht => exact absurd hto (hloaded _ ht)

/-- Any chain of changes of presentation, and any two range orders,
keep the outcome: results, errors and notices. The induction is on
the chain. -/
theorem analyzeImpact_presentation (range range' : RangeOrder EdgeKey) (g g' : Graph)
    (rootID : String) (opts : ImpactOptions)
    (h : Relation.ReflTransGen (Presents opts.clusterID) g g') :
    analyzeImpact range (some g) rootID opts = analyzeImpact range' (some g') rootID opts := by
  induction h with
  | refl =>
    exact analyzeImpact_congr range range' (.of_perm (.refl _)) fun t _ _ _ => Iff.rfl
  | tail _ hstep ih => exact ih.trans (analyzeImpact_presents range' range' rootID hstep)

/-- A binding with its role and its account. -/
def boundGraph : Graph where
  resources :=
    [{ kind := "RoleBinding", name := "b", ns := "d" }, { kind := "Role", name := "r", ns := "d" },
     { kind := "ServiceAccount", name := "a", ns := "d" }]
  edges :=
    [⟨"d/RoleBinding/b", "d/Role/r", .bindsRole, []⟩,
     ⟨"d/RoleBinding/b", "d/ServiceAccount/a", .bindsSubject, []⟩]

/-- A Pod and a ConfigMap of a cluster, in a namespace. -/
def podIn (clusterID ns : String) : Resource :=
  { kind := "Pod", name := "p", ns := ns, clusterID := clusterID }

def configMapIn (clusterID ns : String) : Resource :=
  { kind := "ConfigMap", name := "x", ns := ns, clusterID := clusterID }

/-- A repeated edge with attributes, a foreign pair of resources
with an edge, and the reverse range order do not show. -/
theorem analyzeImpact_presentation_bound :
    analyzeImpact (.inserted _) (some boundGraph) "d/RoleBinding/b" {}
      = analyzeImpact ⟨List.reverse, List.reverse_perm⟩
        (some
          ⟨boundGraph.resources ++ [podIn "c" "d", configMapIn "c" "d"],
            (boundGraph.edges ++
              [⟨"d/RoleBinding/b", "d/Role/r", .bindsRole, [("k", "v")]⟩]) ++
              [⟨"c:d/Pod/p", "c:d/ConfigMap/x", .usesConfigMap, []⟩]⟩)
        "d/RoleBinding/b" {} := by
  have hdup : Presents "" boundGraph
      { boundGraph with
        edges := boundGraph.edges ++
          [⟨"d/RoleBinding/b", "d/Role/r", .bindsRole, [("k", "v")]⟩] } :=
    .duplicateEdge (e := ⟨"d/RoleBinding/b", "d/Role/r", .bindsRole, []⟩)
      List.mem_cons_self [("k", "v")]
  refine analyzeImpact_presentation _ _ _ _ _ _
    ((Relation.ReflTransGen.single hdup).tail (.addForeign (by decide) ?_ ?_))
  · intro e he
    rw [List.mem_singleton] at he
    subst he
    exact ⟨⟨podIn "c" "d", by simp, by decide, by decide⟩,
      ⟨configMapIn "c" "d", by simp, by decide, by decide⟩⟩
  · unfold IsForeignID
    decide

/-- Without the condition on identifiers the outcome can change. In
an analysis of the cluster `c`, a standalone resource in
the namespace `c:d` has the identifier of a resource of `c` in
the namespace `d`. An edge between two such resources is then walked
between the two selected ones. -/
theorem analyzeImpact_foreign_collision :
    (podIn "" "c:d").clusterID ≠ "c" ∧ (configMapIn "" "c:d").clusterID ≠ "c" ∧
      (∃ result, analyzeImpact (.inserted _)
          (some ⟨[podIn "c" "d", configMapIn "c" "d"], []⟩) (configMapIn "c" "d").ID
          { clusterID := "c" } = .ok result ∧ result.resources.length = 0) ∧
      (∃ result, analyzeImpact (.inserted _)
          (some ⟨[podIn "c" "d", configMapIn "c" "d"] ++ [podIn "" "c:d", configMapIn "" "c:d"],
            [] ++ [⟨(podIn "" "c:d").ID, (configMapIn "" "c:d").ID, .usesConfigMap, []⟩]⟩)
          (configMapIn "c" "d").ID { clusterID := "c" } = .ok result ∧
        result.resources.length = 1) := by
  have hrun : ∀ (outcome : Except ImpactError ImpactResult) (n : Nat),
      (outcome.toOption >>= fun result => some result.resources.length) = some n →
      ∃ result, outcome = .ok result ∧ result.resources.length = n := by
    intro outcome n h
    obtain ⟨result, hok, hlength⟩ := exists_ok_of_bind h
    exact ⟨result, hok, Option.some.inj hlength⟩
  exact ⟨by decide, by decide, hrun _ 0 (by decide +kernel), hrun _ 1 (by decide +kernel)⟩

end KubeAtlas.Proofs.Impact
