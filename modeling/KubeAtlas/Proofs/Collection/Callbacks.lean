import KubeAtlas.Discovery.Collectors
import KubeAtlas.Proofs.Graph.SecretReferences

/-!
# `KubeAtlas.Proofs.Collection.Callbacks`: what the parts of a callback ensure

One lemma for each part of `handleUpsert` and `handleDelete`, as a
rely-guarantee judgement whose parameters are left open: the steps
others make, the steps this callback may make, and the facts that
hold before and after. A development about the collectors chooses
them and only has to look at single updates of the shared state.
-/

set_option autoImplicit false

namespace KubeAtlas.Proofs.Collection

open Discovery KubeAtlas.Graph Lib
open Operations (CoverageReason GroupVersionResource)
open KubeAtlas.Proofs.Graph KubeAtlas.Store

@[simp] theorem call_bind_eq {α : Type} (c : Call) (f : Reply c → Handler α) :
    (call c >>= f) = .call c f := rfl

/-! ### Resources of objects -/

section ResourceOf

variable (m : InformerManager) (u : Unstructured) (kind : String)

@[simp] theorem resourceOf_kind : (m.resourceOf u kind).kind = kind :=
  sanitizeResource_kind _

@[simp] theorem resourceOf_ns : (m.resourceOf u kind).ns = u.ns :=
  sanitizeResource_ns _

@[simp] theorem resourceOf_name : (m.resourceOf u kind).name = u.name :=
  sanitizeResource_name _

@[simp] theorem resourceOf_clusterID : (m.resourceOf u kind).clusterID = m.clusterID := rfl

/-- The cluster is set after sanitizing, which changes nothing about
it. -/
theorem sanitizeResource_resourceOf :
    sanitizeResource (m.resourceOf u kind) = m.resourceOf u kind := by
  by_cases h : kind = "Secret"
  · rw [sanitizeResource_of_secret _ (by rw [resourceOf_kind, h])]
    unfold InformerManager.resourceOf unstructuredToResource
    rw [sanitizeResource_of_secret _ (by exact h)]
    rfl
  · exact sanitizeResource_of_ne _ (by rw [resourceOf_kind]; exact h)

/-- A Secret carries no version. -/
theorem versionOf_resourceOf_secret (h : kind = "Secret") :
    (versionOf (m.resourceOf u kind)).versioned = false := by
  unfold InformerManager.resourceOf unstructuredToResource
  rw [sanitizeResource_of_secret _ (by exact h)]
  rfl

/-- Any other object carries the version it was delivered with. -/
theorem versionOf_resourceOf (h : kind ≠ "Secret") :
    versionOf (m.resourceOf u kind) = ⟨u.uid, u.resourceVersion⟩ := by
  unfold InformerManager.resourceOf unstructuredToResource
  rw [sanitizeResource_of_ne _ (by exact h)]
  rfl

end ResourceOf

/-! ### Lookups after a store call -/

section Lookups

variable (w : World) (r : Resource) (id : String)

theorem lookup_upsertResource :
    (w.upsertResource r).store.resources.lookup id
      = if id = r.ID then some (sanitizeResource r) else w.store.resources.lookup id := by
  unfold World.upsertResource MemoryStore.upsertResource
  dsimp only
  rw [sanitizeResource_ID]
  by_cases h : id = r.ID
  · subst h
    rw [AList.lookup_insert, if_pos rfl]
  · rw [AList.lookup_insert_ne h, if_neg h]

theorem lookup_deleteResource (range : MapOrder) (id' : String) :
    (w.deleteResource range id').store.resources.lookup id
      = if id = id' then none else w.store.resources.lookup id := by
  show (w.store.resources.erase id').lookup id = _
  by_cases h : id = id'
  · subst h
    rw [AList.lookup_erase, if_pos rfl]
  · rw [AList.lookup_erase_ne h, if_neg h]

theorem lookup_upsertEdge (e : Edge) :
    (w.upsertEdge e).store.resources.lookup id
      = match secretReferenceFromEdge e with
        | some ref => if id = ref.ID then some ref else w.store.resources.lookup id
        | none => w.store.resources.lookup id := by
  unfold World.upsertEdge MemoryStore.upsertEdge
  cases secretReferenceFromEdge e with
  | none => rfl
  | some ref =>
    show (w.store.resources.insert ref.ID ref).lookup id = _
    by_cases h : id = ref.ID
    · subst h
      rw [AList.lookup_insert]
      exact (if_pos rfl).symm
    · rw [AList.lookup_insert_ne h]
      exact (if_neg h).symm

end Lookups

variable {K V : Type} [DecidableEq K] (map : GoMap K V) (k k' : K)

theorem lookup_insert_eq (v : V) :
    (map.insert k v).lookup k' = if k' = k then some v else map.lookup k' := by
  by_cases h : k' = k
  · subst h
    rw [AList.lookup_insert, if_pos rfl]
  · rw [AList.lookup_insert_ne h, if_neg h]

theorem lookup_erase_eq :
    (map.erase k).lookup k' = if k' = k then none else map.lookup k' := by
  by_cases h : k' = k
  · subst h
    rw [AList.lookup_erase, if_pos rfl]
  · rw [AList.lookup_erase_ne h, if_neg h]

/-! ### References are no other objects -/

/-- A reference to a Secret is not stored where an object of another
kind is. -/
theorem reference_ID_ne {e : Edge} {ref r : Resource} (href : secretReferenceFromEdge e = some ref)
    (hr : Addressable r) (hkind : r.kind ≠ "Secret") : ref.ID ≠ r.ID := by
  intro heq
  by_cases hhead : e.toID.toList.head? = some ':'
  · -- the reference has no cluster, and its namespace no slash
    rcases Strings.exists_join ':' e.toID with hcolon | ⟨before, after, hbefore, hjoin⟩
    · exact hcolon (List.mem_of_head? hhead)
    · rw [secretReferenceFromEdge_of_colon hbefore hjoin] at href
      obtain ⟨ns, name, -, -, hns, -, rfl⟩ := secretTarget_eq_some_iff.mp href
      have hempty : before = "" := by
        rw [hjoin, Strings.toList_join] at hhead
        cases hlist : before.toList with
        | nil => exact String.toList_inj.mp (hlist.trans String.toList_empty.symm)
        | cons c cs =>
          rw [hlist] at hhead hbefore
          cases hhead
          exact absurd List.mem_cons_self hbefore
      have hID : (secretReferenceResource ns name before).ID = path ns "Secret" name :=
        ID_of_no_cluster hempty
      rw [hID] at heq
      by_cases hcluster : r.clusterID = ""
      · rw [ID_of_no_cluster hcluster] at heq
        have hrest := (Strings.join_inj hns hr.ns.slash heq).2
        exact hkind (Strings.join_inj (by decide) hr.kind.slash hrest).1.symm
      · rw [ID_of_cluster' hcluster] at heq
        have hslash : '/' ∉ (r.clusterID ++ String.singleton ':' ++ r.ns).toList :=
          not_mem_join (by decide) hr.cluster.slash hr.ns.slash
        have hrest := (Strings.join_inj hns hslash heq).2
        exact hkind (Strings.join_inj (by decide) hr.kind.slash hrest).1.symm
  · -- the target of the edge is the identifier of `r`, which no reader takes for a Secret
    have hto : e.toID = r.ID := ((reference_ID_iff href).mpr hhead).symm.trans heq
    have hsome : secretReferenceFromEdge e ≠ none := by
      rw [href]
      exact Option.some_ne_none ref
    rw [Ne, eq_none_iff_of_ID hkind hr.ns hr.kind hr.cluster hto, not_not] at hsome
    obtain ⟨-, before, after, -, hname, hsecret⟩ := hsome
    obtain ⟨ns, name, -, -, -, hafter⟩ := hsecret
    refine hr.name ?_
    rw [hname, hafter]
    simp [path, String.toList_append]

/-! ### The parts of a callback -/

section Parts

variable {faulty : Bool} {rely guar : World → World → Prop}
  {gvr : GroupVersionResource} {u : Unstructured} {r : Resource}

/-- The calls of `kindFor`, for an object that carries its kind. -/
theorem kindFor_eq (hkind : u.kind ≠ "") :
    kindFor gvr u = .call (.cachedKind gvr) fun cached =>
      if cached = some u.kind then .done (some u.kind)
      else .call (.cacheKind gvr u.kind) fun _ => .done (some u.kind) := by
  unfold kindFor
  rw [if_pos hkind]
  rfl

/-- The calls of `writeResource`. -/
theorem writeResource_eq (m : InformerManager) (eventType : EventType) :
    m.writeResource gvr eventType r = .call (.persisted ⟨gvr, r.ns, r.name⟩) fun previous =>
      if (versionOf r).versioned = true ∧ previous = some (versionOf r) then .done (some false)
      else .call (.upsertResource r) fun reply =>
        match reply with
        | .error _ => .call (.recordGap gvr .persistenceFailed) fun _ => .done none
        | .ok () =>
          let event : ResourceEvent :=
            { clusterID := m.clusterID, ns := r.ns, kind := r.kind, uid := r.uid, name := r.name
              eventType := eventType, resourceVersion := r.resourceVersion }
          if (versionOf r).versioned then
            .call (.setPersisted ⟨gvr, r.ns, r.name⟩ (versionOf r)) fun _ =>
              .call (.enqueue event) fun _ => .done (some true)
          else
            .call (.dropPersisted ⟨gvr, r.ns, r.name⟩) fun _ =>
              .call (.enqueue event) fun _ => .done (some true) := by
  unfold InformerManager.writeResource
  rw [call_bind_eq]
  congr 1
  funext previous
  by_cases hsame : (versionOf r).versioned = true ∧ previous = some (versionOf r)
  · rw [if_pos hsame, if_pos (by simp [hsame.1, hsame.2])]
    rfl
  · have hchanged :
        ¬ (!(!(versionOf r).versioned || decide (previous ≠ some (versionOf r)))) = true := by
      simpa using hsame
    rw [if_neg hsame, if_neg hchanged]
    rfl

variable {w : World} {inv : World → Prop}

/-- `kindFor`, for an object that carries its kind. -/
theorem kindFor_ensures (hkind : u.kind ≠ "") (hrely : ∀ w w', inv w → rely w w' → inv w')
    (hread : ∀ w, guar w w)
    (hcache : ∀ w, inv w → guar w (w.cacheKind gvr u.kind) ∧ inv (w.cacheKind gvr u.kind))
    (hw : inv w) :
    (kindFor gvr u).Ensures (Answer faulty) rely guar
      (fun kind w => kind = some u.kind ∧ inv w) w := by
  rw [kindFor_eq hkind]
  intro w₁ h₁ reply w₂ hanswer
  have hw₁ := hrely w w₁ hw h₁
  cases hanswer
  refine ⟨hread w₁, ?_⟩
  beta_reduce
  split
  · intro w₂ h₂
    exact ⟨rfl, hrely w₁ w₂ hw₁ h₂⟩
  · intro w₂ h₂ reply w₃ hanswer
    have hw₂ := hrely w₁ w₂ hw₁ h₂
    cases hanswer
    obtain ⟨hguar, hw₃⟩ := hcache w₂ hw₂
    exact ⟨hguar, fun w₄ h₄ => ⟨rfl, hrely _ w₄ hw₃ h₄⟩⟩

/-- The calls that leave the shared state as it is. -/
def Quiet : Call → Prop
  | .listResources _ | .persisted _ | .cachedKind _ | .enqueue _ | .broadcast _ _ _ _
  | .recordGap _ _ | .ctxErr | .evaluateForResource _ => True
  | _ => False

theorem Quiet.eq {c : Call} {w w' : World} {reply : Reply c} (hc : Quiet c)
    (h : Answer faulty c w reply w') : w' = w := by
  cases h with
  | upserted | deleted | edgeUpserted | setPersisted | dropPersisted | cacheKind => exact hc.elim
  | _ => rfl

/-- A part of a callback that consists of one quiet call. -/
theorem call_quiet (c : Call) (hc : Quiet c) (hrely : ∀ w w', inv w → rely w w' → inv w')
    (hread : ∀ w, guar w w) (hw : inv w) :
    (call c).Ensures (Answer faulty) rely guar (fun _ w => inv w) w := by
  intro w₁ h₁ reply w₂ hanswer
  have hw₁ := hrely w w₁ hw h₁
  have hsame := hc.eq hanswer
  subst hsame
  exact ⟨hread w₂, fun w₃ h₃ => hrely w₂ w₃ hw₁ h₃⟩

/-- The single updates of `writeResource`: from `pre` the resource
is written, and after that its version is marked as written. `post`
holds at the end, also when the version is known to be written and
nothing is done. -/
structure WriteSteps (rely guar : World → World → Prop) (gvr : GroupVersionResource) (r : Resource)
    (pre wrote post : World → Prop) : Prop where
  pre_stable : ∀ w w', pre w → rely w w' → pre w'
  wrote_stable : ∀ w w', wrote w → rely w w' → wrote w'
  post_stable : ∀ w w', post w → rely w w' → post w'
  skip : ∀ w, pre w → (versionOf r).versioned = true →
    w.persisted.lookup ⟨gvr, r.ns, r.name⟩ = some (versionOf r) → post w
  write : ∀ w, pre w → guar w (w.upsertResource r) ∧ wrote (w.upsertResource r)
  mark : ∀ w, wrote w → (versionOf r).versioned = true →
    guar w (w.setPersisted ⟨gvr, r.ns, r.name⟩ (versionOf r)) ∧
      post (w.setPersisted ⟨gvr, r.ns, r.name⟩ (versionOf r))
  forget : ∀ w, wrote w → (versionOf r).versioned = false →
    guar w (w.dropPersisted ⟨gvr, r.ns, r.name⟩) ∧ post (w.dropPersisted ⟨gvr, r.ns, r.name⟩)

variable {m : InformerManager} {eventType : EventType} {pre wrote post final : World → Prop}

/-- `writeResource`. A write that fails changes nothing. -/
theorem writeResource_ensures (h : WriteSteps rely guar gvr r pre wrote post)
    (hread : ∀ w, guar w w) (hw : pre w) :
    (m.writeResource gvr eventType r).Ensures (Answer faulty) rely guar
      (fun written w => match written with | none => faulty = true ∧ pre w | some _ => post w)
      w := by
  rw [writeResource_eq]
  intro w₁ h₁ previous w₂ hanswer
  have hw₁ := h.pre_stable w w₁ hw h₁
  cases hanswer
  refine ⟨hread w₁, ?_⟩
  beta_reduce
  split
  · -- the write is skipped
    rename_i hsame
    intro w₂ h₂
    exact h.post_stable w₁ w₂ (h.skip w₁ hw₁ hsame.1 hsame.2) h₂
  · intro w₂ h₂ reply w₃ hanswer
    have hw₂ := h.pre_stable w₁ w₂ hw₁ h₂
    cases hanswer with
    | upsertFailed _ _ err hfaulty =>
      refine ⟨hread w₂, fun w₃ h₃ reply w₄ hanswer => ?_⟩
      have hw₃ := h.pre_stable w₂ w₃ hw₂ h₃
      cases hanswer
      exact ⟨hread w₃, fun w₄ h₄ => ⟨hfaulty, h.pre_stable w₃ w₄ hw₃ h₄⟩⟩
    | upserted =>
      obtain ⟨hguar, hw₃⟩ := h.write w₂ hw₂
      refine ⟨hguar, ?_⟩
      split
      · rename_i hversioned
        intro w₄ h₄ reply w₅ hanswer
        have hw₄ := h.wrote_stable _ w₄ hw₃ h₄
        cases hanswer
        obtain ⟨hguar', hw₅⟩ := h.mark w₄ hw₄ hversioned
        exact ⟨hguar', call_quiet (.enqueue _) trivial h.post_stable hread hw₅⟩
      · rename_i hversioned
        intro w₄ h₄ reply w₅ hanswer
        have hw₄ := h.wrote_stable _ w₄ hw₃ h₄
        cases hanswer
        obtain ⟨hguar', hw₅⟩ := h.forget w₄ hw₄ (Bool.eq_false_iff.mpr hversioned)
        exact ⟨hguar', call_quiet (.enqueue _) trivial h.post_stable hread hw₅⟩

/-- The calls of the second half of `handleUpsert`. -/
def DeriveCall : Call → Prop
  | .upsertResource r => ∃ e, secretReferenceFromEdge e = some r
  | .upsertEdge _ => True
  | c => Quiet c

/-- They leave the caches alone, and the resources of every kind but
one. -/
theorem DeriveCall.keeps {c : Call} {w w' : World} {reply : Reply c} (hc : DeriveCall c)
    (h : Answer faulty c w reply w') :
    w'.persisted = w.persisted ∧ ∀ r, Addressable r → r.kind ≠ "Secret" →
      w'.store.resources.lookup r.ID = w.store.resources.lookup r.ID := by
  cases h with
  | upserted _ ref =>
    obtain ⟨e, href⟩ := hc
    refine ⟨rfl, fun r hr hkind => ?_⟩
    rw [lookup_upsertResource, if_neg (reference_ID_ne href hr hkind).symm]
  | edgeUpserted _ e =>
    refine ⟨rfl, fun r hr hkind => ?_⟩
    rw [lookup_upsertEdge]
    cases href : secretReferenceFromEdge e with
    | none => rfl
    | some ref => exact if_neg (reference_ID_ne href hr hkind).symm
  | deleted | setPersisted | dropPersisted | cacheKind => exact hc.elim
  | _ => exact ⟨rfl, fun _ _ _ => rfl⟩

/-- The calls that edge derivation makes. -/
inductive EdgeCall : Call → Prop
  | listed (filter : Filter) : EdgeCall (.listResources filter)
  | gap (gvr : GroupVersionResource) (reason : CoverageReason) : EdgeCall (.recordGap gvr reason)
  | reference {e : Edge} {ref : Resource} (href : secretReferenceFromEdge e = some ref) :
      EdgeCall (.upsertResource ref)
  | edge (e : Edge) : EdgeCall (.upsertEdge e)

theorem EdgeCall.derive {c : Call} (h : EdgeCall c) : DeriveCall c := by
  cases h with
  | listed | gap | edge => exact trivial
  | reference href => exact ⟨_, href⟩

theorem upsertReferences_calls (edges : List Edge) :
    (InformerManager.upsertReferences gvr edges).Calls EdgeCall := by
  apply Program.calls_forM
  intro e _
  cases href : secretReferenceFromEdge e with
  | none => exact trivial
  | some ref =>
    refine ⟨.reference href, fun reply => ?_⟩
    cases reply with
    | error err => exact ⟨.gap gvr _, fun _ => trivial⟩
    | ok _ => exact trivial

theorem upsertEdges_calls (edges : List Edge) :
    (InformerManager.upsertEdges gvr edges).Calls EdgeCall := by
  apply Program.calls_forM
  intro e _
  refine ⟨.edge e, fun reply => ?_⟩
  cases reply with
  | error err => exact ⟨.gap gvr _, fun _ => trivial⟩
  | ok _ => exact trivial

theorem deriveEdges_edgeCalls : (m.deriveEdges gvr r).Calls EdgeCall := by
  refine Program.Calls.bind (Program.calls_embed .listed _) fun extraction => ?_
  obtain ⟨edges, err⟩ := extraction
  have hwrites : (InformerManager.upsertReferences gvr edges >>= fun _ =>
      InformerManager.upsertEdges gvr edges >>= fun _ => pure edges).Calls EdgeCall :=
    (upsertReferences_calls edges).bind fun _ => (upsertEdges_calls edges).bind fun _ => trivial
  dsimp only
  split
  · exact ⟨.gap gvr _, fun _ => hwrites⟩
  · exact hwrites

theorem deriveEdges_calls : (m.deriveEdges gvr r).Calls DeriveCall :=
  deriveEdges_edgeCalls.mono fun _ => EdgeCall.derive

/-- `handleUpsert`, for an object that carries its kind. -/
theorem handleUpsert_ensures (hrely : Program.Interference rely) (hkind : u.kind ≠ "")
    (h : WriteSteps rely guar gvr (m.resourceOf u u.kind) pre wrote post)
    (hfinal : ∀ w w', final w → rely w w' → final w') (hread : ∀ w, guar w w)
    (hcache : ∀ w, pre w → guar w (w.cacheKind gvr u.kind) ∧ pre (w.cacheKind gvr u.kind))
    (hderive : ∀ w, post w → (m.deriveEdges gvr (m.resourceOf u u.kind)).Ensures (Answer faulty)
      rely guar (fun _ => final) w) (hfailed : faulty = true → ∀ w, pre w → final w) (hw : pre w) :
    (m.handleUpsert gvr (.object u) eventType).Ensures (Answer faulty) rely guar
      (fun _ => final) w := by
  refine Program.Ensures.bind hrely ?_
  refine (kindFor_ensures hkind h.pre_stable hread hcache hw).mono ?_
  rintro _ w₁ ⟨rfl, hw₁⟩
  refine Program.Ensures.bind hrely ?_
  refine (writeResource_ensures h hread hw₁).mono ?_
  intro written w₂ hw₂
  cases written with
  | none =>
    obtain ⟨hfaulty, hw₂⟩ := hw₂
    exact fun w₃ h₃ => hfinal w₂ w₃ (hfailed hfaulty w₂ hw₂) h₃
  | some resourceChanged =>
    refine Program.Ensures.bind hrely ((hderive w₂ hw₂).mono fun edges w₃ hw₃ => ?_)
    split
    · exact call_quiet (.broadcast _ _ _ _) trivial hfinal hread hw₃
    · exact fun w₄ h₄ => hfinal w₃ w₄ hw₃ h₄

/-- The identifier that `handleDelete` puts together. -/
theorem deleted_ID (m : InformerManager) (u : Unstructured) :
    (if m.clusterID = "" then u.ns ++ "/" ++ u.kind ++ "/" ++ u.name
      else m.clusterID ++ ":" ++ (u.ns ++ "/" ++ u.kind ++ "/" ++ u.name))
      = (m.resourceOf u u.kind).ID := by
  unfold Resource.ID
  rw [resourceOf_ns, resourceOf_kind, resourceOf_name, resourceOf_clusterID]

/-- `handleDelete`, for an object that carries its kind: the version
is forgotten, and then the resource is deleted. -/
theorem handleDelete_ensures {obj : Delivery}
    (hobj : toUnstructured (InformerManager.unwrapTombstone obj) = some u)
    (hrely : Program.Interference rely) (hkind : u.kind ≠ "")
    (hpre : ∀ w w', pre w → rely w w' → pre w') (hwrote : ∀ w w', wrote w → rely w w' → wrote w')
    (hfinal : ∀ w w', final w → rely w w' → final w') (hread : ∀ w, guar w w)
    (hforget : ∀ w, pre w → guar w (w.dropPersisted ⟨gvr, u.ns, u.name⟩) ∧ wrote (w.dropPersisted
      ⟨gvr, u.ns, u.name⟩))
    (hcache : ∀ w, wrote w → guar w (w.cacheKind gvr u.kind) ∧ wrote (w.cacheKind gvr u.kind))
    (hdelete : ∀ w range, wrote w → guar w (w.deleteResource range (m.resourceOf u u.kind).ID) ∧
      final (w.deleteResource range (m.resourceOf u u.kind).ID))
    (hfailed : faulty = true → ∀ w, wrote w → final w) (hw : pre w) :
    (m.handleDelete gvr obj).Ensures (Answer faulty) rely guar (fun _ => final) w := by
  unfold InformerManager.handleDelete
  rw [hobj]
  intro w₁ h₁ reply w₂ hanswer
  have hw₁ := hpre w w₁ hw h₁
  cases hanswer
  obtain ⟨hguar, hw₂⟩ := hforget w₁ hw₁
  refine ⟨hguar, ?_⟩
  show Program.Ensures _ _ _ _ (kindFor gvr u >>= _) _
  refine Program.Ensures.bind hrely ?_
  refine (kindFor_ensures hkind hwrote hread hcache hw₂).mono ?_
  rintro _ w₃ ⟨rfl, hw₃⟩
  intro w₄ h₄ reply w₅ hanswer
  have hw₄ := hwrote w₃ w₄ hw₃ h₄
  rw [deleted_ID] at hanswer
  -- what is left sends an event and a message
  have hrest : ∀ w, final w → Program.Ensures (Answer faulty) rely guar (fun _ => final)
      (call (.enqueue
        { clusterID := m.clusterID, ns := u.ns, kind := u.kind, uid := u.uid, name := u.name
          eventType := .delete, resourceVersion := u.resourceVersion }) >>= fun _ =>
        call (.broadcast "delete" u.ns u.kind u.name)) w := fun w hw =>
    Program.Ensures.bind hrely
      ((call_quiet (.enqueue _) trivial hfinal hread hw).mono fun _ w' hw' =>
        call_quiet (.broadcast _ _ _ _) trivial hfinal hread hw')
  cases hanswer with
  | deleted _ _ range =>
    obtain ⟨hguar', hw₅⟩ := hdelete w₄ range hw₄
    exact ⟨hguar', hrest _ hw₅⟩
  | deleteFailed _ _ err hfaulty =>
    refine ⟨hread w₄, ?_⟩
    show Program.Ensures _ _ _ _ (call (.recordGap gvr .persistenceFailed) >>= _) _
    refine Program.Ensures.bind hrely ?_
    refine (call_quiet (.recordGap _ _) trivial hfinal hread (hfailed hfaulty w₄ hw₄)).mono ?_
    exact fun _ w' hw' => hrest w' hw'

/-! ### Custom resources -/

/-- The calls of a callback for a custom resource with the given
identifier. -/
def CrdCall (id : String) : Call → Prop
  | .upsertResource r => r.ID = id
  | .deleteResource id' => id' = id
  | .upsertEdge _ => True
  | c => Quiet c

theorem recordGapUnlessOver_calls {id : String} {reason : CoverageReason} :
    (Crd.recordGapUnlessOver gvr reason).Calls (CrdCall id) := by
  refine ⟨trivial, fun ended => ?_⟩
  cases ended with
  | true => exact trivial
  | false => exact ⟨trivial, fun _ => trivial⟩

theorem upsertRegoEdges_calls {id : String} (edges : List Edge) :
    (Crd.upsertRegoEdges gvr edges).Calls (CrdCall id) := by
  induction edges with
  | nil => exact trivial
  | cons e edges ih =>
    refine ⟨trivial, fun ended => ?_⟩
    cases ended with
    | true => exact trivial
    | false =>
      refine ⟨trivial, fun reply => ?_⟩
      cases reply with
      | ok _ => exact ih
      | error err =>
        refine ⟨trivial, fun ended => ?_⟩
        cases ended with
        | true => exact trivial
        | false => exact ⟨trivial, fun _ => ih⟩

theorem crdUpsert_calls {d : Crd.Discovery} {kind : String} :
    (d.handleUpsert gvr kind (.object u)).Calls (CrdCall (unstructuredToResource u kind).ID) := by
  refine ⟨trivial, fun ended => ?_⟩
  cases ended with
  | true => exact trivial
  | false =>
    refine ⟨rfl, fun reply => ?_⟩
    cases reply with
    | error err => exact recordGapUnlessOver_calls
    | ok _ =>
      refine ⟨trivial, fun ended => ?_⟩
      cases ended with
      | true => exact trivial
      | false =>
        cases hrego : d.rego with
        | false => exact trivial
        | true =>
          refine ⟨trivial, fun reply => ?_⟩
          cases reply with
          | error err => exact recordGapUnlessOver_calls
          | ok edges => exact upsertRegoEdges_calls edges

theorem crdDelete_calls {obj : Delivery} {kind : String}
    (hobj : toUnstructured (InformerManager.unwrapTombstone obj) = some u) :
    (Crd.Discovery.handleDelete gvr obj kind).Calls
      (CrdCall (unstructuredToResource u kind).ID) := by
  refine ⟨trivial, fun ended => ?_⟩
  cases ended with
  | true => exact trivial
  | false =>
    simp only [hobj]
    refine ⟨rfl, fun reply => ?_⟩
    cases reply with
    | error err => exact recordGapUnlessOver_calls
    | ok _ => exact trivial

end Parts

end KubeAtlas.Proofs.Collection
