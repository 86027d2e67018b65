import KubeAtlas.Extractor.Identity
import KubeAtlas.Proofs.Graph.Identifiers
import KubeAtlas.Store.Memory

/-!
# `KubeAtlas.Proofs.Graph.SecretReferences`: the Secrets that edges bring

`UpsertEdge` writes the reference node of the Secret an edge points
at, and finds out whether it points at one by taking the target
apart. The reader is meant to be the inverse of `Resource.ID` on
Secrets. It is complete. It is not sound: it looks for the cluster
before the first colon of the whole text, although a name, or the
reference of a cloud identity, may have a colon too.
`secretReferences_iff` says exactly which targets are misread.
-/

set_option autoImplicit false

namespace KubeAtlas.Proofs.Graph

open KubeAtlas.Extractor KubeAtlas.Graph Lib KubeAtlas.Store

/-! ### The reader on the two forms of a target -/

/-- The part of `secretReferenceFromEdge` after the cluster was cut
off. -/
def secretTarget (clusterID target : String) : Option Resource :=
  match Strings.splitN '/' 3 target with
  | [ns, kind, name] =>
    if ns = "" || kind ≠ "Secret" || name = "" then none
    else some (secretReferenceResource ns name clusterID)
  | _ => none

variable {e : Edge}

theorem secretReferenceFromEdge_of_no_colon (h : ':' ∉ e.toID.toList) :
    secretReferenceFromEdge e = secretTarget "" e.toID := by
  unfold secretReferenceFromEdge
  rw [Strings.cut_of_not_mem h]
  rfl

theorem secretReferenceFromEdge_of_colon {before after : String} (hbefore : ':' ∉ before.toList)
    (h : e.toID = before ++ String.singleton ':' ++ after) :
    secretReferenceFromEdge e = secretTarget before after := by
  unfold secretReferenceFromEdge
  rw [h, Strings.cut_join hbefore]
  rfl

/-- The text `namespace/Secret/name`, with something in both places.
The name may have any character in it. -/
def SecretPath (target : String) : Prop :=
  ∃ ns name, ns ≠ "" ∧ name ≠ "" ∧ '/' ∉ ns.toList ∧ target = path ns "Secret" name

theorem secretTarget_path {clusterID ns kind name : String} (hns : '/' ∉ ns.toList)
    (hkind : '/' ∉ kind.toList) :
    secretTarget clusterID (path ns kind name)
      = if ns = "" || kind ≠ "Secret" || name = "" then none
        else some (secretReferenceResource ns name clusterID) := by
  unfold secretTarget
  rw [Strings.splitN_three_iff.mpr ⟨hns, hkind, show path ns kind name = _ from rfl⟩]

theorem secretTarget_eq_some_iff {clusterID target : String} {ref : Resource} :
    secretTarget clusterID target = some ref ↔
      ∃ ns name, ns ≠ "" ∧ name ≠ "" ∧ '/' ∉ ns.toList ∧ target = path ns "Secret" name ∧
        ref = secretReferenceResource ns name clusterID := by
  constructor
  · intro h
    unfold secretTarget at h
    split at h
    next ns kind name hsplit =>
      obtain ⟨hslash, -, rfl⟩ := Strings.splitN_three_iff.mp hsplit
      -- the reader refuses an empty namespace, another kind and an empty name
      split at h
      · cases h
      · rename_i hguard
        simp only [Bool.or_eq_true, decide_eq_true_eq, not_or, ne_eq, not_not] at hguard
        obtain ⟨⟨hns, rfl⟩, hname⟩ := hguard
        exact ⟨ns, name, hns, hname, hslash, rfl, (Option.some.inj h).symm⟩
    next => cases h
  · rintro ⟨ns, name, hns, hname, hslash, rfl, rfl⟩
    rw [secretTarget_path hslash (by decide), if_neg (by simp [hns, hname])]

theorem secretTarget_eq_none_iff (clusterID : String) {target : String} :
    secretTarget clusterID target = none ↔ ¬ SecretPath target := by
  constructor
  · rintro h ⟨ns, name, hns, hname, hslash, htarget⟩
    rw [secretTarget_eq_some_iff.mpr ⟨ns, name, hns, hname, hslash, htarget, rfl⟩] at h
    cases h
  · intro h
    cases hread : secretTarget clusterID target with
    | none => rfl
    | some ref =>
      obtain ⟨ns, name, hns, hname, hslash, htarget, -⟩ := secretTarget_eq_some_iff.mp hread
      exact absurd ⟨ns, name, hns, hname, hslash, htarget⟩ h

/-- A path of another kind is not the path of a Secret. -/
theorem not_secretPath {ns kind name : String} (hns : '/' ∉ ns.toList)
    (hkind : '/' ∉ kind.toList) (h : kind ≠ "Secret") : ¬ SecretPath (path ns kind name) := by
  rw [← secretTarget_eq_none_iff "", secretTarget_path hns hkind,
    if_pos (by simp [h])]

/-! ### Texts with a Secret after the first colon -/

/-- The text after the first colon is `namespace/Secret/name`. -/
def SecretAfterColon (s : String) : Prop :=
  ∃ before after, ':' ∉ before.toList ∧ s = before ++ String.singleton ':' ++ after ∧
    SecretPath after

theorem not_secretAfterColon {s : String} (h : ':' ∉ s.toList) : ¬ SecretAfterColon s := by
  rintro ⟨before, after, -, rfl, -⟩
  rw [Strings.toList_join] at h
  exact h (List.mem_append_right _ List.mem_cons_self)

theorem secretAfterColon_join {before after : String} (h : ':' ∉ before.toList) :
    SecretAfterColon (before ++ String.singleton ':' ++ after) ↔ SecretPath after := by
  constructor
  · rintro ⟨before', after', hbefore, heq, hsecret⟩
    rw [(Strings.join_inj h hbefore heq).2]
    exact hsecret
  · intro hsecret
    exact ⟨before, after, h, rfl, hsecret⟩

/-- On a target that is not itself, without any colon, the path of a
Secret, the reader goes by what follows the first colon. -/
theorem eq_none_iff_not_secretAfterColon (h : ':' ∉ e.toID.toList → ¬ SecretPath e.toID) :
    secretReferenceFromEdge e = none ↔ ¬ SecretAfterColon e.toID := by
  rcases Strings.exists_join ':' e.toID with hcolon | ⟨before, after, hbefore, hjoin⟩
  · rw [secretReferenceFromEdge_of_no_colon hcolon, secretTarget_eq_none_iff]
    exact iff_of_true (h hcolon) (not_secretAfterColon hcolon)
  · rw [secretReferenceFromEdge_of_colon hbefore hjoin, secretTarget_eq_none_iff, hjoin,
      secretAfterColon_join hbefore]

/-! ### Completeness -/

/-- The identifier of a Secret is read as that Secret. -/
theorem reference_of_secret {r : Resource} (hkind : r.kind = "Secret") (hns : Plain r.ns)
    (hname : Plain r.name) (hcluster : Plain r.clusterID) (hns_ne : r.ns ≠ "")
    (hname_ne : r.name ≠ "") (hto : e.toID = r.ID) :
    secretReferenceFromEdge e = some (secretReferenceResource r.ns r.name r.clusterID) := by
  by_cases h : r.clusterID = ""
  · rw [ID_of_no_cluster h, hkind] at hto
    have hcolon : ':' ∉ e.toID.toList := by
      rw [hto]
      exact not_mem_join (by decide) hns.colon (not_mem_join (by decide) (by decide) hname.colon)
    rw [secretReferenceFromEdge_of_no_colon hcolon, hto, h]
    exact secretTarget_eq_some_iff.mpr ⟨r.ns, r.name, hns_ne, hname_ne, hns.slash, rfl, rfl⟩
  · rw [ID_of_cluster h, hkind] at hto
    rw [secretReferenceFromEdge_of_colon hcluster.colon hto]
    exact secretTarget_eq_some_iff.mpr ⟨r.ns, r.name, hns_ne, hname_ne, hns.slash, rfl, rfl⟩

/-! ### Soundness -/

/-- A reference has the identifier the edge points at, unless that
text starts with a colon: the empty cluster is not printed. -/
theorem reference_ID_iff {ref : Resource} (h : secretReferenceFromEdge e = some ref) :
    ref.ID = e.toID ↔ e.toID.toList.head? ≠ some ':' := by
  rcases Strings.exists_join ':' e.toID with hcolon | ⟨before, after, hbefore, hjoin⟩
  · rw [secretReferenceFromEdge_of_no_colon hcolon] at h
    obtain ⟨ns, name, -, -, -, htarget, rfl⟩ := secretTarget_eq_some_iff.mp h
    refine iff_of_true ?_ ?_
    · rw [htarget]
      exact ID_of_no_cluster rfl
    · intro hhead
      exact hcolon (List.mem_of_head? hhead)
  · rw [secretReferenceFromEdge_of_colon hbefore hjoin] at h
    obtain ⟨ns, name, -, -, -, htarget, rfl⟩ := secretTarget_eq_some_iff.mp h
    rw [hjoin, htarget, Strings.toList_join]
    by_cases hempty : before = ""
    · subst hempty
      -- the printed text is the target without its colon
      have hID : (secretReferenceResource ns name "").ID = path ns "Secret" name :=
        ID_of_no_cluster rfl
      rw [hID]
      refine iff_of_false ?_ (not_not.mpr rfl)
      intro heq
      have hlength := congrArg (fun s => s.toList.length) heq
      simp at hlength
    · refine iff_of_true (ID_of_cluster hempty) ?_
      have hne : before.toList ≠ [] := fun hnil =>
        hempty (String.toList_inj.mp (hnil.trans String.toList_empty.symm))
      rw [List.head?_append_of_ne_nil _ hne]
      intro hhead
      exact hbefore (List.mem_of_head? hhead)

/-- An identifier of another kind is misread exactly when there is
no cluster in front and the name has a Secret after its first colon. -/
theorem eq_none_iff_of_ID {r : Resource} (hkind : r.kind ≠ "Secret") (hns : Plain r.ns)
    (hplain : Plain r.kind) (hcluster : Plain r.clusterID) (hto : e.toID = r.ID) :
    secretReferenceFromEdge e = none ↔ ¬ (r.clusterID = "" ∧ SecretAfterColon r.name) := by
  by_cases h : r.clusterID = ""
  · rw [ID_of_no_cluster h] at hto
    rw [eq_none_iff_not_secretAfterColon
      (fun _ => hto ▸ not_secretPath hns.slash hplain.slash hkind), hto]
    simp only [h, true_and]
    -- the first colon of the identifier is the first colon of the name
    rcases Strings.exists_join ':' r.name with hcolon | ⟨before, after, hbefore, hjoin⟩
    · have hnone : ':' ∉ (path r.ns r.kind r.name).toList :=
        not_mem_join (by decide) hns.colon (not_mem_join (by decide) hplain.colon hcolon)
      exact iff_of_true (not_secretAfterColon hnone) (not_secretAfterColon hcolon)
    · have hfirst : ':' ∉ (path r.ns r.kind before).toList :=
        not_mem_join (by decide) hns.colon (not_mem_join (by decide) hplain.colon hbefore)
      have hpath : path r.ns r.kind r.name
          = path r.ns r.kind before ++ String.singleton ':' ++ after := by
        unfold path
        rw [hjoin]
        simp only [String.append_assoc]
      rw [hpath, secretAfterColon_join hfirst, hjoin, secretAfterColon_join hbefore]
  · rw [ID_of_cluster h] at hto
    rw [secretReferenceFromEdge_of_colon hcluster.colon hto, secretTarget_eq_none_iff]
    exact iff_of_true (not_secretPath hns.slash hplain.slash hkind) (fun hboth => h hboth.1)

/-- The identity extractors print their targets like identifiers of
resources. -/
theorem externalIdentityID_eq (clusterID platform ref : String) :
    externalIdentityID clusterID platform ref
      = ({ kind := platform, ns := externalIdentityNamespace, name := ref,
           clusterID := clusterID } : Resource).ID := rfl

theorem plain_externalIdentityNamespace : Plain externalIdentityNamespace :=
  ⟨by decide, by decide⟩

/-- An external identity is misread exactly when its text has a
Secret after its first colon. With a cluster in front that is never
so; without one it is up to the reference. -/
theorem eq_none_iff_of_externalIdentityID {clusterID platform ref : String}
    (hplatform : platform ≠ "Secret") (hplain : Plain platform)
    (hto : e.toID = externalIdentityID clusterID platform ref) :
    (secretReferenceFromEdge e = none ↔ ¬ SecretAfterColon e.toID) ∧
      (Plain clusterID → (secretReferenceFromEdge e = none ↔
        ¬ (clusterID = "" ∧ SecretAfterColon ref))) := by
  rw [externalIdentityID_eq] at hto
  refine ⟨eq_none_iff_not_secretAfterColon ?_, fun hcluster =>
    eq_none_iff_of_ID hplatform plain_externalIdentityNamespace hplain hcluster hto⟩
  intro hcolon
  by_cases h : clusterID = ""
  · rw [hto, ID_of_no_cluster h]
    exact not_secretPath plain_externalIdentityNamespace.slash hplain.slash hplatform
  · -- a printed cluster brings a colon
    rw [hto, ID_of_cluster h, Strings.toList_join] at hcolon
    exact absurd (List.mem_append_right _ List.mem_cons_self) hcolon

/-! ### The store -/

/-- The only entry `UpsertEdge` changes is that of the reference. -/
theorem lookup_upsertEdge_of_ne {s : MemoryStore} {id : String}
    (h : (s.upsertEdge e).resources.lookup id ≠ s.resources.lookup id) :
    ∃ ref, secretReferenceFromEdge e = some ref ∧ id = ref.ID := by
  unfold MemoryStore.upsertEdge at h
  cases href : secretReferenceFromEdge e with
  | none =>
    simp only [href] at h
    exact absurd rfl h
  | some ref =>
    simp only [href] at h
    refine ⟨ref, rfl, ?_⟩
    by_contra hne
    exact h (AList.lookup_insert_ne hne)

/-- Which targets the reader takes for Secrets. The identifier of a
Secret is read as that Secret. A reference has the identifier its
edge points at unless that starts with a colon, and so has every
entry that `UpsertEdge` changes. An identifier of another kind, or
an external identity, is taken for a Secret exactly when it has no
cluster and its last segment has `namespace/Secret/name` after its
first colon. -/
theorem secretReferences_iff (e : Edge) :
    (∀ r : Resource, r.kind = "Secret" → Plain r.ns → Plain r.name →
      Plain r.clusterID → r.ns ≠ "" → r.name ≠ "" → e.toID = r.ID →
      secretReferenceFromEdge e = some (secretReferenceResource r.ns r.name r.clusterID)) ∧
    (∀ ref : Resource, secretReferenceFromEdge e = some ref →
      (ref.ID = e.toID ↔ e.toID.toList.head? ≠ some ':')) ∧
    (∀ r : Resource, r.kind ≠ "Secret" → Plain r.ns → Plain r.kind →
      Plain r.clusterID → e.toID = r.ID →
      (secretReferenceFromEdge e = none ↔ ¬ (r.clusterID = "" ∧ SecretAfterColon r.name))) ∧
    (∀ clusterID platform ref : String, platform ≠ "Secret" → Plain platform →
      e.toID = externalIdentityID clusterID platform ref →
      (secretReferenceFromEdge e = none ↔ ¬ SecretAfterColon e.toID) ∧
        (Plain clusterID → (secretReferenceFromEdge e = none ↔
          ¬ (clusterID = "" ∧ SecretAfterColon ref)))) ∧
    (∀ (s : MemoryStore) (id : String),
      (s.upsertEdge e).resources.lookup id ≠ s.resources.lookup id →
      (id = e.toID ↔ e.toID.toList.head? ≠ some ':')) := by
  refine ⟨?_, fun ref h => reference_ID_iff h, ?_, ?_, ?_⟩
  · intro r hkind hns hname hcluster hns_ne hname_ne hto
    exact reference_of_secret hkind hns hname hcluster hns_ne hname_ne hto
  · intro r hkind hns hplain hcluster hto
    exact eq_none_iff_of_ID hkind hns hplain hcluster hto
  · intro clusterID platform ref hplatform hplain hto
    exact eq_none_iff_of_externalIdentityID hplatform hplain hto
  · intro s id h
    obtain ⟨ref, href, rfl⟩ := lookup_upsertEdge_of_ne h
    exact reference_ID_iff href

/-- A service account of a cluster without a name, annotated with a
role under the path `Secret`. -/
def roleAccount : Resource :=
  { kind := "ServiceAccount", name := "app", ns := "prod",
    annotations := [.mk irsaAnnotation "arn:aws:iam::111122223333:role/Secret/db"] }

/-- The store after the edges of `roleAccount` were written. -/
def roleStore : MemoryStore :=
  (eksIdentity roleAccount).foldl MemoryStore.upsertEdge
    (MemoryStore.new.upsertResource roleAccount)

/-- Two misreadings. The edge of `roleAccount` to its role files a
Secret named `db` in the namespace `aws:iam::111122223333:role`. An
edge to `:prod/Secret/token` files the Secret `prod/Secret/token`,
at which no edge points. -/
theorem misread_targets :
    ((roleStore.resources.lookup
        "_external/IAMRole/arn:aws:iam::111122223333:role/Secret/db").map
          fun r => (r.kind, r.ns, r.name))
      = some ("Secret", "aws:iam::111122223333:role", "db") ∧
    GoMap.keys RangeOrder.inserted (MemoryStore.new.upsertEdge
        ⟨"prod/Pod/app", ":prod/Secret/token", .usesSecret, []⟩).resources
      = ["prod/Secret/token"] := by
  decide +kernel

/-- The token of a namespace is read off its own identifier. -/
theorem secretReferences_iff_token :
    secretReferenceFromEdge ⟨"prod/Pod/app", "prod/Secret/token", .usesSecret, []⟩
      = some (secretReferenceResource "prod" "token" "") ∧
    ¬ (secretReferenceFromEdge ⟨"prod/ServiceAccount/app",
        externalIdentityID "" eksIRSARolePlatform "arn:aws:iam::111122223333:role/Secret/db",
        .bindsPlatformIdentity, []⟩ = none) := by
  constructor
  · exact (secretReferences_iff _).1 { kind := "Secret", ns := "prod", name := "token" }
      rfl ⟨by decide, by decide⟩ ⟨by decide, by decide⟩ ⟨by decide, by decide⟩
      (by decide) (by decide) rfl
  · intro hnone
    refine (((secretReferences_iff _).2.2.2.1 "" eksIRSARolePlatform _ (by decide)
      ⟨by decide, by decide⟩ rfl).2 ⟨by decide, by decide⟩).mp hnone ⟨rfl, ?_⟩
    exact ⟨"arn", "aws:iam::111122223333:role/Secret/db", by decide, by decide,
      "aws:iam::111122223333:role", "db", by decide, by decide, by decide, by decide⟩

end KubeAtlas.Proofs.Graph
