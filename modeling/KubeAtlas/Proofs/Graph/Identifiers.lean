import KubeAtlas.Analysis.Impact
import KubeAtlas.Store.PostgresImpact

/-!
# `KubeAtlas.Proofs.Graph.Identifiers`: identifiers are a faithful code

A resource is named by one text, `[cluster:]namespace/kind/name`.
Three places read the cluster off it: the projection builder, the
impact analysis and a condition in SQL. The prefix is optional and
names may have colons in them, so the reading depends on where the
first colon and the first slash are. `ID_faithful` says that the
text determines what it was printed from, and that the three
readings agree.
-/

set_option autoImplicit false

namespace KubeAtlas.Proofs.Graph

open Analysis KubeAtlas.Graph Lib KubeAtlas.Store

/-! ### Printing -/

/-- A segment of an identifier, with none of its separators. -/
structure Plain (s : String) : Prop where
  slash : '/' ∉ s.toList
  colon : ':' ∉ s.toList

/-- `namespace/kind/name`, as a text that is cut twice. -/
def path (ns kind name : String) : String :=
  ns ++ String.singleton '/' ++ (kind ++ String.singleton '/' ++ name)

variable {r : Resource}

theorem ID_of_no_cluster (h : r.clusterID = "") :
    r.ID = path r.ns r.kind r.name := by
  unfold Resource.ID path
  rw [if_pos h, show "/" = String.singleton '/' from rfl]
  simp only [String.append_assoc]

theorem ID_of_cluster (h : r.clusterID ≠ "") :
    r.ID = r.clusterID ++ String.singleton ':' ++ path r.ns r.kind r.name := by
  unfold Resource.ID path
  rw [if_neg h, show "/" = String.singleton '/' from rfl, show ":" = String.singleton ':' from rfl]
  simp only [String.append_assoc]

/-- The same identifier, cut at its first slash. -/
theorem ID_of_cluster' (h : r.clusterID ≠ "") :
    r.ID = (r.clusterID ++ String.singleton ':' ++ r.ns) ++ String.singleton '/' ++
      (r.kind ++ String.singleton '/' ++ r.name) := by
  rw [ID_of_cluster h]
  unfold path
  simp only [String.append_assoc]

theorem not_mem_join {c sep : Char} {s t : String} (hsep : c ≠ sep) (hs : c ∉ s.toList)
    (ht : c ∉ t.toList) : c ∉ (s ++ String.singleton sep ++ t).toList := by
  rw [Strings.toList_join, List.mem_append, List.mem_cons]
  rintro (h | h | h)
  · exact hs h
  · exact hsep h
  · exact ht h

/-- What stands before the first slash of an identifier:
the namespace, and the cluster before it if there is one. -/
theorem cut_slash_ID (hns : Plain r.ns) (hcluster : Plain r.clusterID) :
    ∃ head, '/' ∉ head.toList ∧
      r.ID = head ++ String.singleton '/' ++ (r.kind ++ String.singleton '/' ++ r.name) ∧
      Strings.cut head ':' = if r.clusterID = "" then (r.ns, "", false)
        else (r.clusterID, r.ns, true) := by
  by_cases h : r.clusterID = ""
  · refine ⟨r.ns, hns.slash, ID_of_no_cluster h, ?_⟩
    rw [if_pos h]
    exact Strings.cut_of_not_mem hns.colon
  · refine ⟨r.clusterID ++ String.singleton ':' ++ r.ns, ?_, ID_of_cluster' h, ?_⟩
    · exact not_mem_join (by decide) hcluster.slash hns.slash
    · rw [if_neg h]
      exact Strings.cut_join hcluster.colon

/-! ### Reading the cluster -/

/-- Only what stands before the first slash is read. -/
theorem impactIDInCluster_join {head rest : String} (hhead : '/' ∉ head.toList) (c : String) :
    impactIDInCluster (head ++ String.singleton '/' ++ rest) c
      = match Strings.cut head ':' with
        | (cluster, _, true) => decide (cluster = c) && decide (cluster ≠ "")
        | (_, _, false) => decide (c = "") := by
  unfold impactIDInCluster
  rewrite [Strings.cut_join hhead]
  rfl

/-- The projection builder finds an identifier in the cluster it was
printed with, and in no other. -/
theorem impactIDInCluster_ID (hns : Plain r.ns) (hcluster : Plain r.clusterID) (c : String) :
    impactIDInCluster r.ID c = true ↔ c = r.clusterID := by
  obtain ⟨head, hhead, hID, hcut⟩ := cut_slash_ID hns hcluster
  rw [hID, impactIDInCluster_join hhead, hcut]
  by_cases h : r.clusterID = ""
  · rw [if_pos h, h]
    exact decide_eq_true_iff
  · rw [if_neg h]
    show (decide (r.clusterID = c) && decide (r.clusterID ≠ "")) = true ↔ _
    rw [decide_eq_true h, Bool.and_true, decide_eq_true_iff]
    exact eq_comm

/-- The analysis reads off an identifier the cluster it was printed
with. -/
theorem impactIDCluster_ID (hns : Plain r.ns) (hcluster : Plain r.clusterID) :
    impactIDCluster r.ID = r.clusterID := by
  obtain ⟨head, hhead, hID, hcut⟩ := cut_slash_ID hns hcluster
  unfold impactIDCluster
  rw [hID, Strings.cut_join hhead, hcut]
  by_cases h : r.clusterID = ""
  · rw [if_pos h, h]
  · rw [if_neg h]

/-- The condition in SQL on one endpoint. It is compared with
`impactIDInCluster` on every text, so the proof follows the form of
the text and not that of an identifier. -/
theorem sql_endpoint_eq (cluster id : String) :
    (decide (SqlText.strpos id '/' > 0) && prefixCondition cluster id)
      = impactIDInCluster id cluster := by
  rcases Strings.exists_join '/' id with hslash | ⟨head, rest, hhead, rfl⟩
  · -- without a slash neither accepts
    unfold impactIDInCluster
    rw [Strings.cut_of_not_mem hslash, SqlText.strpos_eq_zero_iff.mpr hslash]
    rfl
  · have hpos : SqlText.strpos (head ++ String.singleton '/' ++ rest) '/' > 0 := by
      rw [gt_iff_lt, SqlText.strpos_pos_iff, Strings.toList_join]
      exact List.mem_append_right _ List.mem_cons_self
    unfold prefixCondition
    rw [impactIDInCluster_join hhead, SqlText.splitPart_join hhead, decide_eq_true hpos,
      Bool.true_and]
    rcases Strings.exists_join ':' head with hcolon | ⟨before, after, hbefore, rfl⟩
    · -- no cluster in front: only the unnamed cluster is accepted
      rw [Strings.cut_of_not_mem hcolon]
      show (decide (cluster = "") && decide (SqlText.strpos head ':' = 0) ||
        decide (cluster ≠ "") && decide (SqlText.strpos head ':' > 0) &&
          decide (SqlText.splitPart head ':' 1 = cluster)) = decide (cluster = "")
      rw [SqlText.strpos_eq_zero_iff.mpr hcolon]
      simp
    · have hpos' : SqlText.strpos (before ++ String.singleton ':' ++ after) ':' > 0 := by
        rw [gt_iff_lt, SqlText.strpos_pos_iff, Strings.toList_join]
        exact List.mem_append_right _ List.mem_cons_self
      rw [Strings.cut_join hbefore]
      show (decide (cluster = "") && decide (SqlText.strpos _ ':' = 0) ||
        decide (cluster ≠ "") && decide (SqlText.strpos _ ':' > 0) &&
          decide (SqlText.splitPart _ ':' 1 = cluster))
        = (decide (before = cluster) && decide (before ≠ ""))
      -- the empty prefix is refused by Go on the prefix, by SQL on the parameter
      rw [SqlText.splitPart_join hbefore, decide_eq_true hpos',
        decide_eq_false (Nat.pos_iff_ne_zero.mp hpos'), Bool.and_false, Bool.false_or,
        Bool.and_true]
      by_cases heq : before = cluster
      · rw [heq, Bool.and_comm]
      · rw [decide_eq_false heq, Bool.and_false, Bool.false_and]

/-- The rows of `edges` the query reads are those with both
endpoints in the cluster. -/
theorem impactEdgesWhere_eq (cluster fromID toID : String) :
    impactEdgesWhere cluster fromID toID
      = (impactIDInCluster fromID cluster && impactIDInCluster toID cluster) := by
  rw [← sql_endpoint_eq cluster fromID, ← sql_endpoint_eq cluster toID]
  unfold impactEdgesWhere
  ac_rfl

/-! ### Injectivity -/

/-- Two paths with plain namespaces and kinds are equal only segment
by segment. -/
theorem path_inj {ns kind name ns' kind' name' : String} (hns : Plain ns) (hkind : Plain kind)
    (hns' : Plain ns') (hkind' : Plain kind')
    (h : path ns kind name = path ns' kind' name') : ns = ns' ∧ kind = kind' ∧ name = name' := by
  obtain ⟨hns_eq, hrest⟩ := Strings.join_inj hns.slash hns'.slash h
  obtain ⟨hkind_eq, hname_eq⟩ := Strings.join_inj hkind.slash hkind'.slash hrest
  exact ⟨hns_eq, hkind_eq, hname_eq⟩

/-- A resource as the analysis accepts it: every segment can be told
apart from the separators, and the name may have colons in it. -/
structure Addressable (r : Resource) : Prop where
  kind_ne : r.kind ≠ ""
  name_ne : r.name ≠ ""
  ns : Plain r.ns
  kind : Plain r.kind
  name : '/' ∉ r.name.toList
  cluster : Plain r.clusterID

/-- An identifier determines the four fields it was printed from. -/
theorem ID_inj {r r' : Resource} (h : Addressable r) (h' : Addressable r') (heq : r.ID = r'.ID) :
    r.clusterID = r'.clusterID ∧ r.ns = r'.ns ∧ r.kind = r'.kind ∧ r.name = r'.name := by
  -- the cluster is read off the common text, and its printed form then cancels
  have hcluster : r.clusterID = r'.clusterID := by
    rw [← impactIDCluster_ID h.ns h.cluster, heq, impactIDCluster_ID h'.ns h'.cluster]
  have hpath : path r.ns r.kind r.name = path r'.ns r'.kind r'.name := by
    by_cases hempty : r.clusterID = ""
    · rw [ID_of_no_cluster hempty, ID_of_no_cluster (hcluster ▸ hempty)] at heq
      exact heq
    · rw [ID_of_cluster hempty, ID_of_cluster (hcluster ▸ hempty)] at heq
      exact (Strings.join_inj h.cluster.colon h'.cluster.colon heq).2
  exact ⟨hcluster, path_inj h.ns h.kind h'.ns h'.kind hpath⟩

/-- Identifiers are a faithful code: the text determines
cluster, namespace, kind and name; it lies in the cluster of the
resource and in no other; the analysis reads that cluster off it;
and the edge query selects, for every pair of texts, what
`impactIDInCluster` accepts. -/
theorem ID_faithful :
    (∀ r r' : Resource, Addressable r → Addressable r' → r.ID = r'.ID →
      r.clusterID = r'.clusterID ∧ r.ns = r'.ns ∧ r.kind = r'.kind ∧ r.name = r'.name) ∧
    (∀ (r : Resource) (c : String), Addressable r → Plain c →
      (impactIDInCluster r.ID c = true ↔ c = r.clusterID)) ∧
    (∀ r : Resource, Addressable r → impactIDCluster r.ID = r.clusterID) ∧
    (∀ fromID toID cluster : String, impactEdgesWhere cluster fromID toID
      = (impactIDInCluster fromID cluster && impactIDInCluster toID cluster)) := by
  refine ⟨fun r r' h h' => ID_inj h h', ?_, ?_, fun fromID toID cluster =>
    impactEdgesWhere_eq cluster fromID toID⟩
  · intro r c h _
    exact impactIDInCluster_ID h.ns h.cluster c
  · intro r h
    exact impactIDCluster_ID h.ns h.cluster

/-- A role whose name has a colon in it, in a named cluster. -/
def nodeRole : Resource := { kind := "ClusterRole", name := "system:node", clusterID := "prod" }

theorem addressable_nodeRole : Addressable nodeRole where
  kind_ne := by decide
  name_ne := by decide
  ns := ⟨by decide, by decide⟩
  kind := ⟨by decide, by decide⟩
  name := by decide
  cluster := ⟨by decide, by decide⟩

/-- The colon of the name is not taken for the end of a cluster, and
a role with the identifier `prod:/ClusterRole/system:node` is this
one. -/
theorem ID_faithful_nodeRole :
    Addressable nodeRole ∧ impactIDInCluster nodeRole.ID "prod" = true ∧
      impactIDCluster nodeRole.ID = "prod" ∧
      ∀ r, Addressable r → r.ID = nodeRole.ID → r.name = "system:node" :=
  ⟨addressable_nodeRole,
    (ID_faithful.2.1 nodeRole "prod" addressable_nodeRole ⟨by decide, by decide⟩).mpr rfl,
    ID_faithful.2.2.1 nodeRole addressable_nodeRole,
    fun r hr heq => (ID_faithful.1 r nodeRole hr addressable_nodeRole heq).2.2.2⟩

end KubeAtlas.Proofs.Graph
