import KubeAtlas.Proofs.Extractor.Derivation
import KubeAtlas.Proofs.Store.Contents

/-!
# `KubeAtlas.Proofs.Extractor.Isolation`: extraction within one cluster

A store may hold several clusters. Two stores that agree on the
cluster of a resource should give the resource the same policy and
network edges. `isolated_iff` compares them. Every query for targets
carries the cluster, so the targets are the same and lie in the
cluster. The query for policy reports does not:
`buildKyvernoReportIndex` reads the reports of all clusters, and a
report names a policy and a resource without its cluster. So the
edges agree, attributes included, exactly if both stores say the
same about every resource that a Kyverno policy applies to.

Go ranges over the stored resources in an order of its own, in each
query anew, and the report read last wins. `Says` is what a store
says about a resource in every such order.
-/

set_option autoImplicit false

namespace KubeAtlas.Proofs.Extractor

open KubeAtlas.Extractor KubeAtlas.Graph Lib KubeAtlas.Store KubeAtlas.Proofs.Store

/-! ### Reports -/

/-- What one result of a report says about a policy and a resource. -/
def said (key : String) (resAny : Json) : Option String :=
  let res := asMap resAny
  let policy := (member res "policy").text
  let result := (member res "result").text
  let names (refAny : Json) : Bool :=
    let field (name : String) : String := (member (asMap refAny) name).text
    reportKey policy (field "kind") (field "namespace") (field "name") = key
  if policy = "" || result = "" then none
  else if (nestedSlice res ["resources"]).any names then some result else none

/-- What a report says: its last result about the policy and the
resource. -/
def verdict (key : String) (rep : Resource) : Option String :=
  (nestedSlice (rawOf rep) ["results"]).reverse.findSome? (said key)

theorem lookup_foldl_insert {α : Type} (name : α → String) (value key : String) (refs : List α)
    (idx : GoMap String String) :
    (refs.foldl (fun idx ref => idx.insert (name ref) value) idx).lookup key
      = if refs.any fun ref => name ref = key then some value else idx.lookup key := by
  induction refs generalizing idx with
  | nil => rfl
  | cons ref refs ih =>
    rw [List.foldl_cons, ih]
    by_cases hrest : (refs.any fun ref => name ref = key) = true
    · rw [if_pos hrest, if_pos (by simp [hrest])]
    · rw [if_neg hrest]
      by_cases hkey : name ref = key
      · rw [if_pos (by simp [hkey]), hkey, AList.lookup_insert]
      · rw [if_neg (by simpa [hkey] using hrest), AList.lookup_insert_ne (Ne.symm hkey)]

section

variable (key : String)

theorem lookup_indexResult (idx : GoMap String String) (res : Json) :
    (indexResult idx res).lookup key = (said key res).or (idx.lookup key) := by
  unfold indexResult said
  by_cases hempty : ((member (asMap res) "policy").text = "" ||
      (member (asMap res) "result").text = "") = true
  · rw [if_pos hempty, if_pos hempty]
    rfl
  · rw [if_neg hempty, if_neg hempty, lookup_foldl_insert]
    split <;> rfl

/-- The last result wins, and what the index held before counts if
there is none. -/
theorem lookup_foldl_indexResult (results : List Json) (idx : GoMap String String) :
    (results.foldl indexResult idx).lookup key
      = (results.reverse.findSome? (said key)).or (idx.lookup key) := by
  induction results generalizing idx with
  | nil => rfl
  | cons res results ih =>
    rw [List.foldl_cons, ih, lookup_indexResult, List.reverse_cons, List.findSome?_append,
      Option.or_assoc, List.findSome?_singleton]

theorem findSome?_results (reports : List Resource) :
    (reports.flatMap fun rep => nestedSlice (rawOf rep) ["results"]).reverse.findSome? (said key)
      = reports.reverse.findSome? (verdict key) := by
  induction reports with
  | nil => rfl
  | cons rep reports ih =>
    rw [List.flatMap_cons, List.reverse_append, List.findSome?_append, ih, List.reverse_cons,
      List.findSome?_append]
    congr 1
    show verdict key rep = _
    simp

/-- The result that an index holds: that of the last cluster-wide
report with one, or else of the last other report. -/
theorem lookup_reportIndex (reports clusterReports : List Resource) :
    (reportIndex reports clusterReports).lookup key
      = (clusterReports.reverse.findSome? (verdict key)).or
          (reports.reverse.findSome? (verdict key)) := by
  unfold reportIndex
  rw [lookup_foldl_indexResult, lookup_foldl_indexResult, findSome?_results, findSome?_results]
  simp

end

/-- What the stored reports say about a policy and a resource,
whatever order they are read in. -/
structure Says (stored : Resource → Prop) (key : String) (v : Option String) : Prop where
  clusterWide : ∀ rep, Listed stored clusterReportFilter rep → ∀ w,
    verdict key rep = some w → v = some w
  namespaced : (∀ rep, Listed stored clusterReportFilter rep → verdict key rep = none) →
    ∀ rep, Listed stored reportFilter rep → ∀ w, verdict key rep = some w → v = some w
  silent : (∀ rep, Listed stored clusterReportFilter rep → verdict key rep = none) →
    (∀ rep, Listed stored reportFilter rep → verdict key rep = none) → v = none

variable {key : String}

theorem findSome?_reverse_eq_none {reports : List Resource} :
    reports.reverse.findSome? (verdict key) = none ↔ ∀ rep ∈ reports, verdict key rep = none := by
  simp

/-- Every index agrees with what the reports say. -/
theorem Says.lookup {stored : Resource → Prop} {v : Option String} {idx : GoMap String String}
    (h : Says stored key v) (hidx : Indexed stored stored idx) :
    idx.lookup key = v := by
  obtain ⟨reports, clusterReports, rfl, hreports, hclusterReports⟩ := hidx
  rw [lookup_reportIndex]
  cases hcluster : clusterReports.reverse.findSome? (verdict key) with
  | some w =>
    obtain ⟨rep, hrep, hw⟩ := List.exists_of_findSome?_eq_some hcluster
    exact (h.clusterWide rep (hclusterReports.only rep (List.mem_reverse.mp hrep)) w hw).symm
  | none =>
    have hnone : ∀ rep, Listed stored clusterReportFilter rep → verdict key rep = none :=
      fun rep hrep => findSome?_reverse_eq_none.mp hcluster rep (hclusterReports.all rep hrep)
    cases hother : reports.reverse.findSome? (verdict key) with
    | some w =>
      obtain ⟨rep, hrep, hw⟩ := List.exists_of_findSome?_eq_some hother
      have hlisted := hreports.only rep (List.mem_reverse.mp hrep)
      exact (h.namespaced hnone rep hlisted w hw).symm
    | none =>
      have hnone' : ∀ rep, Listed stored reportFilter rep → verdict key rep = none :=
        fun rep hrep => findSome?_reverse_eq_none.mp hother rep (hreports.all rep hrep)
      exact (h.silent hnone hnone').symm

/-! ### Running an extractor on a store -/

/-- The resources of a store. -/
def Stored (s : MemoryStore) (t : Resource) : Prop := ∃ id, s.resources.lookup id = some t

/-- The store answers a listing, in some order, and stays as it is. -/
def answersListing (filter : Filter) (s : MemoryStore)
    (reply : Except ListError (List Resource)) (s' : MemoryStore) : Prop :=
  s' = s ∧ ∃ range, reply = .ok (s.listResources range filter)

/-- A result the extractor may return for `r` on a store. -/
def Extracts (f : Resource → Lookup (List Edge)) (r : Resource) (s : MemoryStore)
    (result : Except ExtractError (List Edge)) : Prop :=
  ∃ s', (f r).run.Exec answersListing s result s'

theorem covers_listResources (range : MapOrder) (s : MemoryStore) (filter : Filter) :
    Covers (Listed (Stored s) filter) (Listed (Stored s) filter)
      (s.listResources range filter) where
  all _ ht := mem_listResources.mpr ht
  only _ ht := mem_listResources.mp ht

variable {f : Resource → Lookup (List Edge)} {s : MemoryStore} {r : Resource}
  {result : Except ExtractError (List Edge)}

/-- On a store, the bounds of an extractor are exact. -/
theorem Extracts.of_succeeds {post : List Edge → Prop}
    (hf : Program.Succeeds (Between (Stored s) (Stored s)) post (f r)) (h : Extracts f r s result) :
    ∃ edges, result = .ok edges ∧ post edges := by
  have hyields : (f r).run.Yields (Between (Stored s) (Stored s))
      fun result => ∃ edges, result = .ok edges ∧ post edges := hf
  have hanswers : ∀ filter s₁ reply s₂, s₁ = s → answersListing filter s₁ reply s₂ →
      s₂ = s ∧ Between (Stored s) (Stored s) filter reply := by
    rintro filter _ reply _ rfl ⟨rfl, range, rfl⟩
    exact ⟨rfl, _, rfl, covers_listResources range _ filter⟩
  obtain ⟨s', hexec⟩ := h
  have hpost := hyields.exec (fun s' => s' = s) hanswers rfl hexec
  exact hpost

/-- The answers in the order of insertion. -/
def answerListing (filter : Filter) (s : MemoryStore) :
    Except ListError (List Resource) × MemoryStore :=
  (.ok (s.listResources RangeOrder.inserted filter), s)

/-- A store answers every extractor. -/
theorem extracts_eval (h : ((f r).run.eval answerListing s).1 = result) :
    Extracts f r s result := by
  rw [← h]
  exact ⟨_, Program.exec_eval (fun _ _ => ⟨rfl, _, rfl⟩) (f r).run s⟩

/-! ### The edges of a resource -/

variable {edges : List Edge} {targets : Resource → Prop}

theorem mem_resolved {type : EdgeType} (h : Resolved r type targets targets edges) (e : Edge) :
    e ∈ edges ↔ ∃ t, targets t ∧ e = { fromID := r.ID, toID := t.ID, type := type } := by
  obtain ⟨l, rfl, hl⟩ := h
  constructor
  · intro he
    obtain ⟨t, ht, rfl⟩ := List.mem_map.mp he
    exact ⟨t, hl.only t ht, rfl⟩
  · rintro ⟨t, ht, rfl⟩
    exact List.mem_map.mpr ⟨t, hl.all t ht, rfl⟩

/-- Where an identifier belongs to one target, the policy extractors
miss none. -/
theorem mem_enforced {overlay : Resource → StringMap} (h : Enforced r overlay targets targets edges)
    (hid : ∀ t t', targets t → targets t' → t.ID = t'.ID → t = t') (e : Edge) :
    e ∈ edges ↔ ∃ t, targets t ∧ e = enforcement r overlay t := by
  obtain ⟨l, rfl, hl⟩ := h
  constructor
  · intro he
    obtain ⟨t, ht, rfl⟩ := List.mem_map.mp he
    exact ⟨t, hl.only t ht, rfl⟩
  · rintro ⟨t, ht, rfl⟩
    obtain ⟨t', ht', hsame⟩ := hl.all t ht
    obtain rfl := hid t' t (hl.only t' ht') ht hsame
    exact List.mem_map.mpr ⟨t', ht', rfl⟩

/-! ### Every order of the reports -/

/-- A listing may end with any of the resources it lists. -/
theorem exists_listed_last {filter : Filter} {rep : Resource} (h : Listed (Stored s) filter rep) :
    ∃ range l, s.listResources range filter = l ++ [rep] := by
  obtain ⟨⟨id, hlookup⟩, hlists⟩ := h
  have hmem : (⟨id, rep⟩ : (_ : String) × Resource) ∈ s.resources.entries :=
    AList.mem_lookup_iff.mp hlookup
  obtain ⟨before, after, hentries⟩ := List.append_of_mem hmem
  have hperm : (before ++ after ++ [Sigma.mk id rep]).Perm s.resources.entries := by
    rw [hentries, List.append_assoc]
    exact List.Perm.append_left before (List.perm_append_singleton _ after)
  obtain ⟨range, hrange⟩ := MapOrder.exists_order hperm
  refine ⟨range, ((before ++ after).map Sigma.snd).filter (lists filter), ?_⟩
  show ((((range _).order s.resources.entries).map Sigma.snd).filter (lists filter)) = _
  rw [hrange, List.map_append, List.filter_append]
  congr 1
  exact List.filter_cons_of_pos hlists

/-- The index for a choice of orders. -/
def orderedIndex (s : MemoryStore) (range range' : MapOrder) : GoMap String String :=
  reportIndex (s.listResources range reportFilter) (s.listResources range' clusterReportFilter)

theorem findSome?_listResources {filter : Filter} (range : MapOrder)
    (h : ∀ rep, Listed (Stored s) filter rep → verdict key rep = none) :
    (s.listResources range filter).reverse.findSome? (verdict key) = none :=
  findSome?_reverse_eq_none.mpr fun rep hrep => h rep (mem_listResources.mp hrep)

/-- What every order leads to is what the reports say. -/
theorem says_of_lookup {v : Option String}
    (h : ∀ range range', (orderedIndex s range range').lookup key = v) :
    Says (Stored s) key v where
  clusterWide rep hrep w hw := by
    obtain ⟨range', l, hlast⟩ := exists_listed_last hrep
    rw [← h RangeOrder.inserted range', orderedIndex, hlast, lookup_reportIndex]
    simp [hw]
  namespaced hnone rep hrep w hw := by
    obtain ⟨range, l, hlast⟩ := exists_listed_last hrep
    rw [← h range RangeOrder.inserted, orderedIndex, lookup_reportIndex,
      findSome?_listResources _ hnone, hlast]
    simp [hw]
  silent hnone hnone' := by
    rw [← h RangeOrder.inserted RangeOrder.inserted, orderedIndex, lookup_reportIndex,
      findSome?_listResources _ hnone, findSome?_listResources _ hnone']
    rfl

/-! ### Two stores that share a cluster -/

/-- The policy and network extractors. -/
def policyExtractors : List (Resource → Lookup (List Edge)) :=
  [kyverno, gatekeeper, selectsNP, allowsFrom, allowsTo]

/-- Whatever the extractor returns on the two stores, it is the same
set of edges. -/
def SameEdges (f : Resource → Lookup (List Edge)) (r : Resource) (s s' : MemoryStore) : Prop :=
  ∀ result result', Extracts f r s result → Extracts f r s' result' →
    ∃ edges edges', result = .ok edges ∧ result' = .ok edges' ∧ ∀ e, e ∈ edges ↔ e ∈ edges'

/-- Every edge the extractor returns leads to a resource of the
cluster of `r`. -/
def OwnCluster (f : Resource → Lookup (List Edge)) (r : Resource) (s : MemoryStore) : Prop :=
  ∀ edges, Extracts f r s (.ok edges) → ∀ e ∈ edges,
    ∃ t, Stored s t ∧ t.clusterID = r.clusterID ∧ e.toID = t.ID

/-- Extraction for `r` depends on the cluster of `r` only, and stays
in it. -/
structure Isolated (r : Resource) (s s' : MemoryStore) : Prop where
  same : ∀ f ∈ policyExtractors, SameEdges f r s s'
  own : ∀ f ∈ policyExtractors, OwnCluster f r s ∧ OwnCluster f r s'

/-- The two stores hold the same resources of a cluster. -/
def SameCluster (clusterID : String) (s s' : MemoryStore) : Prop :=
  ∀ t, t.clusterID = clusterID → (Stored s t ↔ Stored s' t)

/-- The resources are filed under their identifiers. -/
def Filed (s : MemoryStore) : Prop := ∀ id t, s.resources.lookup id = some t → t.ID = id

theorem filed_run (range : MapOrder) (ops : List MemoryStore.Op) :
    Filed (MemoryStore.run range ops) := by
  intro id t h
  rw [(run_represents range ops).resources id] at h
  exact (GraphState.run_wellFiled ops).filed id t h

theorem Filed.eq_of_ID (hs : Filed s) {t t' : Resource} (ht : Stored s t) (ht' : Stored s t')
    (hid : t.ID = t'.ID) : t = t' := by
  obtain ⟨id, hlookup⟩ := ht
  obtain ⟨id', hlookup'⟩ := ht'
  rw [← hs id t hlookup, hid, hs id' t' hlookup', hlookup'] at hlookup
  exact (Option.some.inj hlookup).symm

section Sharing

variable {r : Resource} {s s' : MemoryStore} {t : Resource} {stored : Resource → Prop}

/-- A filter with a cluster lists resources of that cluster only. -/
theorem Listed.clusterID_eq {filter : Filter} (hcluster : r.clusterID ≠ "")
    (hfilter : filter.clusterID = r.clusterID) (h : Listed stored filter t) :
    t.clusterID = r.clusterID := by
  have hlists := h.2
  unfold lists at hlists
  rw [hfilter] at hlists
  simp only [hcluster, decide_false, Bool.false_or, Bool.and_eq_true, decide_eq_true_eq] at hlists
  exact hlists.1

theorem listed_of_sameCluster (hcluster : r.clusterID ≠ "")
    (hsame : SameCluster r.clusterID s s') (filter : Filter) (t : Resource)
    (hfilter : filter.clusterID = r.clusterID) (h : Listed (Stored s) filter t) :
    Listed (Stored s') filter t :=
  ⟨(hsame t (h.clusterID_eq hcluster hfilter)).mp h.1, h.2⟩

theorem SameCluster.symm {clusterID : String} (h : SameCluster clusterID s s') :
    SameCluster clusterID s' s := fun t ht => (h t ht).symm

/-- What an extractor returns on a store, if its edges are those to
its targets, with the attributes of one of the overlays. -/
def Exact (f : Resource → Lookup (List Edge)) (r : Resource) (type : EdgeType)
    (overlays : (Resource → StringMap) → Prop) (targets : (Resource → Prop) → Resource → Prop)
    (s : MemoryStore) : Prop :=
  Program.Succeeds (Between (Stored s) (Stored s))
    (fun edges => ∃ overlay, overlays overlay ∧ ∀ e, e ∈ edges ↔ ∃ t, targets (Stored s) t ∧
      e = { fromID := r.ID, toID := t.ID, type := type, attributes := overlay t }) (f r)

variable {f : Resource → Lookup (List Edge)} {type : EdgeType}
  {overlays overlays' : (Resource → StringMap) → Prop}
  {targets : (Resource → Prop) → Resource → Prop}

theorem Exact.sameEdges (h : Exact f r type overlays targets s)
    (h' : Exact f r type overlays' targets s')
    (htargets : ∀ t, targets (Stored s) t ↔ targets (Stored s') t)
    (hsame : ∀ o o', overlays o → overlays' o' → ∀ t, targets (Stored s) t → o t = o' t) :
    SameEdges f r s s' := by
  intro result result' hrun hrun'
  obtain ⟨edges, rfl, overlay, hoverlay, hedges⟩ := hrun.of_succeeds h
  obtain ⟨edges', rfl, overlay', hoverlay', hedges'⟩ := hrun'.of_succeeds h'
  refine ⟨edges, edges', rfl, rfl, fun e => ?_⟩
  rw [hedges, hedges']
  refine exists_congr fun t => ?_
  rw [← htargets t]
  refine and_congr_right fun ht => ?_
  rw [hsame overlay overlay' hoverlay hoverlay' t ht]

theorem Exact.ownCluster (h : Exact f r type overlays targets s)
    (hown : ∀ t, targets (Stored s) t → Stored s t ∧ t.clusterID = r.clusterID) :
    OwnCluster f r s := by
  intro edges hrun e he
  obtain ⟨edges', heq, overlay, -, hedges⟩ := hrun.of_succeeds h
  cases heq
  obtain ⟨t, ht, rfl⟩ := (hedges e).mp he
  exact ⟨t, (hown t ht).1, (hown t ht).2, rfl⟩

/-! ### The extractors whose queries carry the cluster -/

theorem exact_selectsNP :
    Exact selectsNP r .selectsNP (· = fun _ => []) (fun stored => PolicySelects stored r) s :=
  selectsNP_succeeds.mono fun _ hedges => ⟨_, rfl, mem_resolved hedges⟩

theorem exact_allowsFrom :
    Exact allowsFrom r .allowsFrom (· = fun _ => [])
      (fun stored => PolicyAllows stored r "Ingress" "ingress" "from") s :=
  allows_succeeds.mono fun _ hedges => ⟨_, rfl, mem_resolved hedges⟩

theorem exact_allowsTo :
    Exact allowsTo r .allowsTo (· = fun _ => [])
      (fun stored => PolicyAllows stored r "Egress" "egress" "to") s :=
  allows_succeeds.mono fun _ hedges => ⟨_, rfl, mem_resolved hedges⟩

/-- Two targets of a policy have different identifiers. -/
theorem Enforces.eq_of_ID (hs : Filed s) {filters : List Filter} (t t' : Resource)
    (ht : Enforces (Stored s) filters t) (ht' : Enforces (Stored s) filters t')
    (hid : t.ID = t'.ID) : t = t' := by
  obtain ⟨_, _, hlisted⟩ := ht
  obtain ⟨_, _, hlisted'⟩ := ht'
  exact hs.eq_of_ID hlisted.1 hlisted'.1 hid

theorem exact_gatekeeper (hs : Filed s) :
    Exact gatekeeper r .enforces (· = violationOverlay (constraintViolations r))
      (fun stored => Enforces stored (constraintFilters r)) s :=
  gatekeeper_succeeds.mono fun _ hedges => ⟨_, rfl, mem_enforced hedges (Enforces.eq_of_ID hs)⟩

/-- Targets that depend on listings of the cluster only. -/
structure OfCluster (r : Resource) (targets : (Resource → Prop) → Resource → Prop) : Prop where
  mono : ∀ lo hi : Resource → Prop,
    (∀ filter t, filter.clusterID = r.clusterID → Listed lo filter t → Listed hi filter t) →
      ∀ t, targets lo t → targets hi t
  stored : ∀ (stored : Resource → Prop) t, targets stored t → stored t

theorem ofCluster_policySelects : OfCluster r fun stored => PolicySelects stored r where
  mono _ _ h _ ht := ht.mono h
  stored _ _ ht := ht.2.1.1

theorem ofCluster_policyAllows (policyType ruleField peerField : String) :
    OfCluster r fun stored => PolicyAllows stored r policyType ruleField peerField where
  mono _ _ h _ ht := ht.mono h
  stored _ _ ht := by
    obtain ⟨_, _, _, _, hpeer⟩ := ht
    exact hpeer.stored

theorem ofCluster_enforces {filters : List Filter}
    (hfilters : ∀ filter ∈ filters, filter.clusterID = r.clusterID) :
    OfCluster r fun stored => Enforces stored filters where
  mono _ _ h _ ht := ht.mono h hfilters
  stored _ _ ht := by
    obtain ⟨_, _, hlisted⟩ := ht
    exact hlisted.1

section OfCluster

variable {targets : (Resource → Prop) → Resource → Prop} (h : OfCluster r targets)
  (hcluster : r.clusterID ≠ "")

include h hcluster

theorem OfCluster.iff (hsame : SameCluster r.clusterID s s') (t : Resource) :
    targets (Stored s) t ↔ targets (Stored s') t :=
  ⟨h.mono _ _ (listed_of_sameCluster hcluster hsame) t,
    h.mono _ _ (listed_of_sameCluster hcluster hsame.symm) t⟩

theorem OfCluster.own (t : Resource) (ht : targets (Stored s) t) :
    Stored s t ∧ t.clusterID = r.clusterID :=
  -- The targets do not change when the rest of the store is taken away.
  h.stored _ t (h.mono _ (fun t => Stored s t ∧ t.clusterID = r.clusterID)
    (fun _ _ hfilter hlisted =>
      ⟨⟨hlisted.1, hlisted.clusterID_eq hcluster hfilter⟩, hlisted.2⟩) t ht)

end OfCluster

/-! ### Kyverno policies -/

/-- The key under which a report speaks about the policy and a
resource. -/
def resultKey (r t : Resource) : String := reportKey r.name t.kind t.ns t.name

variable {idx idx' : GoMap String String}

/-- An edge shows what the index holds. -/
theorem reportOverlay_eq_iff :
    reportOverlay r.name idx t = reportOverlay r.name idx' t ↔
      idx.lookup (resultKey r t) = idx'.lookup (resultKey r t) := by
  unfold reportOverlay resultKey
  cases idx.lookup (reportKey r.name t.kind t.ns t.name) <;>
    cases idx'.lookup (reportKey r.name t.kind t.ns t.name) <;> simp

/-- The results of a policy are those of some index. -/
def FromIndex (r : Resource) (s : MemoryStore) (overlay : Resource → StringMap) : Prop :=
  isKyvernoPolicy r = true →
    ∃ idx, Indexed (Stored s) (Stored s) idx ∧ overlay = reportOverlay r.name idx

theorem exact_kyverno (hs : Filed s) :
    Exact kyverno r .enforces (FromIndex r s)
      (fun stored => Enforces stored (kyvernoTargets r)) s := by
  refine kyverno_succeeds.mono fun edges hedges => ?_
  obtain ⟨overlay, hedges, hindex⟩ := hedges
  exact ⟨overlay, hindex, mem_enforced hedges (Enforces.eq_of_ID hs)⟩

/-- And every index is used by some execution. -/
theorem extracts_kyverno_ordered (hs : Filed s) (hpolicy : isKyvernoPolicy r = true)
    (range range' : MapOrder) :
    ∃ edges, Extracts kyverno r s (.ok edges) ∧
      ∀ e, e ∈ edges ↔ ∃ t, Enforces (Stored s) (kyvernoTargets r) t ∧
        e = enforcement r (reportOverlay r.name (orderedIndex s range range')) t := by
  have htargets : kyvernoTargets r = kyvernoFilters r := if_pos hpolicy
  obtain ⟨s', hrest⟩ := extracts_eval (r := r) (s := s)
    (f := fun r => enforce r (reportOverlay r.name (orderedIndex s range range')) []
      (kyvernoFilters r)) rfl
  obtain ⟨edges, hedges, htargeted⟩ :=
    Extracts.of_succeeds (f := fun r => enforce r
      (reportOverlay r.name (orderedIndex s range range')) [] (kyvernoFilters r))
      enforce_nil_succeeds ⟨s', hrest⟩
  rw [hedges] at hrest
  have hbuild : buildKyvernoReportIndex.Exec answersListing s (orderedIndex s range range') s :=
    ⟨_, s, ⟨rfl, range, rfl⟩, _, s, ⟨rfl, range', rfl⟩, rfl, rfl⟩
  refine ⟨edges, ⟨s', ?_⟩, ?_⟩
  · unfold kyverno
    rw [if_neg (by simp [hpolicy])]
    exact hbuild.lift_bind hrest
  · rw [htargets]
    exact mem_enforced htargeted (Enforces.eq_of_ID hs)

/-- A resource without a policy has no targets. -/
theorem isKyvernoPolicy_of_enforces (h : Enforces stored (kyvernoTargets r) t) :
    isKyvernoPolicy r = true := by
  obtain ⟨filter, hfilter, _⟩ := h
  unfold kyvernoTargets at hfilter
  by_contra hpolicy
  rw [if_neg hpolicy] at hfilter
  exact absurd hfilter List.not_mem_nil

/-- Both stores say the same about every target of the policy. -/
def SameResults (r : Resource) (s s' : MemoryStore) : Prop :=
  ∀ t, Enforces (Stored s) (kyvernoTargets r) t →
    ∃ v, Says (Stored s) (resultKey r t) v ∧ Says (Stored s') (resultKey r t) v

theorem SameResults.overlay_eq (h : SameResults r s s') (o o' : Resource → StringMap)
    (ho : FromIndex r s o) (ho' : FromIndex r s' o') (t : Resource)
    (ht : Enforces (Stored s) (kyvernoTargets r) t) : o t = o' t := by
  obtain ⟨v, hvoice, hvoice'⟩ := h t ht
  obtain ⟨idx, hidx, rfl⟩ := ho (isKyvernoPolicy_of_enforces ht)
  obtain ⟨idx', hidx', rfl⟩ := ho' (isKyvernoPolicy_of_enforces ht)
  exact reportOverlay_eq_iff.mpr ((hvoice.lookup hidx).trans (hvoice'.lookup hidx').symm)

theorem sameResults_of_sameEdges (hcluster : r.clusterID ≠ "")
    (hsame : SameCluster r.clusterID s s') (hs : Filed s) (hs' : Filed s')
    (h : SameEdges kyverno r s s') : SameResults r s s' := by
  intro t ht
  have hpolicy := isKyvernoPolicy_of_enforces ht
  have htargets := (ofCluster_enforces fun _ => clusterID_of_mem_kyvernoTargets).iff
    (r := r) hcluster hsame
  -- Two executions, each with its own order, put the same result on the edge to `t`.
  have hlookup : ∀ range₁ range₂ range₁' range₂',
      (orderedIndex s range₁ range₂).lookup (resultKey r t)
        = (orderedIndex s' range₁' range₂').lookup (resultKey r t) := by
    intro range₁ range₂ range₁' range₂'
    obtain ⟨edges, hrun, hedges⟩ := extracts_kyverno_ordered hs hpolicy range₁ range₂
    obtain ⟨edges', hrun', hedges'⟩ := extracts_kyverno_ordered hs' hpolicy range₁' range₂'
    obtain ⟨_, _, heq, heq', hiff⟩ := h _ _ hrun hrun'
    cases heq
    cases heq'
    have hmem := (hiff _).mp ((hedges _).mpr ⟨t, ht, rfl⟩)
    obtain ⟨t', ht', hedge⟩ := (hedges' _).mp hmem
    have hid : t.ID = t'.ID := congrArg Edge.toID hedge
    obtain rfl := Enforces.eq_of_ID hs' t t' ((htargets t).mp ht) ht' hid
    exact reportOverlay_eq_iff.mp (congrArg Edge.attributes hedge)
  refine ⟨(orderedIndex s' RangeOrder.inserted RangeOrder.inserted).lookup (resultKey r t),
    says_of_lookup fun range range' => hlookup range range' _ _,
    says_of_lookup fun range range' => ?_⟩
  rw [← hlookup RangeOrder.inserted RangeOrder.inserted range range', hlookup]

/-! ### Isolation -/

/-- The extractors whose edges are those to their targets are
isolated, if the attributes of the edges are. -/
theorem isolated_of_exact (h : Exact f r type overlays targets s)
    (h' : Exact f r type overlays' targets s') (htargets : OfCluster r targets)
    (hcluster : r.clusterID ≠ "") (hsame : SameCluster r.clusterID s s')
    (hoverlays : ∀ o o', overlays o → overlays' o' → ∀ t, targets (Stored s) t → o t = o' t) :
    SameEdges f r s s' ∧ OwnCluster f r s ∧ OwnCluster f r s' :=
  ⟨h.sameEdges h' (htargets.iff hcluster hsame) hoverlays, h.ownCluster (htargets.own hcluster),
    h'.ownCluster (htargets.own hcluster)⟩

end Sharing

/-- Take two stores that hold the same resources of the cluster of
`r`. Extraction for `r` does not tell them apart and stays in the
cluster exactly if the policy reports of the two stores, those of
all clusters, say the same about every resource that `r` applies to. -/
theorem isolated_iff (range range' : MapOrder) (ops ops' : List MemoryStore.Op) (r : Resource)
    (hcluster : r.clusterID ≠ "")
    (hsame : SameCluster r.clusterID (MemoryStore.run range ops) (MemoryStore.run range' ops')) :
    Isolated r (MemoryStore.run range ops) (MemoryStore.run range' ops')
      ↔ SameResults r (MemoryStore.run range ops) (MemoryStore.run range' ops') := by
  have hs := filed_run range ops
  have hs' := filed_run range' ops'
  constructor
  · intro h
    have hkyverno := h.same kyverno (by simp [policyExtractors])
    exact sameResults_of_sameEdges hcluster hsame hs hs' hkyverno
  · intro h
    have hall : ∀ f ∈ policyExtractors,
        SameEdges f r (MemoryStore.run range ops) (MemoryStore.run range' ops') ∧
          OwnCluster f r (MemoryStore.run range ops) ∧
          OwnCluster f r (MemoryStore.run range' ops') := by
      intro f hf
      simp only [policyExtractors, List.mem_cons, List.not_mem_nil, or_false] at hf
      rcases hf with rfl | rfl | rfl | rfl | rfl
      · exact isolated_of_exact (exact_kyverno hs) (exact_kyverno hs')
          (ofCluster_enforces fun _ => clusterID_of_mem_kyvernoTargets) hcluster hsame h.overlay_eq
      · exact isolated_of_exact (exact_gatekeeper hs) (exact_gatekeeper hs')
          (ofCluster_enforces fun _ => clusterID_of_mem_constraintFilters) hcluster hsame
          fun _ _ ho ho' _ _ => ho' ▸ congrFun ho _
      · exact isolated_of_exact exact_selectsNP exact_selectsNP ofCluster_policySelects hcluster
          hsame fun _ _ ho ho' _ _ => ho' ▸ congrFun ho _
      · exact isolated_of_exact exact_allowsFrom exact_allowsFrom (ofCluster_policyAllows _ _ _)
          hcluster hsame fun _ _ ho ho' _ _ => ho' ▸ congrFun ho _
      · exact isolated_of_exact exact_allowsTo exact_allowsTo (ofCluster_policyAllows _ _ _)
          hcluster hsame fun _ _ ho ho' _ _ => ho' ▸ congrFun ho _
    exact ⟨fun f hf => (hall f hf).1, fun f hf => (hall f hf).2⟩

/-! ### A report of another cluster -/

/-- A policy of the cluster `a` that validates Pods. -/
def podPolicy : Resource :=
  { kind := "ClusterPolicy", name := "pol", ns := "", groupVersion := "kyverno.io/v1"
    clusterID := "a"
    raw := some [("spec", .obj [("rules", .arr [.obj [("validate", .obj []),
      ("match", .obj [("any", .arr [.obj [("resources", .obj [("kinds",
        .arr [.str "Pod"])])]])])]])])] }

/-- The Pod `d/p` of a cluster. -/
def podOf (clusterID : String) : Resource :=
  { kind := "Pod", name := "p", ns := "d", groupVersion := "v1", clusterID := clusterID }

/-- A report of the cluster `b` about its own policy `pol` and its
own Pod `d/p`. -/
def foreignReport : Resource :=
  { kind := "PolicyReport", name := "rep", ns := "d", clusterID := "b"
    groupVersion := "wgpolicyk8s.io/v1alpha2"
    raw := some [("results", .arr [.obj [("policy", .str "pol"), ("result", .str "fail"),
      ("resources", .arr [.obj [("kind", .str "Pod"), ("namespace", .str "d"),
        ("name", .str "p")]])]])] }

/-- The store with the Pod of the cluster `a` and what another
cluster brought. -/
def storeWith (foreign : List Resource) : MemoryStore :=
  MemoryStore.run RangeOrder.inserted
    (.upsertResource (podOf "a") :: foreign.map MemoryStore.Op.upsertResource)

theorem stored_iff_mem {t : Resource} :
    Stored s t ↔ t ∈ GoMap.values RangeOrder.inserted s.resources :=
  (GoMap.mem_values RangeOrder.inserted s.resources).symm

/-- A resource of another cluster does not change the cluster `a`. -/
theorem sameCluster_foreign {t : Resource} (hcluster : t.clusterID = "b")
    (hvalues : GoMap.values RangeOrder.inserted (storeWith [t]).resources = [t, podOf "a"]) :
    SameCluster "a" (storeWith []) (storeWith [t]) := by
  intro m hm
  have hone : GoMap.values RangeOrder.inserted (storeWith []).resources = [podOf "a"] := rfl
  rw [stored_iff_mem, stored_iff_mem, hone, hvalues]
  constructor
  · exact fun h => List.mem_cons_of_mem _ h
  · intro h
    cases List.mem_cons.mp h with
    | inl heq =>
      rw [heq, hcluster] at hm
      exact absurd hm (by decide)
    | inr hmem => exact hmem

/-- The report of the cluster `b` changes the edge that the policy
of the cluster `a` has. -/
theorem foreign_report_not_isolated :
    podPolicy.clusterID = "a" ∧
      SameCluster "a" (storeWith []) (storeWith [foreignReport]) ∧
      foreignReport.clusterID = "b" ∧
      Extracts kyverno podPolicy (storeWith [])
        (.ok [{ fromID := "a:/ClusterPolicy/pol", toID := "a:d/Pod/p", type := .enforces }]) ∧
      Extracts kyverno podPolicy (storeWith [foreignReport])
        (.ok [{ fromID := "a:/ClusterPolicy/pol", toID := "a:d/Pod/p", type := .enforces
                attributes := [("result", "fail")] }]) ∧
      ¬ Isolated podPolicy (storeWith []) (storeWith [foreignReport]) := by
  have hplain : Extracts kyverno podPolicy (storeWith [])
      (.ok [{ fromID := "a:/ClusterPolicy/pol", toID := "a:d/Pod/p", type := .enforces }]) :=
    extracts_eval (by decide +kernel)
  have hforeign : Extracts kyverno podPolicy (storeWith [foreignReport])
      (.ok [{ fromID := "a:/ClusterPolicy/pol", toID := "a:d/Pod/p", type := .enforces
              attributes := [("result", "fail")] }]) :=
    extracts_eval (by decide +kernel)
  refine ⟨rfl, sameCluster_foreign rfl rfl, rfl, hplain, hforeign, ?_⟩
  intro h
  obtain ⟨_, _, heq, heq', hiff⟩ := h.same kyverno (by simp [policyExtractors]) _ _ hplain hforeign
  cases heq
  cases heq'
  have hmem := (hiff _).mp List.mem_cons_self
  revert hmem
  decide

/-- A Pod of another cluster changes nothing. -/
theorem foreign_pod_isolated :
    Isolated podPolicy (storeWith []) (storeWith [podOf "b"]) := by
  refine (isolated_iff RangeOrder.inserted RangeOrder.inserted [.upsertResource (podOf "a")]
    [.upsertResource (podOf "a"), .upsertResource (podOf "b")] podPolicy (by decide)
    (sameCluster_foreign rfl rfl)).mpr ?_
  intro t ht
  -- Neither store holds a report.
  have hnone : ∀ s : MemoryStore,
      (∀ m ∈ GoMap.values RangeOrder.inserted s.resources, m.kind = "Pod") →
        Says (Stored s) (resultKey podPolicy t) none := by
    intro s hpods
    have hkind : ∀ filter rep, filter.kind ≠ "" → filter.kind ≠ "Pod" →
        ¬ Listed (Stored s) filter rep := by
      intro filter rep hne hpod hlisted
      have hlists := hlisted.2
      simp [lists, Filter.accepts, hne, hpods rep (stored_iff_mem.mp hlisted.1),
        Ne.symm hpod] at hlists
    refine ⟨fun rep hrep => ?_, fun _ rep hrep => ?_, fun _ _ => rfl⟩
    · exact absurd hrep (hkind _ rep (by decide) (by decide))
    · exact absurd hrep (hkind _ rep (by decide) (by decide))
  exact ⟨none, hnone _ (by decide +kernel), hnone _ (by decide +kernel)⟩

end KubeAtlas.Proofs.Extractor
