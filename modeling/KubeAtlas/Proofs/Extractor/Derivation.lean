import KubeAtlas.Extractor.Registry

/-!
# `KubeAtlas.Proofs.Extractor.Derivation`: what selectors and policies resolve to

The extractors that query the store do so several times, and the
store may change in between. Each of them is bounded here from both
sides. If every reply lists at least the matching resources of `lo`
and at most those of `hi`, then the extractor does not fail, it
finds every target that `lo` has, and every target it finds is one
that `hi` has. On a store that does not change `lo` and `hi` are the
same, and the targets are exact.

`ServiceSelects`, `PolicySelects`, `PolicyAllows` and `Enforces` say
what the targets are, in terms of a set of stored resources. The two
policy extractors keep one resource for each identifier, so for them
the first bound is up to identifiers.
-/

set_option autoImplicit false

namespace KubeAtlas.Proofs.Extractor

open KubeAtlas.Extractor KubeAtlas.Graph Lib
open KubeAtlas.Store (Filter MemoryStore)

/-- The resources that a filter lists. -/
def lists (filter : Filter) (t : Resource) : Bool :=
  (filter.clusterID = "" || t.clusterID = filter.clusterID) && filter.accepts t

theorem mem_listResources {range : MapOrder} {s : MemoryStore} {filter : Filter} {t : Resource} :
    t ∈ s.listResources range filter
      ↔ (∃ id, s.resources.lookup id = some t) ∧ lists filter t = true := by
  unfold MemoryStore.listResources
  rw [List.mem_filter, GoMap.mem_values]
  rfl

/-! ### Targets -/

section Targets

variable (stored : Resource → Prop) (r : Resource)

/-- What a filter lists. -/
def Listed (filter : Filter) (t : Resource) : Prop := stored t ∧ lists filter t = true

/-- What a network policy applies to. -/
def PolicySelects (t : Resource) : Prop :=
  r.kind = "NetworkPolicy" ∧ Listed stored { ns := r.ns, clusterID := r.clusterID } t ∧
    podLikeMatches t (nestedStringMap (rawOf r) ["spec", "podSelector", "matchLabels"]) = true

/-- The namespaces a peer selects. -/
def PeerNamespace (peer : Object) (t : Resource) : Prop :=
  Listed stored { kind := "Namespace", clusterID := r.clusterID } t ∧
    matchLabelSelector t.labels (nestedStringMap peer ["namespaceSelector", "matchLabels"]) = true

/-- The pods and workloads a peer selects in one namespace. -/
def PeerPod (peer : Object) (ns : String) (t : Resource) : Prop :=
  Listed stored { ns := ns, clusterID := r.clusterID } t ∧
    podLikeMatches t (nestedStringMap peer ["podSelector", "matchLabels"]) = true

/-- What a peer of a network policy stands for. -/
def PeerTarget (peer : Object) (t : Resource) : Prop :=
  match present peer "podSelector", present peer "namespaceSelector" with
  | false, false => False
  | false, true => PeerNamespace stored r peer t
  | true, false => PeerPod stored r peer r.ns t
  | true, true => ∃ n, PeerNamespace stored r peer n ∧ PeerPod stored r peer n.name t

/-- What a network policy allows traffic from or to. -/
def PolicyAllows (policyType ruleField peerField : String) (t : Resource) : Prop :=
  r.kind = "NetworkPolicy" ∧ hasPolicyType r policyType = true ∧
    ∃ peer ∈ policyPeers r ruleField peerField, PeerTarget stored r peer t

/-- What a policy with some filters applies to. -/
def Enforces (filters : List Filter) (t : Resource) : Prop :=
  ∃ filter ∈ filters, Listed stored filter t

end Targets

/-! ### More resources, more targets -/

section Mono

variable {lo hi : Resource → Prop} {r : Resource}
  (h : ∀ filter t, filter.clusterID = r.clusterID → Listed lo filter t → Listed hi filter t)

include h

variable {t : Resource}

theorem PolicySelects.mono (ht : PolicySelects lo r t) : PolicySelects hi r t :=
  ⟨ht.1, h _ t rfl ht.2.1, ht.2.2⟩

variable {peer : Object}

theorem PeerNamespace.mono (ht : PeerNamespace lo r peer t) :
    PeerNamespace hi r peer t := ⟨h _ t rfl ht.1, ht.2⟩

theorem PeerPod.mono {ns : String} (ht : PeerPod lo r peer ns t) :
    PeerPod hi r peer ns t := ⟨h _ t rfl ht.1, ht.2⟩

theorem PeerTarget.mono (ht : PeerTarget lo r peer t) :
    PeerTarget hi r peer t := by
  unfold PeerTarget at ht ⊢
  cases hpod : present peer "podSelector" with
  | false =>
    cases hns : present peer "namespaceSelector" with
    | false => simp [hpod, hns] at ht
    | true => exact PeerNamespace.mono h (by simpa [hpod, hns] using ht)
  | true =>
    cases hns : present peer "namespaceSelector" with
    | false => exact PeerPod.mono h (by simpa [hpod, hns] using ht)
    | true =>
      have ht : ∃ n, PeerNamespace lo r peer n ∧ PeerPod lo r peer n.name t := by
        simpa [hpod, hns] using ht
      obtain ⟨n, hn, hp⟩ := ht
      exact ⟨n, hn.mono h, hp.mono h⟩

theorem PolicyAllows.mono {policyType ruleField peerField : String}
    (ht : PolicyAllows lo r policyType ruleField peerField t) :
    PolicyAllows hi r policyType ruleField peerField t := by
  obtain ⟨hkind, htype, peer, hpeer, hpt⟩ := ht
  exact ⟨hkind, htype, peer, hpeer, hpt.mono h⟩

theorem Enforces.mono {filters : List Filter}
    (hfilters : ∀ filter ∈ filters, filter.clusterID = r.clusterID) (ht : Enforces lo filters t) :
    Enforces hi filters t := by
  obtain ⟨filter, hfilter, hlisted⟩ := ht
  exact ⟨filter, hfilter, h filter t (hfilters filter hfilter) hlisted⟩

end Mono

theorem PeerTarget.stored {stored : Resource → Prop} {r t : Resource} {peer : Object}
    (ht : PeerTarget stored r peer t) : stored t := by
  unfold PeerTarget at ht
  cases hpod : present peer "podSelector" with
  | false =>
    cases hns : present peer "namespaceSelector" with
    | false => simp [hpod, hns] at ht
    | true =>
      have ht : PeerNamespace stored r peer t := by simpa [hpod, hns] using ht
      exact ht.1.1
  | true =>
    cases hns : present peer "namespaceSelector" with
    | false =>
      have ht : PeerPod stored r peer r.ns t := by simpa [hpod, hns] using ht
      exact ht.1.1
    | true =>
      have ht : ∃ n, PeerNamespace stored r peer n ∧ PeerPod stored r peer n.name t := by
        simpa [hpod, hns] using ht
      obtain ⟨n, _, hp⟩ := ht
      exact hp.1.1

variable {r : Resource}

/-- The filters of a policy carry its cluster. -/
theorem clusterID_of_mem_policyFilters {kinds namespaces : List String} {labels : StringMap}
    {filter : Filter} (h : filter ∈ policyFilters r kinds namespaces labels) :
    filter.clusterID = r.clusterID := by
  obtain ⟨kind, _, hfilter⟩ := List.mem_flatMap.mp h
  obtain ⟨ns, _, rfl⟩ := List.mem_map.mp hfilter
  rfl

theorem clusterID_of_mem_constraintFilters {filter : Filter} (h : filter ∈ constraintFilters r) :
    filter.clusterID = r.clusterID := by
  unfold constraintFilters at h
  split at h
  · exact absurd h List.not_mem_nil
  · exact clusterID_of_mem_policyFilters h

/-- The filters of a Kyverno policy; none for anything else. -/
def kyvernoTargets (r : Resource) : List Filter :=
  if isKyvernoPolicy r then kyvernoFilters r else []

theorem clusterID_of_mem_kyvernoTargets {filter : Filter} (h : filter ∈ kyvernoTargets r) :
    filter.clusterID = r.clusterID := by
  unfold kyvernoTargets at h
  split at h
  · obtain ⟨rule, _, hrule⟩ := List.mem_flatMap.mp h
    obtain ⟨desc, _, hdesc⟩ := List.mem_flatMap.mp hrule
    exact clusterID_of_mem_policyFilters hdesc
  · exact absurd h List.not_mem_nil

/-! ### Replies between two bounds -/

section Bounds

variable {lo hi : Resource → Prop}

/-- A list with all of `lower`, and nothing outside `upper`. -/
structure Covers {β : Type} (lower upper : β → Prop) (l : List β) : Prop where
  all : ∀ b, lower b → b ∈ l
  only : ∀ b ∈ l, upper b

/-- A reply that lists at least what `lo` has, and at most what `hi`
has. -/
def Between (lo hi : Resource → Prop) (filter : Filter)
    (reply : Except ListError (List Resource)) : Prop :=
  ∃ l, reply = .ok l ∧ Covers (Listed lo filter) (Listed hi filter) l

theorem listing_succeeds {wrap : ListError → ExtractError} {filter : Filter} :
    Program.Succeeds (Between lo hi) (Covers (Listed lo filter) (Listed hi filter))
      (listing wrap filter) := by
  intro reply hreply
  obtain ⟨l, rfl, hl⟩ := hreply
  exact ⟨l, rfl, hl⟩

variable {β : Type} {l : List β} {lower upper : β → Prop}

/-- A filtered list covers the filtered bounds. -/
theorem Covers.filter (h : Covers lower upper l) (p : β → Bool) :
    Covers (fun b => lower b ∧ p b = true) (fun b => upper b ∧ p b = true) (l.filter p) where
  all b hb := List.mem_filter.mpr ⟨h.all b hb.1, hb.2⟩
  only b hb := ⟨h.only b (List.mem_filter.mp hb).1, (List.mem_filter.mp hb).2⟩

theorem Covers.mono {lower upper lower' upper' : β → Prop} (h : Covers lower upper l)
    (hlower : ∀ b, lower' b → lower b) (hupper : ∀ b, upper b → upper' b) :
    Covers lower' upper' l where
  all b hb := h.all b (hlower b hb)
  only b hb := hupper b (h.only b hb)

theorem Covers.append {lower upper lower' upper' : β → Prop} {l l' : List β}
    (h : Covers lower upper l) (h' : Covers lower' upper' l') :
    Covers (fun b => lower b ∨ lower' b) (fun b => upper b ∨ upper' b) (l ++ l') where
  all b hb := List.mem_append.mpr (hb.imp (h.all b) (h'.all b))
  only b hb := (List.mem_append.mp hb).imp (h.only b) (h'.only b)

/-- Nothing, where there is nothing to find. -/
theorem covers_nil (h : ∀ b, ¬ lower b) :
    Covers lower upper [] where
  all b hb := absurd hb (h b)
  only _ hb := absurd hb List.not_mem_nil

/-- A loop that appends what its rounds find. Each round returns its
targets in the form `g`: as they are, or as edges. -/
theorem concat_succeeds {α β γ : Type} {g : β → γ} {f : α → Lookup (List γ)}
    {lower upper : α → β → Prop} {xs : List α}
    (h : ∀ x, Program.Succeeds (Between lo hi)
      (fun out => ∃ l, out = l.map g ∧ Covers (lower x) (upper x) l) (f x)) :
    Program.Succeeds (Between lo hi)
      (fun out => ∃ l, out = l.map g ∧
        Covers (fun b => ∃ x ∈ xs, lower x b) (fun b => ∃ x ∈ xs, upper x b) l)
      (concat f xs) := by
  induction xs with
  | nil =>
    refine Program.succeeds_pure ⟨[], rfl, covers_nil fun b hb => ?_⟩
    obtain ⟨_, hx, _⟩ := hb
    exact absurd hx List.not_mem_nil
  | cons x xs ih =>
    refine Program.Succeeds.bind ((h x).mono fun found hfound => ?_)
    refine Program.Succeeds.bind (ih.mono fun rest hrest => ?_)
    obtain ⟨l, rfl, hl⟩ := hfound
    obtain ⟨l', rfl, hl'⟩ := hrest
    refine Program.succeeds_pure ⟨l ++ l', (List.map_append ..).symm, ?_⟩
    refine (hl.append hl').mono (fun b hb => ?_) (fun b hb => ?_)
    · simpa using hb
    · simpa using hb

end Bounds

/-! ### Services and network policies -/

section Network

variable {lo hi : Resource → Prop} {r : Resource}

/-- The edges of an extractor that found its targets. -/
def Resolved (r : Resource) (type : EdgeType) (lower upper : Resource → Prop)
    (edges : List Edge) : Prop :=
  ∃ l, edges = edgesTo r type l ∧ Covers lower upper l

variable {type : EdgeType}

theorem resolved_nil {lower upper : Resource → Prop} (h : ∀ t, ¬ lower t) :
    Resolved r type lower upper [] := ⟨[], rfl, covers_nil h⟩

theorem selectsNP_succeeds :
    Program.Succeeds (Between lo hi)
      (Resolved r .selectsNP (PolicySelects lo r) (PolicySelects hi r)) (selectsNP r) := by
  unfold selectsNP
  by_cases hkind : r.kind = "NetworkPolicy"
  · rw [if_neg (not_not.mpr hkind)]
    refine Program.Succeeds.bind (listing_succeeds.mono fun l hl => ?_)
    refine Program.succeeds_pure ⟨_, rfl, (hl.filter _).mono (fun t ht => ?_) fun t ht => ?_⟩
    · exact ht.2
    · exact ⟨hkind, ht⟩
  · rw [if_pos hkind]
    exact Program.succeeds_pure (resolved_nil fun t ht => hkind ht.1)

variable {peer : Object}

theorem matchingNamespaces_succeeds :
    Program.Succeeds (Between lo hi) (Covers (PeerNamespace lo r peer) (PeerNamespace hi r peer))
      (matchingNamespaces r (nestedStringMap peer ["namespaceSelector", "matchLabels"])) :=
  Program.Succeeds.bind (listing_succeeds.mono fun _ hl => Program.succeeds_pure (hl.filter _))

theorem matchingPods_succeeds {ns : String} :
    Program.Succeeds (Between lo hi) (Covers (PeerPod lo r peer ns) (PeerPod hi r peer ns))
      (matchingPods r (nestedStringMap peer ["podSelector", "matchLabels"]) ns) :=
  Program.Succeeds.bind (listing_succeeds.mono fun _ hl => Program.succeeds_pure (hl.filter _))

theorem peerEdges_succeeds :
    Program.Succeeds (Between lo hi)
      (Resolved r type (PeerTarget lo r peer) (PeerTarget hi r peer))
      (peerEdges r peer type) := by
  unfold peerEdges PeerTarget
  cases present peer "podSelector" with
  | false =>
    cases present peer "namespaceSelector" with
    | false => exact Program.succeeds_pure (resolved_nil fun _ h => h)
    | true =>
      exact Program.Succeeds.bind (matchingNamespaces_succeeds.mono fun l hl =>
        Program.succeeds_pure ⟨l, rfl, hl⟩)
  | true =>
    cases present peer "namespaceSelector" with
    | false =>
      exact Program.Succeeds.bind (matchingPods_succeeds.mono fun l hl =>
        Program.succeeds_pure ⟨l, rfl, hl⟩)
    | true =>
      refine Program.Succeeds.bind
        (matchingNamespaces_succeeds.mono fun namespaces hns => ?_)
      have hround : ∀ n : Resource, Program.Succeeds (Between lo hi)
          (fun out => ∃ l, out = l.map id ∧
            Covers (PeerPod lo r peer n.name) (PeerPod hi r peer n.name) l)
          (matchingPods r (nestedStringMap peer ["podSelector", "matchLabels"]) n.name) :=
        fun n => matchingPods_succeeds.mono fun l hl => ⟨l, (List.map_id l).symm, hl⟩
      refine Program.Succeeds.bind ((concat_succeeds hround).mono fun pods hpods => ?_)
      obtain ⟨l, rfl, hl⟩ := hpods
      rw [List.map_id]
      refine Program.succeeds_pure ⟨l, rfl, hl.mono (fun t ht => ?_) fun t ht => ?_⟩
      · obtain ⟨n, hn, hpod⟩ := ht
        exact ⟨n, hns.all n hn, hpod⟩
      · obtain ⟨n, hn, hpod⟩ := ht
        exact ⟨n, hns.only n hn, hpod⟩

variable {policyType ruleField peerField : String}

theorem extractPeerEdges_succeeds (hkind : r.kind = "NetworkPolicy")
    (htype : hasPolicyType r policyType = true) :
    Program.Succeeds (Between lo hi)
      (Resolved r type (PolicyAllows lo r policyType ruleField peerField)
        (PolicyAllows hi r policyType ruleField peerField))
      (extractPeerEdges r ruleField peerField type) := by
  refine (concat_succeeds fun peer => peerEdges_succeeds).mono fun edges hedges => ?_
  obtain ⟨l, rfl, hl⟩ := hedges
  exact ⟨l, rfl, hl.mono (fun t ht => ht.2.2) fun t ht => ⟨hkind, htype, ht⟩⟩

/-- The two extractors for the peers of a network policy. -/
theorem allows_succeeds :
    Program.Succeeds (Between lo hi)
      (Resolved r type (PolicyAllows lo r policyType ruleField peerField)
        (PolicyAllows hi r policyType ruleField peerField))
      (if r.kind ≠ "NetworkPolicy" || !hasPolicyType r policyType then pure []
        else extractPeerEdges r ruleField peerField type) := by
  by_cases hguard : r.kind = "NetworkPolicy" ∧ hasPolicyType r policyType = true
  · rw [if_neg (by simp [hguard.1, hguard.2])]
    exact extractPeerEdges_succeeds hguard.1 hguard.2
  · rw [if_pos (by simpa [imp_iff_not_or] using hguard)]
    exact Program.succeeds_pure (resolved_nil fun t ht => hguard ⟨ht.1, ht.2.1⟩)

end Network

/-! ### Policies -/

section Policies

variable {lo hi : Resource → Prop} {r : Resource}

theorem unseen_sublist (seen : List String) (l : List Resource) :
    (unseen seen l).Sublist l := by
  induction l generalizing seen with
  | nil => exact List.Sublist.refl _
  | cons t l ih =>
    unfold unseen
    split
    · exact (ih seen).cons t
    · exact (ih (t.ID :: seen)).cons_cons t

/-- Every identifier is seen already, or kept. -/
theorem seen_or_unseen (seen : List String) {l : List Resource} {t : Resource} (h : t ∈ l) :
    t.ID ∈ seen ∨ ∃ t' ∈ unseen seen l, t'.ID = t.ID := by
  induction l generalizing seen with
  | nil => exact absurd h List.not_mem_nil
  | cons m l ih =>
    unfold unseen
    by_cases hseen : seen.contains m.ID = true
    · rw [if_pos hseen]
      cases List.mem_cons.mp h with
      | inl heq => exact .inl (by simpa [heq] using hseen)
      | inr hrest => exact ih seen hrest
    · rw [if_neg hseen]
      cases List.mem_cons.mp h with
      | inl heq => exact .inr ⟨m, List.mem_cons_self, by rw [heq]⟩
      | inr hrest =>
        cases ih (m.ID :: seen) hrest with
        | inl hid =>
          cases List.mem_cons.mp hid with
          | inl heq => exact .inr ⟨m, List.mem_cons_self, heq.symm⟩
          | inr hold => exact .inl hold
        | inr hkept =>
          obtain ⟨t', ht', hid⟩ := hkept
          exact .inr ⟨t', List.mem_cons_of_mem _ ht', hid⟩

/-- An edge of a policy to a resource it applies to. -/
def enforcement (r : Resource) (overlay : Resource → StringMap) (t : Resource) : Edge :=
  { fromID := r.ID, toID := t.ID, type := .enforces, attributes := overlay t }

/-- A list with all identifiers of `lower`, and nothing outside
`upper`. -/
structure CoversIDs (lower upper : Resource → Prop) (l : List Resource) : Prop where
  all : ∀ t, lower t → ∃ t' ∈ l, t'.ID = t.ID
  only : ∀ t ∈ l, upper t

/-- The edges of a policy, with the attributes `overlay` adds. -/
def Enforced (r : Resource) (overlay : Resource → StringMap) (lower upper : Resource → Prop)
    (edges : List Edge) : Prop :=
  ∃ l, edges = l.map (enforcement r overlay) ∧ CoversIDs lower upper l

variable {overlay : Resource → StringMap} {filters : List Filter}

/-- The loops of the policy extractors: what was seen before is left
out. -/
theorem enforce_succeeds {seen : List String} :
    Program.Succeeds (Between lo hi)
      (Enforced r overlay (fun t => t.ID ∉ seen ∧ Enforces lo filters t) (Enforces hi filters))
      (enforce r overlay seen filters) := by
  induction filters generalizing seen with
  | nil =>
    refine Program.succeeds_pure ⟨[], rfl, fun t ht => ?_, fun t ht => ?_⟩
    · obtain ⟨_, hfilter, _⟩ := ht.2
      exact absurd hfilter List.not_mem_nil
    · exact absurd ht List.not_mem_nil
  | cons filter filters ih =>
    refine Program.Succeeds.bind (listing_succeeds.mono fun matched hmatched => ?_)
    refine Program.Succeeds.bind (ih.mono fun rest hrest => ?_)
    obtain ⟨l, rfl, hl⟩ := hrest
    refine Program.succeeds_pure
      ⟨unseen seen matched ++ l, (List.map_append ..).symm, fun t ht => ?_, fun t ht => ?_⟩
    · -- A target is listed by the first filter or by a later one; what the first filter
      -- found is seen by the later ones.
      obtain ⟨hfresh, f, hf, hlisted⟩ := ht
      by_cases hkept : ∃ t' ∈ unseen seen matched, t'.ID = t.ID
      · obtain ⟨t', ht', hid⟩ := hkept
        exact ⟨t', List.mem_append_left _ ht', hid⟩
      cases List.mem_cons.mp hf with
      | inl heq =>
        subst heq
        cases seen_or_unseen seen (hmatched.all t hlisted) with
        | inl hseen => exact absurd hseen hfresh
        | inr hfound => exact absurd hfound hkept
      | inr hlater =>
        have hunseen : t.ID ∉ (unseen seen matched).map Resource.ID ++ seen := by
          intro hmem
          cases List.mem_append.mp hmem with
          | inl hfound => exact hkept (List.mem_map.mp hfound)
          | inr hseen => exact hfresh hseen
        obtain ⟨t', ht', hid⟩ := hl.all t ⟨hunseen, f, hlater, hlisted⟩
        exact ⟨t', List.mem_append_right _ ht', hid⟩
    · cases List.mem_append.mp ht with
      | inl hfound =>
        exact ⟨filter, List.mem_cons_self,
          hmatched.only t ((unseen_sublist seen matched).subset hfound)⟩
      | inr hrest =>
        obtain ⟨f, hf, hlisted⟩ := hl.only t hrest
        exact ⟨f, List.mem_cons_of_mem _ hf, hlisted⟩

/-- A policy extractor starts with nothing seen. -/
theorem enforce_nil_succeeds :
    Program.Succeeds (Between lo hi)
      (Enforced r overlay (Enforces lo filters) (Enforces hi filters))
      (enforce r overlay [] filters) :=
  enforce_succeeds.mono fun edges hedges => by
    obtain ⟨l, rfl, hl⟩ := hedges
    exact ⟨l, rfl, fun t ht => hl.all t ⟨List.not_mem_nil, ht⟩, hl.only⟩

theorem gatekeeper_succeeds :
    Program.Succeeds (Between lo hi)
      (Enforced r (violationOverlay (constraintViolations r)) (Enforces lo (constraintFilters r))
        (Enforces hi (constraintFilters r)))
      (gatekeeper r) := enforce_nil_succeeds

/-- The index that the listed reports make, the cluster-wide ones
read last. -/
def reportIndex (reports clusterReports : List Resource) : GoMap String String :=
  (clusterReports.flatMap fun rep => nestedSlice (rawOf rep) ["results"]).foldl indexResult
    ((reports.flatMap fun rep => nestedSlice (rawOf rep) ["results"]).foldl indexResult ∅)

/-- The filters of the two report kinds. -/
def reportFilter : Filter := { kind := "PolicyReport" }

def clusterReportFilter : Filter := { kind := "ClusterPolicyReport" }

/-- An index read from reports between the bounds. -/
def Indexed (lo hi : Resource → Prop) (idx : GoMap String String) : Prop :=
  ∃ reports clusterReports, idx = reportIndex reports clusterReports ∧
    Covers (Listed lo reportFilter) (Listed hi reportFilter) reports ∧
    Covers (Listed lo clusterReportFilter) (Listed hi clusterReportFilter) clusterReports

theorem buildKyvernoReportIndex_yields :
    buildKyvernoReportIndex.Yields (Between lo hi) (Indexed lo hi) := by
  intro reply hreply reply' hreply'
  obtain ⟨reports, rfl, hreports⟩ := hreply
  obtain ⟨clusterReports, rfl, hclusterReports⟩ := hreply'
  exact ⟨reports, clusterReports, rfl, hreports, hclusterReports⟩

/-- The targets are those of the policy; the results come from some
index. -/
theorem kyverno_succeeds :
    Program.Succeeds (Between lo hi)
      (fun edges => ∃ overlay,
        Enforced r overlay (Enforces lo (kyvernoTargets r)) (Enforces hi (kyvernoTargets r))
          edges ∧
        (isKyvernoPolicy r = true →
          ∃ idx, Indexed lo hi idx ∧ overlay = reportOverlay r.name idx))
      (kyverno r) := by
  unfold kyverno kyvernoTargets
  cases hpolicy : isKyvernoPolicy r with
  | true =>
    refine Program.Succeeds.lift_bind (buildKyvernoReportIndex_yields.mono fun idx hidx => ?_)
    exact enforce_nil_succeeds.mono fun edges hedges => ⟨_, hedges, fun _ => ⟨idx, hidx, rfl⟩⟩
  | false =>
    refine Program.succeeds_pure ⟨fun _ => [], ⟨[], rfl, fun t ht => ?_, fun t ht => ?_⟩, ?_⟩
    · obtain ⟨_, hfilter, _⟩ := ht
      exact absurd hfilter List.not_mem_nil
    · exact absurd ht List.not_mem_nil
    · exact fun h => absurd h (by simp)

end Policies

end KubeAtlas.Proofs.Extractor
