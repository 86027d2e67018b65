import KubeAtlas.Analysis.Violations
import KubeAtlas.Proofs.Extractor.Isolation

/-!
# `KubeAtlas.Proofs.Extractor.Violations`: when a failure of a policy is shown

The results of all reports about a policy and a resource end up
under one key of an index, and the last one that is read stays.
`unmasked_iff`: every reported failure is on the edge and among the
violations, and the edges do not depend on any order, exactly when
the results that count agree for each target. Results of
cluster-wide reports count before those of the others.
-/

set_option autoImplicit false

namespace KubeAtlas.Proofs.Extractor

open Analysis KubeAtlas.Extractor KubeAtlas.Graph Lib KubeAtlas.Store

/-- The results that a report lists. -/
def results (rep : Resource) : List Json := nestedSlice (rawOf rep) ["results"]

/-- The same object, but for the order of its results. -/
structure Reordered (t t' : Resource) : Prop where
  fields : t' = { t with raw := t'.raw }
  members : ∀ k, k ≠ "results" → member (rawOf t') k = member (rawOf t) k
  perm : (results t').Perm (results t)

/-- Every object of `s` is one of `s'`, but for the order of
results. -/
def ReorderedIn (s s' : MemoryStore) : Prop :=
  ∀ id t, s.resources.lookup id = some t →
    ∃ t', s'.resources.lookup id = some t' ∧ Reordered t t'

/-- The two stores differ in the order of results only. -/
structure SameUpToOrder (s s' : MemoryStore) : Prop where
  forth : ReorderedIn s s'
  back : ReorderedIn s' s

/-- Some report has the result that `t` fails the policy `r`. -/
def ReportedFail (s : MemoryStore) (r t : Resource) : Prop :=
  ∃ rep, (Listed (Stored s) reportFilter rep ∨ Listed (Stored s) clusterReportFilter rep) ∧
    ∃ res ∈ results rep, (member (asMap res) "policy").text = r.name ∧
      (member (asMap res) "result").text = "fail" ∧
      ∃ ref ∈ nestedSlice (asMap res) ["resources"], (member (asMap ref) "kind").text = t.kind ∧
        (member (asMap ref) "namespace").text = t.ns ∧ (member (asMap ref) "name").text = t.name

/-- The edge from a policy to a resource that fails it. -/
def failingEdge (r t : Resource) : Edge :=
  { fromID := r.ID, toID := t.ID, type := .enforces, attributes := [("result", "fail")] }

/-- No failure is masked, and no order matters. -/
structure Unmasked (r : Resource) (s : MemoryStore) : Prop where
  fails : ∀ edges, Extracts kyverno r s (.ok edges) → ∀ t,
    Enforces (Stored s) (kyvernoTargets r) t → ReportedFail s r t →
      failingEdge r t ∈ edges ∧ ⟨r.ID, t.ID, ""⟩ ∈ detectPolicyViolations edges
  ordered : ∀ s', SameUpToOrder s s' → SameEdges kyverno r s s'

/-- All results that count are the same: the cluster-wide ones, or
the others if there are none. -/
structure Settled (s : MemoryStore) (key : String) (v : Option String) : Prop where
  clusterWide : ∀ rep, Listed (Stored s) clusterReportFilter rep → ∀ res ∈ results rep, ∀ w,
    said key res = some w → v = some w
  namespaced : (∀ rep, Listed (Stored s) clusterReportFilter rep → ∀ res ∈ results rep,
      said key res = none) →
    ∀ rep, Listed (Stored s) reportFilter rep → ∀ res ∈ results rep, ∀ w,
      said key res = some w → v = some w
  silent : (∀ rep, Listed (Stored s) clusterReportFilter rep → ∀ res ∈ results rep,
      said key res = none) →
    (∀ rep, Listed (Stored s) reportFilter rep → ∀ res ∈ results rep, said key res = none) →
    v = none

/-! ### Orders -/

section Orders

variable {s s' : MemoryStore} {t t' : Resource}

section

variable (h : Reordered t t')
include h

theorem Reordered.symm : Reordered t' t where
  fields := by rw [h.fields]
  members k hk := (h.members k hk).symm
  perm := h.perm.symm

theorem Reordered.ID_eq : t'.ID = t.ID := by rw [h.fields]; rfl

theorem Reordered.lists_eq (filter : Filter) :
    lists filter t' = lists filter t := by rw [h.fields]; rfl

theorem Reordered.resultKey_eq (r : Resource) :
    resultKey r t' = resultKey r t := by rw [h.fields]; rfl

theorem Reordered.overlay_eq (policy : String) (idx : GoMap String String) :
    reportOverlay policy idx t' = reportOverlay policy idx t := by rw [h.fields]; rfl

end

theorem ReorderedIn.filed (h : ReorderedIn s' s) (hs : Filed s) : Filed s' := by
  intro id t' ht'
  obtain ⟨t, ht, hsame⟩ := h id t' ht'
  rw [← hsame.ID_eq]
  exact hs id t ht

variable {filter : Filter}

theorem ReorderedIn.listed (h : ReorderedIn s s') (ht : Listed (Stored s) filter t) :
    ∃ t', Listed (Stored s') filter t' ∧ Reordered t t' := by
  obtain ⟨⟨id, hlookup⟩, hlists⟩ := ht
  obtain ⟨t', hlookup', hsame⟩ := h id t hlookup
  exact ⟨t', ⟨⟨id, hlookup'⟩, (hsame.lists_eq filter).trans hlists⟩, hsame⟩

theorem ReorderedIn.enforces (h : ReorderedIn s s') {filters : List Filter}
    (ht : Enforces (Stored s) filters t) :
    ∃ t', Enforces (Stored s') filters t' ∧ Reordered t t' := by
  obtain ⟨filter, hfilter, hlisted⟩ := ht
  obtain ⟨t', hlisted', hsame⟩ := h.listed hlisted
  exact ⟨t', ⟨filter, hfilter, hlisted'⟩, hsame⟩

/-- What holds of all results of the listed reports does not depend
on their order. -/
theorem ReorderedIn.forall_results (h : ReorderedIn s' s) {P : Json → Prop}
    (hall : ∀ rep, Listed (Stored s) filter rep → ∀ res ∈ results rep, P res) :
    ∀ rep, Listed (Stored s') filter rep → ∀ res ∈ results rep, P res := by
  intro rep' hrep' res hres
  obtain ⟨rep, hrep, hsame⟩ := h.listed hrep'
  exact hall rep hrep res (hsame.perm.symm.mem_iff.mp hres)

theorem Settled.reordered {key : String} {v : Option String} (hv : Settled s key v)
    (h : SameUpToOrder s s') : Settled s' key v where
  clusterWide := h.back.forall_results hv.clusterWide
  namespaced hnone := h.back.forall_results (hv.namespaced (h.forth.forall_results hnone))
  silent hnone hnone' :=
    hv.silent (h.forth.forall_results hnone) (h.forth.forall_results hnone')

variable {key : String} {rep : Resource}

theorem verdict_eq_none :
    verdict key rep = none ↔ ∀ res ∈ results rep, said key res = none := by
  simp [verdict, results]

/-- What is settled is what the reports say. -/
theorem Settled.spoken {v : Option String} (h : Settled s key v) :
    Says (Stored s) key v where
  clusterWide rep hrep w hw := by
    obtain ⟨res, hres, hsaid⟩ := List.exists_of_findSome?_eq_some hw
    exact h.clusterWide rep hrep res (List.mem_reverse.mp hres) w hsaid
  namespaced hnone rep hrep w hw := by
    obtain ⟨res, hres, hsaid⟩ := List.exists_of_findSome?_eq_some hw
    exact h.namespaced (fun rep hrep => verdict_eq_none.mp (hnone rep hrep)) rep hrep res
      (List.mem_reverse.mp hres) w hsaid
  silent hnone hnone' :=
    h.silent (fun rep hrep => verdict_eq_none.mp (hnone rep hrep))
      fun rep hrep => verdict_eq_none.mp (hnone' rep hrep)

/-- A report may list any of its results last. -/
theorem exists_reordered_last {res : Json} (hrep : Listed (Stored s) filter rep)
    (hres : res ∈ results rep) :
    ∃ s' rep', SameUpToOrder s s' ∧ Listed (Stored s') filter rep' ∧
      ∀ key w, said key res = some w → verdict key rep' = some w := by
  obtain ⟨⟨id, hlookup⟩, hlists⟩ := hrep
  obtain ⟨before, after, hsplit⟩ := List.append_of_mem hres
  let l := before ++ after ++ [res]
  let rep' : Resource := { rep with raw := some (("results", .arr l) :: rawOf rep) }
  have hresults : results rep' = l := by
    simp [results, rep', rawOf, nestedSlice, nested, member, Json.items?]
  have hsame : Reordered rep rep' := by
    refine ⟨rfl, fun k hk => ?_, ?_⟩
    · have hne : (k == "results") = false := beq_eq_false_iff_ne.mpr hk
      simp [rep', rawOf, member, List.lookup_cons, hne]
    · rw [hresults, hsplit]
      show (before ++ after ++ [res]).Perm _
      rw [List.append_assoc]
      exact List.Perm.append_left before (List.perm_append_singleton res after)
  have hrefl : ∀ t, Reordered t t := fun t => ⟨rfl, fun _ _ => rfl, List.Perm.refl _⟩
  refine ⟨{ s with resources := s.resources.insert id rep' }, rep', ⟨?_, ?_⟩,
    ⟨⟨id, AList.lookup_insert _⟩, hlists⟩, fun key w hw => ?_⟩
  · intro id' t ht
    by_cases hid : id' = id
    · subst hid
      rw [hlookup] at ht
      cases ht
      exact ⟨rep', AList.lookup_insert _, hsame⟩
    · exact ⟨t, (AList.lookup_insert_ne hid).trans ht, hrefl t⟩
  · intro id' t ht
    rcases GoMap.of_lookup_insert ht with ⟨rfl, rfl⟩ | hold
    · exact ⟨rep, hlookup, hsame.symm⟩
    · exact ⟨t, hold, hrefl t⟩
  · have hverdict : verdict key rep' = l.reverse.findSome? (said key) := by
      rfl
    rw [hverdict]
    simp [l, hw]

/-- What the reports say in every order is settled. -/
theorem settled_of_says {v : Option String} (h : ∀ s', SameUpToOrder s s' → Says (Stored s') key v)
    (hrefl : SameUpToOrder s s) :
    Settled s key v where
  clusterWide rep hrep res hres w hw := by
    obtain ⟨s', rep', hsame, hrep', hlast⟩ := exists_reordered_last hrep hres
    exact (h s' hsame).clusterWide rep' hrep' w (hlast key w hw)
  namespaced hnone rep hrep res hres w hw := by
    obtain ⟨s', rep', hsame, hrep', hlast⟩ := exists_reordered_last hrep hres
    refine (h s' hsame).namespaced (fun rep hrep => verdict_eq_none.mpr ?_) rep' hrep' w
      (hlast key w hw)
    exact hsame.back.forall_results hnone rep hrep
  silent hnone hnone' :=
    (h s hrefl).silent (fun rep hrep => verdict_eq_none.mpr (hnone rep hrep))
      fun rep hrep => verdict_eq_none.mpr (hnone' rep hrep)

end Orders

/-! ### Failures -/

/-- An edge that shows a failure is a violation. -/
theorem failingEdge_detected {r t : Resource} {edges : List Edge} (h : failingEdge r t ∈ edges) :
    ⟨r.ID, t.ID, ""⟩ ∈ detectPolicyViolations edges := by
  unfold detectPolicyViolations
  rw [List.mem_insertionSort]
  exact List.mem_map.mpr ⟨failingEdge r t, List.mem_filter.mpr ⟨h, rfl⟩, rfl⟩

theorem enforcement_eq_failingEdge {r t : Resource} {idx : GoMap String String} :
    enforcement r (reportOverlay r.name idx) t = failingEdge r t ↔
      idx.lookup (resultKey r t) = some "fail" := by
  unfold enforcement failingEdge reportOverlay resultKey
  cases idx.lookup (reportKey r.name t.kind t.ns t.name) with
  | none | some => simp

section Main

variable {r : Resource} {s : MemoryStore} (hs : Filed s)

include hs

/-- In whatever order, the index holds the same result about a
target. -/
theorem Unmasked.lookup_eq (h : Unmasked r s) {t : Resource}
    (ht : Enforces (Stored s) (kyvernoTargets r) t) {s' : MemoryStore} (hsame : SameUpToOrder s s')
    (range range' : MapOrder) :
    (orderedIndex s' range range').lookup (resultKey r t)
      = (orderedIndex s RangeOrder.inserted RangeOrder.inserted).lookup (resultKey r t) := by
  have hpolicy := isKyvernoPolicy_of_enforces ht
  have hs' := hsame.back.filed hs
  obtain ⟨edges, hrun, hedges⟩ :=
    extracts_kyverno_ordered hs hpolicy RangeOrder.inserted RangeOrder.inserted
  obtain ⟨edges', hrun', hedges'⟩ := extracts_kyverno_ordered hs' hpolicy range range'
  obtain ⟨_, _, heq, heq', hiff⟩ := h.ordered s' hsame _ _ hrun hrun'
  cases heq
  cases heq'
  -- the edge to `t` is in both results, with the same attributes
  obtain ⟨t', ht', hedge⟩ := (hedges' _).mp ((hiff _).mp ((hedges _).mpr ⟨t, ht, rfl⟩))
  obtain ⟨t'', ht'', hreordered⟩ := hsame.forth.enforces ht
  have hid : t.ID = t'.ID := congrArg Edge.toID hedge
  obtain rfl := Enforces.eq_of_ID hs' t'' t' ht'' ht' (hreordered.ID_eq.trans hid)
  rw [← hreordered.resultKey_eq r]
  have hoverlay : reportOverlay r.name (orderedIndex s RangeOrder.inserted RangeOrder.inserted) t''
      = reportOverlay r.name (orderedIndex s' range range') t'' := by
    rw [hreordered.overlay_eq]
    exact congrArg Edge.attributes hedge
  exact (reportOverlay_eq_iff.mp hoverlay).symm

/-- Settled results are shown, whatever the order. -/
theorem unmasked_of_settled
    (h : ∀ t, Enforces (Stored s) (kyvernoTargets r) t → ∃ v, Settled s (resultKey r t) v ∧
      (ReportedFail s r t → v = some "fail")) : Unmasked r s where
  fails edges hrun t ht hfail := by
    obtain ⟨v, hv, hfailed⟩ := h t ht
    obtain ⟨_, heq, overlay, hindex, hedges⟩ := hrun.of_succeeds (exact_kyverno hs)
    cases heq
    obtain ⟨idx, hidx, rfl⟩ := hindex (isKyvernoPolicy_of_enforces ht)
    have hlookup : idx.lookup (resultKey r t) = some "fail" :=
      (hv.spoken.lookup hidx).trans (hfailed hfail)
    have hmem : failingEdge r t ∈ edges :=
      (hedges _).mpr ⟨t, ht, (enforcement_eq_failingEdge.mpr hlookup).symm⟩
    exact ⟨hmem, failingEdge_detected hmem⟩
  ordered s' hsame result result' hrun hrun' := by
    obtain ⟨edges, rfl, overlay, hindex, hedges⟩ := hrun.of_succeeds (exact_kyverno hs)
    obtain ⟨edges', rfl, overlay', hindex', hedges'⟩ :=
      hrun'.of_succeeds (exact_kyverno (hsame.back.filed hs))
    refine ⟨edges, edges', rfl, rfl, ?_⟩
    -- a target of one store has a twin in the other, and both edges show the settled result
    have hedge : ∀ t t', Enforces (Stored s) (kyvernoTargets r) t → Reordered t t' →
        enforcement r overlay t = enforcement r overlay' t' := by
      intro t t' ht hreordered
      obtain ⟨v, hv, -⟩ := h t ht
      obtain ⟨idx, hidx, rfl⟩ := hindex (isKyvernoPolicy_of_enforces ht)
      obtain ⟨idx', hidx', rfl⟩ := hindex' (isKyvernoPolicy_of_enforces ht)
      have hlookup := hv.spoken.lookup hidx
      rw [← (hv.reordered hsame).spoken.lookup hidx'] at hlookup
      unfold enforcement
      rw [reportOverlay_eq_iff.mpr hlookup, hreordered.overlay_eq, hreordered.ID_eq]
    intro e
    rw [hedges, hedges']
    constructor
    · rintro ⟨t, ht, rfl⟩
      obtain ⟨t', ht', hreordered⟩ := hsame.forth.enforces ht
      exact ⟨t', ht', hedge t t' ht hreordered⟩
    · rintro ⟨t', ht', rfl⟩
      obtain ⟨t, ht, hreordered⟩ := hsame.back.enforces ht'
      exact ⟨t, ht, (hedge t t' ht hreordered.symm).symm⟩

end Main

/-- Failures are never masked if and only if the results that count
agree for every target, and agree with every failure that is
reported. -/
theorem unmasked_iff (range : MapOrder) (ops : List MemoryStore.Op) (r : Resource) :
    Unmasked r (MemoryStore.run range ops) ↔
      ∀ t, Enforces (Stored (MemoryStore.run range ops)) (kyvernoTargets r) t →
        ∃ v, Settled (MemoryStore.run range ops) (resultKey r t) v ∧
          (ReportedFail (MemoryStore.run range ops) r t → v = some "fail") := by
  have hs := filed_run range ops
  generalize MemoryStore.run range ops = s at hs
  refine ⟨fun h t ht => ?_, unmasked_of_settled hs⟩
  have hrefl : SameUpToOrder s s :=
    ⟨fun _ t ht => ⟨t, ht, rfl, fun _ _ => rfl, List.Perm.refl _⟩,
      fun _ t ht => ⟨t, ht, rfl, fun _ _ => rfl, List.Perm.refl _⟩⟩
  refine ⟨_, settled_of_says (fun s' hsame => says_of_lookup fun range range' =>
    h.lookup_eq hs ht hsame range range') hrefl, fun hfail => ?_⟩
  obtain ⟨edges, hrun, hedges⟩ := extracts_kyverno_ordered hs (isKyvernoPolicy_of_enforces ht)
    RangeOrder.inserted RangeOrder.inserted
  obtain ⟨t', ht', hedge⟩ := (hedges _).mp (h.fails edges hrun t ht hfail).1
  obtain rfl := Enforces.eq_of_ID hs t t' ht ht' (congrArg Edge.toID hedge)
  exact enforcement_eq_failingEdge.mp hedge.symm

/-! ### A result that overwrites a failure -/

/-- A report with a failure and then a pass, of two rules of the
policy, about one Pod. -/
def mixedReport : Resource :=
  let result (text : String) : Json := .obj [("policy", .str "pol"), ("result", .str text),
    ("resources", .arr [.obj [("kind", .str "Pod"), ("namespace", .str "d"), ("name", .str "p")]])]
  { kind := "PolicyReport", name := "rep", ns := "d"
    raw := some [("results", .arr [result "fail", result "pass"])] }

/-- The edge shows the pass, and no violation is detected. -/
theorem later_pass_masks_failure :
    ∃ edges, Extracts kyverno { podPolicy with clusterID := "" }
        (MemoryStore.run RangeOrder.inserted
          [.upsertResource (podOf ""), .upsertResource mixedReport]) (.ok edges) ∧
      edges = [{ fromID := "/ClusterPolicy/pol", toID := "d/Pod/p", type := .enforces
                 attributes := [("result", "pass")] }] ∧
      detectPolicyViolations edges = [] := by
  refine ⟨_, extracts_eval ?_, rfl, by decide⟩
  decide +kernel

end KubeAtlas.Proofs.Extractor
