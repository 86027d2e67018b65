import Mathlib.Data.Finset.Card
import KubeAtlas.Proofs.Coverage.Isolation

/-!
# `KubeAtlas.Proofs.Coverage.Capacity`: how much a tracker holds

The tracker counts clusters over three maps and types over the rows
of a session. `Within` is the bound on both, and every operation
keeps it. It also says that every session is one of the three
sources that a snapshot shows.
-/

set_option autoImplicit false

namespace KubeAtlas.Proofs.Coverage

open Lib Operations
open Operations.CoverageTracker (Op)

variable {t t' : CoverageTracker}

/-! ### Bounds -/

/-- The clusters that something is registered for. -/
def registered (t : CoverageTracker) : Finset String :=
  (AList.keys t.clusters).toFinset ∪ (AList.keys t.sources).toFinset ∪
    (AList.keys t.inventories).toFinset

theorem mem_keys_iff {V : Type} (m : GoMap String V) (c : String) :
    c ∈ AList.keys m ↔ (m.lookup c).isSome = true := by
  rw [AList.lookup_isSome]
  rfl

theorem mem_registered (t : CoverageTracker) (c : String) :
    c ∈ registered t ↔ t.hasClusterLocked c = true := by
  unfold registered CoverageTracker.hasClusterLocked
  simp only [Finset.mem_union, List.mem_toFinset, mem_keys_iff, Bool.or_eq_true]

/-- The three loops count every cluster once. -/
theorem card_registered (t : CoverageTracker) :
    (registered t).card = t.clusterCountLocked := by
  have hcount : registered t =
      ((AList.keys t.clusters ++
        (AList.keys t.sources).filter fun c => (t.clusters.lookup c).isNone) ++
        (AList.keys t.inventories).filter fun c =>
          (t.clusters.lookup c).isNone && (AList.lookup c t.sources).isNone).toFinset := by
    ext c
    unfold registered
    simp only [Finset.mem_union, List.mem_toFinset, List.mem_append, List.mem_filter,
      mem_keys_iff, Bool.and_eq_true]
    cases t.clusters.lookup c <;> cases AList.lookup c t.sources <;> simp
  rw [hcount, List.toFinset_card_of_nodup, List.length_append, List.length_append]
  · rfl
  · -- a later loop skips what an earlier one has seen
    have hkeys {V : Type} (m : GoMap String V) : (AList.keys m).Nodup := m.nodupKeys
    refine ((hkeys _).append ((hkeys _).filter _) ?_).append ((hkeys _).filter _) ?_
    · intro c hc hc'
      rw [mem_keys_iff] at hc
      have hnone := (List.mem_filter.mp hc').2
      cases hlookup : t.clusters.lookup c <;> simp [hlookup] at hc hnone
    · intro c hc hc'
      have hnone := (List.mem_filter.mp hc').2
      rcases List.mem_append.mp hc with hold | hold
      · rw [mem_keys_iff] at hold
        cases hlookup : t.clusters.lookup c <;> simp [hlookup] at hold hnone
      · have hsome := (mem_keys_iff t.sources c).mp (List.mem_filter.mp hold).1
        cases hlookup : AList.lookup c t.sources <;> simp [hlookup] at hsome hnone

/-- There is room for a cluster that is registered, and for a new
one below the bound. -/
theorem card_insert_registered {c : String} (hbound : (registered t).card ≤ maxCoverageClusters)
    (hroom : t.full c = false) : (insert c (registered t)).card ≤ maxCoverageClusters := by
  unfold CoverageTracker.full at hroom
  by_cases hmem : c ∈ registered t
  · rwa [Finset.insert_eq_of_mem hmem]
  · rw [mem_registered, Bool.not_eq_true] at hmem
    rw [hmem, Bool.not_false, Bool.true_and, decide_eq_false_iff_not, ← card_registered] at hroom
    exact Nat.le_trans (Finset.card_insert_le _ _) (by omega)

/-- The sources that can be registered. -/
def KnownSource (source : CoverageSource) : Prop :=
  source = .core ∨ source = .crd ∨ source = .gatekeeper

/-- The bounds on clusters and types. -/
structure Within (t : CoverageTracker) : Prop where
  clusters : (registered t).card ≤ maxCoverageClusters
  types : ∀ s ∈ t.sessions, s.resources.size ≤ maxCoverageTypes
  known : ∀ s ∈ t.sessions, KnownSource s.source

theorem within_new (staleAfter : Duration) : Within (.new staleAfter) where
  clusters := Nat.zero_le _
  types := by simp [CoverageTracker.new]
  known := by simp [CoverageTracker.new]

/-- Where nothing is registered, the bounds stay. -/
theorem Within.of_shape (h : Within t) (hshape : SameShape t t')
    (hinventories : t'.inventories = t.inventories) : Within t' := by
  have hreg : registered t' = registered t := by
    unfold registered
    rw [hshape.clusters, hshape.sources, hinventories]
  have hsame : ∀ s ∈ t'.sessions, ∃ s' ∈ t.sessions, shape s' = shape s := by
    intro s hs
    exact List.mem_map.mp (hshape.sessions ▸ List.mem_map_of_mem hs)
  simp only [shape, Prod.mk.injEq] at hsame
  refine ⟨hreg ▸ h.clusters, ?_, ?_⟩
  · intro s hs
    obtain ⟨s', hs', -, -, -, hresources⟩ := hsame s hs
    exact hresources ▸ h.types s' hs'
  · intro s hs
    obtain ⟨s', hs', -, hsource, -⟩ := hsame s hs
    exact hsource ▸ h.known s' hs'

theorem registered_opened_subset (t : CoverageTracker) (cluster : String)
    (source : CoverageSource) (gvrs : List GroupVersionResource) (now : Time) :
    registered (opened t cluster source gvrs now) ⊆ insert cluster (registered t) := by
  intro c hc
  rw [Finset.mem_insert, mem_registered]
  rw [mem_registered] at hc
  by_cases hne : c = cluster
  · exact Or.inl hne
  · -- the two maps that may have been written hold nothing new for another cluster
    right
    unfold CoverageTracker.hasClusterLocked opened NestedMap.put at hc
    split at hc
    · rwa [AList.lookup_insert_ne hne] at hc
    · rwa [AList.lookup_insert_ne hne] at hc

theorem registered_inventoryOpened_subset (t : CoverageTracker) (cluster : String) :
    registered (inventoryOpened t cluster) ⊆ insert cluster (registered t) := by
  intro c hc
  rw [Finset.mem_insert, mem_registered]
  rw [mem_registered] at hc
  by_cases hne : c = cluster
  · exact Or.inl hne
  · right
    unfold CoverageTracker.hasClusterLocked inventoryOpened at hc
    rwa [AList.lookup_insert_ne hne] at hc

/-- Step: a registration checks the bounds first. -/
theorem Within.opened (h : Within t) {cluster : String} {source : CoverageSource}
    {gvrs : List GroupVersionResource} {now : Time} (hopens : Opens t cluster source gvrs now)
    (hsource : KnownSource source) : Within (opened t cluster source gvrs now) where
  clusters :=
    Nat.le_trans (Finset.card_le_card (registered_opened_subset t cluster source gvrs now))
      (card_insert_registered h.clusters hopens.room)
  types := by
    intro s hs
    rcases List.mem_append.mp hs with hold | hnew
    · exact h.types s hold
    · rw [List.mem_singleton.mp hnew]
      show ((openedRows t cluster source gvrs now).addresses t.rows.length).size ≤ _
      rw [GoMap.size_addresses]
      exact hopens.size
  known := by
    intro s hs
    rcases List.mem_append.mp hs with hold | hnew
    · exact h.known s hold
    · rw [List.mem_singleton.mp hnew]
      exact hsource

/-- Step: so does the registration of a type. -/
theorem Within.typeOpened (h : Within t) {ref : SessionRef} {s : CoverageSession}
    {gvr : GroupVersionResource} {now : Time} (hopens : TypeOpens t ref s gvr now) :
    Within (typeOpened t ref s gvr now) := by
  have hs := List.mem_of_getElem? hopens.session
  -- the session has the type already, or it has room for it
  have hsize : GoMap.size (AList.insert gvr t.rows.length s.resources) ≤ maxCoverageTypes := by
    cases hlookup : s.resources.lookup gvr with
    | none =>
      have hroom := hopens.room (by rw [hlookup]; rfl)
      exact Nat.le_trans (GoMap.size_insert_le _ _ _) hroom
    | some row =>
      rw [GoMap.size_insert_of_lookup hlookup]
      exact h.types s hs
  have hold : ∀ s' ∈ t.sessions.modify ref
        (fun s => { s with resources := s.resources.insert gvr t.rows.length }),
      s'.resources.size ≤ maxCoverageTypes ∧ KnownSource s'.source := by
    intro s' hs'
    obtain ⟨i, hi⟩ := List.getElem?_of_mem hs'
    rw [List.getElem?_modify] at hi
    obtain ⟨s₀, hs₀, rfl⟩ := Option.map_eq_some_iff.mp hi
    have hmem := List.mem_of_getElem? hs₀
    split
    · rename_i href
      rw [← href, hopens.session] at hs₀
      cases hs₀
      exact ⟨hsize, h.known s hs⟩
    · exact ⟨h.types s₀ hmem, h.known s₀ hmem⟩
  have hall : ∀ s' ∈ (Coverage.typeOpened t ref s gvr now).sessions,
      s'.resources.size ≤ maxCoverageTypes ∧ KnownSource s'.source := by
    intro s' hs'
    rcases List.mem_append.mp hs' with hmod | hnew
    · exact hold s' hmod
    · rw [List.mem_singleton.mp hnew]
      exact ⟨show 1 ≤ maxCoverageTypes by decide, h.known s hs⟩
  exact ⟨h.clusters, fun s' hs' => (hall s' hs').1, fun s' hs' => (hall s' hs').2⟩

/-- One operation keeps the bounds. -/
theorem Within.step (h : Within t) (ext : Externals) (op : Op) : Within (t.step ext op) := by
  have heffect := effect t ext op
  generalize t.step ext op = t' at heffect
  cases heffect with
  | refused => exact h
  | begin hopens => exact h.opened hopens (Or.inl rfl)
  | beginSource hsource hopens => exact h.opened hopens (Or.inr hsource)
  | limit hrefused => exact h.of_shape (sameShape_typeLimited t _) rfl
  | beginType hopens => exact h.typeOpened hopens
  | update hop row f => exact ⟨h.clusters, h.types, h.known⟩
  | stop ref s now => exact h.of_shape (sameShape_halt t ref s now) rfl
  | recordDiscovery hs hsource hvalid hunknown =>
    exact h.of_shape (sameShape_discovered t _ _ _ _) rfl
  | beginAPIInventory hroom =>
    exact ⟨Nat.le_trans (Finset.card_le_card (registered_inventoryOpened_subset t _))
      (card_insert_registered h.clusters hroom), h.types, h.known⟩
  | recordInventory | stopInventory => exact ⟨h.clusters, h.types, h.known⟩

/-- Run: the bounds hold in every reachable tracker. -/
theorem within_run (ext : Externals) (staleAfter : Duration) (ops : List Op) :
    Within (.run ext staleAfter ops) :=
  List.foldlRecOn (motive := Within) ops _ (within_new staleAfter)
    fun _ h op _ => h.step ext op

end KubeAtlas.Proofs.Coverage
