import KubeAtlas.Proofs.Coverage.Generations
import KubeAtlas.Proofs.Coverage.ValidRows
import Mathlib.Data.List.Chain

/-!
# `KubeAtlas.Proofs.Coverage.ValidSources`: honest sessions and inventories

Besides rows, a snapshot shows what sessions and inventory sessions
hold: which types a source has registered, what was found out about
its API, what the API server advertised. `SessionOk` and
`InventoryOk` are what the validator asks of each. They hold of
every session and every inventory in a run of honest operations
(`evidence_run`), as long as fewer than `2 ^ 64` operations were
made: all counters are 64 bits wide.
-/

set_option autoImplicit false

namespace KubeAtlas.Proofs.Coverage

open Lib Operations
open Operations.CoverageTracker (Op)

/-! ### Honest operations -/

/-- The operation was made at or before the time `bound` on one
clock, and a type of a source has an API group, as custom resources
and constraints have. -/
def honest (bound : Time) (op : Op) : Bool :=
  (opStamp op).all (fun now => now ≤ bound) &&
    match op with
    | .beginType _ gvr _ => gvr.group ≠ ""
    | .recordDiscovery _ _ checked => checked ≤ bound
    | _ => true

theorem le_of_honest {bound now : Time} {op : Op} (h : honest bound op = true)
    (hnow : opStamp op = some now) : now ≤ bound := by
  unfold honest at h
  rw [hnow, Bool.and_eq_true] at h
  simpa using h.1

/-! ### What sessions hold -/

/-- A type that a source may show. -/
structure SourceType (gvr : GroupVersionResource) : Prop where
  group : gvr.group ≠ ""
  version : gvr.version ≠ ""
  resource : gvr.resource ≠ ""
  length : Strings.len gvr.group + Strings.len gvr.version + Strings.len gvr.resource ≤ 768
  plain : Strings.containsAny (gvr.group ++ gvr.version ++ gvr.resource) ['/', ':', '\x00'] = false

theorem sourceType_of_scope {cluster : String} {gvr : GroupVersionResource}
    (hscope : validCoverageScope cluster [gvr] = true) (hgroup : gvr.group ≠ "") :
    SourceType gvr := by
  unfold validCoverageScope at hscope
  simp only [List.all_cons, List.all_nil, Bool.and_true, Bool.and_eq_true, decide_eq_true_eq,
    Bool.not_eq_true'] at hscope
  obtain ⟨⟨⟨hversion, hresource⟩, hlength⟩, hplain⟩ := hscope.2
  exact ⟨hgroup, hversion, hresource, hlength, hplain⟩

/-- Discovery evidence after at most `n` operations. -/
structure DiscoveryOk (n : Nat) (bound : Time) (source : CoverageSource)
    (d : SourceDiscoveryEvidence) : Prop where
  source : source = .gatekeeper
  known : validSourceDiscoveryState d.state = true
  unknown : d.state = .unknown ↔ d.checkedAt = 0
  checked : d.checkedAt ≤ bound
  positive : 0 < d.revision.toNat
  revision : d.revision.toNat ≤ n

/-- A session after at most `n` operations. -/
structure SessionOk (n : Nat) (bound : Time) (s : CoverageSession) : Prop where
  size : s.resources.size ≤ maxCoverageTypes
  types : s.source ≠ .core → ∀ gvr row, s.resources.lookup gvr = some row → SourceType gvr
  discovery : ∀ d, s.discovery = some d → DiscoveryOk n bound s.source d

variable {bound : Time} {s : CoverageSession}

theorem SessionOk.mono {n m : Nat} (hnm : n ≤ m) (h : SessionOk n bound s) :
    SessionOk m bound s where
  size := h.size
  types := h.types
  discovery d hd :=
    let hok := h.discovery d hd
    ⟨hok.source, hok.known, hok.unknown, hok.checked, hok.positive, Nat.le_trans hok.revision hnm⟩

/-- The sessions of a tracker after at most `n` operations. -/
def SessionsOk (n : Nat) (bound : Time) (t : CoverageTracker) : Prop :=
  ∀ s ∈ t.sessions, SessionOk n bound s

section Sessions

variable {t : CoverageTracker} {n : Nat} {bound : Time}

theorem SessionsOk.mono {m : Nat} (hnm : n ≤ m) (h : SessionsOk n bound t) :
    SessionsOk m bound t :=
  fun s hs => (h s hs).mono hnm

variable {ref : SessionRef}

/-- Changing one session needs only a look at that session. -/
theorem SessionsOk.modify (h : SessionsOk n bound t) {f : CoverageSession → CoverageSession}
    (hf : ∀ s, t.sessions[ref]? = some s → SessionOk n bound (f s)) :
    ∀ s ∈ t.sessions.modify ref f, SessionOk n bound s := by
  intro s hs
  obtain ⟨i, hi⟩ := List.getElem?_of_mem hs
  rw [List.getElem?_modify] at hi
  obtain ⟨s₀, hs₀, rfl⟩ := Option.map_eq_some_iff.mp hi
  split
  · rename_i href
    exact hf s₀ (href ▸ hs₀)
  · exact h s₀ (List.mem_of_getElem? hs₀)

variable {source : CoverageSource} {cluster : String} {gvrs : List GroupVersionResource}
  {gvr : GroupVersionResource}

section

variable (h : SessionsOk n bound t)
include h

/-- A new session of a source has the types of the session before
it. -/
theorem types_opened (hgvrs : source ≠ .core → gvrs = []) (now : Time)
    (hsource : source ≠ .core) (hwf : WellFormed t) {row : RowRef}
    (hrow :
      ((openedRows t cluster source gvrs now).addresses t.rows.length).lookup gvr = some row) :
    SourceType gvr := by
  have hread : ((openedRows t cluster source gvrs now).lookup gvr).isSome = true := by
    obtain ⟨-, r, hr⟩ := GoMap.lookup_addresses.mp hrow
    rw [GoMap.lookup_eq_some_iff.mpr (List.mem_of_getElem? hr)]
    rfl
  rw [lookup_openedRows, hgvrs hsource, if_neg List.not_mem_nil, Option.isSome_map] at hread
  -- the type has a row, so the current session has registered it
  obtain ⟨r, hr⟩ := Option.isSome_iff_exists.mp hread
  obtain ⟨row', hrow', -⟩ := Option.bind_eq_some_iff.mp hr
  obtain ⟨s, hs, hlookup⟩ := Option.bind_eq_some_iff.mp hrow'
  obtain ⟨ref, -, hget⟩ := Option.bind_eq_some_iff.mp hs
  have hsame : s.source = source := source_of_current hwf hs
  exact (h s (List.mem_of_getElem? hget)).types (by rw [hsame]; exact hsource) gvr row' hlookup

/-- Step: the registration of a source, or of the core types. -/
theorem sessionsOk_opened (hwf : WellFormed t) {now : Time}
    (hgvrs : source ≠ .core → gvrs = []) (hopens : Opens t cluster source gvrs now) :
    SessionsOk n bound (opened t cluster source gvrs now) := by
  intro s hs
  rcases List.mem_append.mp hs with hold | hnew
  · exact h s hold
  · obtain rfl := List.mem_singleton.mp hnew
    refine ⟨?_, ?_, by simp [openedSession]⟩
    · show ((openedRows t cluster source gvrs now).addresses t.rows.length).size ≤ _
      rw [GoMap.size_addresses]
      exact hopens.size
    · intro hsource gvr row hrow
      exact types_opened h hgvrs now hsource hwf hrow

/-- Step: the registration of a type. -/
theorem sessionsOk_typeOpened {now : Time}
    (hopens : TypeOpens t ref s gvr now) (hgroup : gvr.group ≠ "") :
    SessionsOk n bound (typeOpened t ref s gvr now) := by
  have htype := sourceType_of_scope hopens.scope hgroup
  have hs := h s (List.mem_of_getElem? hopens.session)
  -- every pointer of the map is an old one, or the one of the type
  have htypes : ∀ {m : GoMap GroupVersionResource RowRef} {g : GroupVersionResource} {row : RowRef},
      (AList.insert gvr t.rows.length m).lookup g = some row →
      (∀ row, m.lookup g = some row → SourceType g) → SourceType g := by
    intro m g row hrow hold
    rcases GoMap.of_lookup_insert hrow with ⟨rfl, -⟩ | hrow
    · exact htype
    · exact hold row hrow
  intro s' hs'
  rcases List.mem_append.mp hs' with hmod | hnew
  · refine h.modify ?_ s' hmod
    intro s₀ hs₀
    rw [hopens.session] at hs₀
    cases hs₀
    refine ⟨?_, fun hsource g row hrow => htypes hrow (hs.types hsource g), hs.discovery⟩
    show GoMap.size (AList.insert gvr t.rows.length s.resources) ≤ _
    cases hlookup : s.resources.lookup gvr with
    | none =>
      have hroom := hopens.room (by rw [hlookup]; rfl)
      exact Nat.le_trans (GoMap.size_insert_le _ _ _) hroom
    | some row =>
      rw [GoMap.size_insert_of_lookup hlookup]
      exact hs.size
  · obtain rfl := List.mem_singleton.mp hnew
    refine ⟨Nat.le_trans (Nat.le_of_eq rfl) (show 1 ≤ maxCoverageTypes by decide),
      fun _ g row hrow => ?_, by simp⟩
    exact htypes (m := ∅) hrow fun row hrow => absurd hrow (by simp)

/-- Step: the outcome of a discovery, of Gatekeeper only. -/
theorem sessionsOk_discovered (hn : n + 1 < 2 ^ 64)
    (hs : t.sessions[ref]? = some s) (hsource : s.source = .gatekeeper)
    {state : SourceDiscoveryState} (hvalid : validSourceDiscoveryState state = true)
    {checked : Time} (hunknown : state = .unknown ↔ checked = 0) (hchecked : checked ≤ bound) :
    SessionsOk (n + 1) bound (discovered t ref s state checked) := by
  refine (h.mono (Nat.le_succ n)).modify ?_
  intro s₀ hs₀
  rw [hs] at hs₀
  cases hs₀
  have hok := (h s (List.mem_of_getElem? hs)).mono (Nat.le_succ n)
  refine ⟨hok.size, hok.types, ?_⟩
  rintro d ⟨⟩
  have hrev : ((s.discovery.map SourceDiscoveryEvidence.revision).getD 0).toNat ≤ n := by
    cases hd : s.discovery with
    | none => exact Nat.zero_le n
    | some d => exact ((h s (List.mem_of_getElem? hs)).discovery d hd).revision
  have hnext := toNat_succ hrev hn
  exact ⟨hsource, hvalid, hunknown, hchecked, by simp only [hnext]; omega,
    by simp only [hnext]; omega⟩

/-- One honest operation keeps the sessions in order. -/
theorem SessionsOk.step (hwf : WellFormed t) (hn : n + 1 < 2 ^ 64)
    (ext : Externals) {op : Op} (hop : honest bound op = true) :
    SessionsOk (n + 1) bound (t.step ext op) := by
  have hsame := h.mono (Nat.le_succ n)
  -- a field that is not looked at has changed
  have hfield : ∀ {ref : SessionRef} {f : CoverageSession → CoverageSession},
      (∀ s, (f s).resources = s.resources ∧ (f s).source = s.source ∧
        (f s).discovery = s.discovery) →
      ∀ s ∈ t.sessions.modify ref f, SessionOk (n + 1) bound s := by
    intro ref f hf
    refine hsame.modify fun s hs => ?_
    obtain ⟨hresources, hsource, hdiscovery⟩ := hf s
    have hok := hsame s (List.mem_of_getElem? hs)
    exact ⟨hresources ▸ hok.size, hresources ▸ hsource ▸ hok.types,
      hdiscovery ▸ hsource ▸ hok.discovery⟩
  unfold honest at hop
  rw [Bool.and_eq_true] at hop
  have heffect := effect t ext op
  generalize t.step ext op = t' at heffect
  cases heffect with
  | begin hopens => exact sessionsOk_opened hsame hwf (by simp) hopens
  | beginSource hsource hopens => exact sessionsOk_opened hsame hwf (fun _ => rfl) hopens
  | limit hrefused => exact hfield fun _ => ⟨rfl, rfl, rfl⟩
  | beginType hopens => exact sessionsOk_typeOpened hsame hopens (by simpa using hop.2)
  | stop ref s now => exact hfield fun _ => ⟨rfl, rfl, rfl⟩
  | recordDiscovery hs hsource hvalid hunknown =>
    exact sessionsOk_discovered h hn hs hsource hvalid hunknown (by simpa using hop.2)
  | _ => exact hsame

end

end Sessions

/-! ### What inventories hold -/

/-- Two valid descriptors whose types print alike are of one type.
This is a property of `GroupVersionResource.String` on names without
its separators. -/
def PrintsApart (ext : Externals) : Prop :=
  ∀ a b : APIResourceDescriptor, validAPIResourceDescriptor ext a = true →
    validAPIResourceDescriptor ext b = true →
    ext.gvrString a.gvr = ext.gvrString b.gvr → a.gvr = b.gvr

/-- A sorted list in which no two neighbours agree has no
repetition. -/
theorem nodup_of_neighbours {α : Type} {key : α → String} {l : List α}
    (hsorted : l.Pairwise fun a b => key a ≤ key b) (hchain : l.IsChain fun a b => a ≠ b)
    (hinj : ∀ a ∈ l, ∀ b ∈ l, key a = key b → a = b) : l.Nodup := by
  have hstrict : l.IsChain fun a b => key a < key b := by
    rw [List.isChain_iff_forall_rel_of_append_cons_cons] at hchain ⊢
    intro a b before after hl
    have hpair : key a ≤ key b := by
      rw [hl, List.pairwise_append] at hsorted
      exact (List.pairwise_cons.mp hsorted.2.1).1 b List.mem_cons_self
    refine lt_of_le_of_ne hpair fun heq => hchain hl (hinj a ?_ b ?_ heq)
    · simp [hl]
    · simp [hl]
  refine (List.isChain_iff_pairwise.mp hstrict).imp ?_
  rintro a b hlt rfl
  exact lt_irrefl _ hlt

/-- Everything that `Record` has checked about what it keeps. -/
structure Recorded (ext : Externals) (state : APIInventoryState) (limited : Bool) (checked : Time)
    (owned : List APIResourceDescriptor) : Prop where
  known : validAPIInventoryState state = true
  checked : checked ≠ 0
  notUnknown : state ≠ .unknown
  length : owned.length ≤ maxInventoryResources
  complete : (state = .complete && limited) = false
  refused : ((state = .denied || state = .failed) && !owned.isEmpty) = false
  valid : ∀ r ∈ owned, validAPIResourceDescriptor ext r = true
  distinct : (owned.map APIResourceDescriptor.gvr).Nodup
  versions : (owned.map APIResourceDescriptor.groupVersion).dedup.length
    ≤ maxInventoryGroupVersions
  sorted : sortDescriptors ext owned = owned

variable {ext : Externals}

/-- The list that `recordable` returns is checked, sorted and
without duplicates. -/
theorem recorded_of_recordable (hprint : PrintsApart ext) {state : APIInventoryState}
    {resources owned : List APIResourceDescriptor} {limited : Bool} {checked : Time}
    (h : CoverageTracker.recordable ext state resources limited checked = some owned) :
    Recorded ext state limited checked owned := by
  unfold CoverageTracker.recordable at h
  split at h
  · contradiction
  · rename_i hguard
    simp only at h
    split at h
    · rename_i hdescriptors
      cases h
      simp only [Bool.or_eq_true, Bool.not_eq_true', decide_eq_true_eq, not_or,
        Bool.not_eq_false] at hguard
      obtain ⟨⟨⟨⟨⟨hknown, hchecked⟩, hunknown⟩, hlength⟩, hcomplete⟩, hrefused⟩ := hguard
      simp only [Bool.and_eq_true, List.all_eq_true, decide_eq_true_eq] at hdescriptors
      obtain ⟨⟨hvalid, hchain⟩, hversions⟩ := hdescriptors
      have hperm : (sortDescriptors ext resources).Perm resources := List.perm_insertionSort _ _
      have hpairwise := List.pairwise_insertionSort
        (fun a b : APIResourceDescriptor => ext.gvrString a.gvr ≤ ext.gvrString b.gvr) resources
      refine ⟨hknown, hchecked, hunknown, ?_, by simpa using hcomplete, ?_, hvalid, ?_, hversions,
        hpairwise.insertionSort_eq⟩
      · rw [hperm.length_eq]
        omega
      · have hempty : (sortDescriptors ext resources).isEmpty = resources.isEmpty := by
          rw [Bool.eq_iff_iff, List.isEmpty_iff, List.isEmpty_iff, ← List.length_eq_zero_iff,
            ← List.length_eq_zero_iff, hperm.length_eq]
        rw [hempty]
        simpa using hrefused
      · -- the list is sorted by the printed types
        have hsorted : ((sortDescriptors ext resources).map APIResourceDescriptor.gvr).Pairwise
            fun a b => ext.gvrString a ≤ ext.gvrString b := by
          rw [List.pairwise_map]
          exact hpairwise
        refine nodup_of_neighbours hsorted ((List.isChain_map _).mpr hchain) ?_
        intro g hg g' hg' heq
        obtain ⟨a, ha, rfl⟩ := List.mem_map.mp hg
        obtain ⟨b, hb, rfl⟩ := List.mem_map.mp hg'
        exact hprint a b (hvalid a ha) (hvalid b hb) heq
    · contradiction

/-- Inventory evidence after at most `n` operations: nothing was
recorded yet, or the last record is kept. -/
structure InventoryOk (ext : Externals) (n : Nat) (bound : Time) (e : APIInventoryEvidence) :
    Prop where
  generation : e.generation ≠ 0
  fresh : e.stale = false
  revision : e.revision.toNat ≤ n
  record : (e.state = .unknown ∧ e.revision = 0 ∧ e.checkedAt = 0 ∧ e.resources = [] ∧
      e.limited = false) ∨
    (Recorded ext e.state e.limited e.checkedAt e.resources ∧ 0 < e.revision.toNat ∧
      e.checkedAt ≤ bound)

/-- The inventories of a tracker after at most `n` operations. -/
structure InventoriesOk (ext : Externals) (n : Nat) (bound : Time) (t : CoverageTracker) :
    Prop where
  sessions : ∀ e ∈ t.inventorySessions, InventoryOk ext n bound e
  filed : ∀ cluster ref, t.inventories.lookup cluster = some ref →
    ∃ e, t.inventorySessions[ref]? = some e ∧ e.clusterID = cluster

section Inventories

variable {t : CoverageTracker} {n : Nat} {bound : Time} {ext : Externals}

theorem InventoryOk.mono {e : APIInventoryEvidence} (h : InventoryOk ext n bound e) :
    InventoryOk ext (n + 1) bound e :=
  ⟨h.generation, h.fresh, Nat.le_succ_of_le h.revision, h.record⟩

section

variable (h : InventoriesOk ext n bound t)
include h

theorem InventoriesOk.mono : InventoriesOk ext (n + 1) bound t :=
  ⟨fun e he => (h.sessions e he).mono, h.filed⟩

/-- Writing an inventory session keeps its cluster. -/
theorem inventoriesOk_written {ref : InventoryRef}
    {f : APIInventoryEvidence → APIInventoryEvidence}
    (hcluster : ∀ e, (f e).clusterID = e.clusterID)
    (hf : ∀ e, t.inventorySessions[ref]? = some e → InventoryOk ext (n + 1) bound (f e)) :
    InventoriesOk ext (n + 1) bound (inventoryWritten t ref f) where
  sessions := by
    intro e he
    obtain ⟨i, hi⟩ := List.getElem?_of_mem he
    unfold inventoryWritten at hi
    rw [List.getElem?_modify] at hi
    obtain ⟨e₀, he₀, rfl⟩ := Option.map_eq_some_iff.mp hi
    split
    · rename_i href
      exact hf e₀ (href ▸ he₀)
    · exact (h.sessions e₀ (List.mem_of_getElem? he₀)).mono
  filed := by
    intro cluster ref' href'
    obtain ⟨e, he, hc⟩ := h.filed cluster ref' href'
    refine ⟨if ref = ref' then f e else e, ?_, ?_⟩
    · unfold inventoryWritten
      rw [List.getElem?_modify, he]
      rfl
    · split
      · exact (hcluster e).trans hc
      · exact hc

/-- Step: a new inventory session. -/
theorem inventoriesOk_opened
    (hnext : t.nextGeneration.toNat ≤ n) (hn : n + 1 < 2 ^ 64) (cluster : String) :
    InventoriesOk ext (n + 1) bound (inventoryOpened t cluster) where
  sessions := by
    intro e he
    rcases List.mem_append.mp he with hold | hnew
    · exact (h.sessions e hold).mono
    · obtain rfl := List.mem_singleton.mp hnew
      refine ⟨?_, rfl, Nat.zero_le _, Or.inl ⟨rfl, rfl, rfl, rfl, rfl⟩⟩
      intro hzero
      have hsucc := toNat_succ hnext hn
      rw [show t.nextGeneration + 1 = 0 from hzero] at hsucc
      exact absurd hsucc (by simp)
  filed := by
    intro cluster' ref href
    rcases GoMap.of_lookup_insert href with ⟨rfl, rfl⟩ | href
    · exact ⟨_, List.getElem?_concat_length, rfl⟩
    · obtain ⟨e, he, hcluster⟩ := h.filed cluster' ref href
      obtain ⟨hlt, -⟩ := List.getElem?_eq_some_iff.mp he
      exact ⟨e, (List.getElem?_append_left hlt).trans he, hcluster⟩

/-- One honest operation keeps the inventories in order. -/
theorem InventoriesOk.step (hprint : PrintsApart ext)
    (hnext : t.nextGeneration.toNat ≤ n) (hn : n + 1 < 2 ^ 64) {op : Op}
    (hop : honest bound op = true) : InventoriesOk ext (n + 1) bound (t.step ext op) := by
  have hsame := h.mono
  have heffect := effect t ext op
  generalize t.step ext op = t' at heffect
  cases heffect with
  | beginAPIInventory hroom => exact inventoriesOk_opened h hnext hn _
  | recordInventory ref howned =>
    refine inventoriesOk_written h (fun _ => rfl) ?_
    intro e he
    have hold := h.sessions e (List.mem_of_getElem? he)
    have hrev := toNat_succ hold.revision hn
    refine ⟨hold.generation, hold.fresh, by simp only [hrev]; have := hold.revision; omega,
      Or.inr ⟨recorded_of_recordable hprint howned, by simp only [hrev]; omega, ?_⟩⟩
    exact le_of_honest hop rfl
  | stopInventory ref =>
    refine inventoriesOk_written h (fun _ => rfl) ?_
    intro e he
    have hold := hsame.sessions e (List.mem_of_getElem? he)
    exact ⟨hold.generation, hold.fresh, hold.revision, hold.record⟩
  -- everything else leaves the inventories alone
  | _ => exact ⟨hsame.sessions, hsame.filed⟩

end

end Inventories

/-! ### Runs -/

/-- What a tracker holds after at most `n` honest operations. -/
structure Evidence (ext : Externals) (n : Nat) (bound : Time) (t : CoverageTracker) : Prop where
  wellFormed : WellFormed t
  generations : GenBound t n
  sessions : SessionsOk n bound t
  inventories : InventoriesOk ext n bound t

section

variable (hprint : PrintsApart ext) {n : Nat} {t : CoverageTracker} (h : Evidence ext n bound t)
include hprint h

/-- Step: an honest operation keeps the evidence in order. -/
theorem Evidence.step (hn : n + 1 < 2 ^ 64) {op : Op} (hop : honest bound op = true) :
    Evidence ext (n + 1) bound (t.step ext op) where
  wellFormed := h.wellFormed.step ext op
  generations := h.generations.step h.wellFormed hn ext op
  sessions := h.sessions.step h.wellFormed hn ext hop
  inventories := h.inventories.step hprint h.generations.next hn hop

theorem evidence_foldl {ops : List Op} (hops : ∀ op ∈ ops, honest bound op = true)
    (hn : n + ops.length < 2 ^ 64) :
    Evidence ext (n + ops.length) bound (ops.foldl (fun t op => t.step ext op) t) := by
  induction ops generalizing t n with
  | nil => exact h
  | cons op ops ih =>
    rw [List.length_cons] at hn ⊢
    rw [List.foldl_cons, show n + (ops.length + 1) = n + 1 + ops.length by omega]
    exact ih (h.step hprint (by omega) (hops op List.mem_cons_self))
      (fun op' hop' => hops op' (List.mem_cons_of_mem _ hop')) (by omega)

end

/-- Run: in a run of honest operations it is in order throughout. -/
theorem evidence_run (hprint : PrintsApart ext) (staleAfter : Duration) {ops : List Op}
    (hops : ∀ op ∈ ops, honest bound op = true) (hlen : ops.length < 2 ^ 64) :
    Evidence ext ops.length bound (.run ext staleAfter ops) := by
  have hnew : Evidence ext 0 bound (.new staleAfter) :=
    ⟨wellFormed_new staleAfter, genBound_new staleAfter, fun s hs => absurd hs List.not_mem_nil,
      ⟨fun e he => absurd he List.not_mem_nil, fun _ _ h => absurd h (by
        show (none : Option InventoryRef) ≠ _
        simp)⟩⟩
  have h := evidence_foldl hprint hnew hops (by omega)
  rw [Nat.zero_add] at h
  exact h

end KubeAtlas.Proofs.Coverage
