import KubeAtlas.Proofs.Collection.Callbacks

/-!
# `KubeAtlas.Proofs.Collection.WriteCache`: the cache of written versions

The informer manager skips the write of a version that its cache has
as written. The cache is keyed by type, namespace and name. The
store is keyed by an identifier without the API group, and a second
collector writes and deletes in it. So the cache can be wrong about
the store: `lost_behind_cache` is a run in which a Service is gone
from the store, while the cache says that it is there and a resync
leaves it at that.

`writeCache_iff` says when this cannot happen: exactly when no other
tracked object is stored under the identifier of an object of the
manager. Secrets are excepted, since their versions are never
cached. The condition is also broken by an object of a type that
both collectors watch.

The proof is a rely-guarantee argument. The thread of a type owns
the cache entries of that type and the store entries of its objects.
Between two callbacks every cached version is the stored one; within
a callback the store is written first and the cache after it.
-/

set_option autoImplicit false

namespace KubeAtlas.Proofs.Collection

open Discovery KubeAtlas.Graph Lib Lib.Interleave
open Operations (GroupVersionResource)
open KubeAtlas.Proofs.Graph KubeAtlas.Store

/-- Objects of a cluster, as the collectors track them. The API
server gives every object a kind and a name, lets none of the parts
contain a separator (a name may contain a colon), and serves one
kind under each type. -/
structure Fleet where
  objects : Set Tracked
  kind_ne : ∀ o ∈ objects, o.kind ≠ ""
  name_ne : ∀ o ∈ objects, o.name ≠ ""
  plain_kind : ∀ o ∈ objects, Plain o.kind
  plain_ns : ∀ o ∈ objects, Plain o.ns
  name_slash : ∀ o ∈ objects, '/' ∉ o.name.toList
  one_kind : ∀ o ∈ objects, ∀ o' ∈ objects, o.collector = .informer → o'.collector = .informer →
    o.gvr = o'.gvr → o.kind = o'.kind
  watched : ∀ o ∈ objects, o.collector = .informer → isSkipped o.gvr = false
  registered : ∀ o ∈ objects, o.collector = .crd → Crd.registrable o.gvr o.kind = true

/-- The callbacks of a history are about objects of the fleet. -/
def Fleet.Delivers (F : Fleet) (trace : List (Event Thread Callback Call Reply)) : Prop :=
  ∀ cb ∈ starts trace, cb.tracked ∈ F.objects

/-- The store has the object, at this version. -/
def Represented (m : InformerManager) (w : World) (o : Tracked) (v : ResourceWriteVersion) : Prop :=
  ∃ r, w.store.resources.lookup (o.ID m) = some r ∧ versionOf r = v

/-- Every version in the cache is that of an object, and the store
has that object at that version. -/
def CacheCoherent (m : InformerManager) (F : Fleet) (w : World) : Prop :=
  ∀ key v, w.persisted.lookup key = some v →
    ∃ o ∈ F.objects, o.collector = .informer ∧ o.key = key ∧ Represented m w o v

/-- No other tracked object has the identifier of an object of the
manager, Secrets excepted. -/
def NoSharedID (m : InformerManager) (F : Fleet) : Prop :=
  ∀ o ∈ F.objects, o.collector = .informer → o.kind ≠ "Secret" →
    ∀ o' ∈ F.objects, o'.ID m = o.ID m → o' = o

/-! ### Objects and their callbacks -/

section Objects

variable {m : InformerManager} {F : Fleet} {o o' : Tracked}

theorem Fleet.addressable (F : Fleet) (hcluster : Plain m.clusterID) (ho : o ∈ F.objects) :
    Addressable (o.identity m) where
  kind_ne := F.kind_ne o ho
  name_ne := F.name_ne o ho
  ns := F.plain_ns o ho
  kind := F.plain_kind o ho
  name := F.name_slash o ho
  cluster := by
    unfold Tracked.identity
    cases o.collector with
    | informer => exact hcluster
    | crd => exact (⟨by decide, by decide⟩ : Plain "")

/-- The cache key determines the object. -/
theorem Fleet.eq_of_key (F : Fleet) (ho : o ∈ F.objects) (ho' : o' ∈ F.objects)
    (hc : o.collector = .informer) (hc' : o'.collector = .informer) (hkey : o.key = o'.key) :
    o = o' := by
  have hgvr : o.gvr = o'.gvr := congrArg ResourceWriteKey.gvr hkey
  have hns : o.ns = o'.ns := congrArg ResourceWriteKey.ns hkey
  have hname : o.name = o'.name := congrArg ResourceWriteKey.name hkey
  have hkind := F.one_kind o ho o' ho' hc hc' hgvr
  cases o
  cases o'
  simp_all

section

variable (m : InformerManager) (gvr : GroupVersionResource)

/-- The resource of an informer callback is stored under the
identifier of its object. -/
theorem resourceOf_ID (event : ObjectEvent) :
    (m.resourceOf event.object event.object.kind).ID
      = (Callback.informer gvr event).tracked.ID m := by
  apply Resource.ID_congr <;> simp [Callback.tracked, Tracked.identity]

/-- So is the resource of a callback for a custom resource. -/
theorem unstructuredToResource_ID (kind : String) (event : ObjectEvent) :
    (unstructuredToResource event.object kind).ID = (Callback.crd gvr kind event).tracked.ID m := by
  unfold unstructuredToResource
  rw [sanitizeResource_ID]
  rfl

end

end Objects

/-! ### The discipline of the collectors -/

section Discipline

variable (m : InformerManager) (F : Fleet)

/-- Nobody else touches the cache entries of a type, or the store
entries of its objects. -/
structure Untouched (t : Thread) (w w' : World) : Prop where
  store : ∀ o ∈ F.objects, o.collector = .informer → o.thread = t → o.kind ≠ "Secret" →
    w'.store.resources.lookup (o.ID m) = w.store.resources.lookup (o.ID m)
  persisted : ∀ key, Thread.informer key.gvr = t →
    w'.persisted.lookup key = w.persisted.lookup key

theorem Untouched.refl (t : Thread) (w : World) : Untouched m F t w w := ⟨by simp, by simp⟩

/-- The cache entries of a type are right, that of `except` aside. -/
def CoherentBut (except : Option ResourceWriteKey) (t : Thread) (w : World) : Prop :=
  ∀ key v, Thread.informer key.gvr = t → some key ≠ except → w.persisted.lookup key = some v →
    ∃ o ∈ F.objects, o.collector = .informer ∧ o.key = key ∧ o.kind ≠ "Secret" ∧
      Represented m w o v

variable {m F} {t : Thread} {w w' : World} {except : Option ResourceWriteKey}

theorem CoherentBut.stable (h : CoherentBut m F except t w) (hw : Untouched m F t w w') :
    CoherentBut m F except t w' := by
  intro key v hthread hkey hget
  rw [hw.persisted key hthread] at hget
  obtain ⟨o, ho, hc, rfl, hkind, r, hr, hv⟩ := h key v hthread hkey hget
  have hown : o.thread = t := by
    rw [← hthread]
    simp only [Tracked.thread, hc]
    rfl
  exact ⟨o, ho, hc, rfl, hkind, r, by rw [hw.store o ho hc hown hkind, hr], hv⟩

/-- A step that leaves the cache alone and changes the store for
`except` only. -/
theorem CoherentBut.of_store (h : CoherentBut m F except t w)
    (hpersisted : w'.persisted = w.persisted)
    (hstore : ∀ o ∈ F.objects, o.collector = .informer → o.kind ≠ "Secret" → some o.key ≠ except →
      w'.store.resources.lookup (o.ID m) = w.store.resources.lookup (o.ID m)) :
    CoherentBut m F except t w' := by
  intro key v hthread hkey hget
  rw [hpersisted] at hget
  obtain ⟨o, ho, hc, rfl, hkind, r, hr, hv⟩ := h key v hthread hkey hget
  exact ⟨o, ho, hc, rfl, hkind, r, by rw [hstore o ho hc hkind hkey, hr], hv⟩

theorem CoherentBut.weaken (h : CoherentBut m F none t w) (key : ResourceWriteKey) :
    CoherentBut m F (some key) t w :=
  fun key' v hthread _ hget => h key' v hthread (by simp) hget

variable {key : ResourceWriteKey}

/-- An entry that is not there cannot be wrong. -/
theorem CoherentBut.of_absent (h : CoherentBut m F (some key) t w)
    (habsent : w.persisted.lookup key = none) : CoherentBut m F none t w := by
  intro key' v hthread _ hget
  refine h key' v hthread ?_ hget
  rintro heq
  rw [Option.some.inj heq, habsent] at hget
  cases hget

variable {v : ResourceWriteVersion}

/-- Marking a version as written, when it is. -/
theorem CoherentBut.setPersisted {o : Tracked} (h : CoherentBut m F (some o.key) t w)
    (ho : o ∈ F.objects) (hc : o.collector = .informer) (hkind : o.kind ≠ "Secret")
    (hown : Represented m w o v) :
    CoherentBut m F none t (w.setPersisted o.key v) := by
  intro key v' hthread _ hget
  have hget' : (if key = o.key then some v else w.persisted.lookup key) = some v' :=
    (lookup_insert_eq w.persisted o.key key v).symm.trans hget
  by_cases heq : key = o.key
  · rw [if_pos heq] at hget'
    rw [← Option.some.inj hget']
    exact ⟨o, ho, hc, heq.symm, hkind, hown⟩
  · rw [if_neg heq] at hget'
    exact h key v' hthread (by simpa using heq) hget'

theorem lookup_dropPersisted (w : World) (key key' : ResourceWriteKey) :
    (w.dropPersisted key).persisted.lookup key'
      = if key' = key then none else w.persisted.lookup key' :=
  lookup_erase_eq w.persisted key key'

/-- Forgetting a version. -/
theorem CoherentBut.dropPersisted (h : CoherentBut m F (some key) t w) :
    CoherentBut m F (some key) t (w.dropPersisted key) := by
  intro key' v hthread hne hget
  rw [lookup_dropPersisted, if_neg (by simpa using hne)] at hget
  exact h key' v hthread hne hget

/-- The cache entries of other types are not touched. -/
theorem untouched_of_persisted (hstore : w'.store = w.store)
    (hothers : ∀ key', key' ≠ key → w'.persisted.lookup key' = w.persisted.lookup key')
    (ht : Thread.informer key.gvr ≠ t) : Untouched m F t w w' where
  store _ _ _ _ _ := by rw [hstore]
  persisted key' hthread := hothers key' fun heq => ht (heq ▸ hthread)

theorem untouched_setPersisted (ht : Thread.informer key.gvr ≠ t) :
    Untouched m F t w (w.setPersisted key v) :=
  untouched_of_persisted rfl
    (fun key' hne => (lookup_insert_eq w.persisted key key' v).trans (if_neg hne)) ht

theorem untouched_dropPersisted (ht : Thread.informer key.gvr ≠ t) :
    Untouched m F t w (w.dropPersisted key) :=
  untouched_of_persisted rfl
    (fun key' hne => (lookup_dropPersisted w key key').trans (if_neg hne)) ht

theorem untouched_cacheKind (gvr : GroupVersionResource) (kind : String) :
    Untouched m F t w (w.cacheKind gvr kind) :=
  ⟨fun _ _ _ _ _ => rfl, fun _ _ => rfl⟩

theorem untouched_interference : Program.Interference (Untouched m F t) where
  refl := Untouched.refl m F t
  trans _ _ _ h h' :=
    ⟨fun o ho hc ht hk => (h'.store o ho hc ht hk).trans (h.store o ho hc ht hk),
      fun key ht => (h'.persisted key ht).trans (h.persisted key ht)⟩

variable (m F) in
/-- What a thread may do: it touches nothing of the others. -/
def TouchesOwn (t : Thread) (w w' : World) : Prop := ∀ t', t ≠ t' → Untouched m F t' w w'

variable (m F) in
/-- The discipline of the collectors. -/
def ownership (d : Crd.Discovery) (faulty : Bool) : Discipline (collectors m d faulty) where
  rely := Untouched m F
  guar := TouchesOwn m F
  after t _ := CoherentBut m F none t
  interference _ := untouched_interference
  compatible _ t' hne _ _ h := h t' hne
  after_stable _ _ _ _ h hw := h.stable hw

end Discipline

/-! ### The callbacks obey it -/

section Obeyed

variable {m : InformerManager} {d : Crd.Discovery} {F : Fleet} {faulty : Bool}
  {gvr : GroupVersionResource} {event : ObjectEvent} {t : Thread} {w : World}

/-- Deriving edges touches no object of the fleet but Secrets. -/
theorem DeriveCall.untouched (hcluster : Plain m.clusterID) {c : Call} {reply : Reply c}
    {w' : World} (hc : DeriveCall c) (h : Answer faulty c w reply w') (t : Thread) :
    Untouched m F t w w' where
  store o ho _ _ hkind := (hc.keeps h).2 _ (F.addressable hcluster ho) hkind
  persisted key _ := by rw [(hc.keeps h).1]

/-- A step of the manager that changes the store for the object of
the callback only. -/
theorem touchesOwn_of_store {o : Tracked} {w' : World} (hthread : o.thread = t)
    (hpersisted : w'.persisted = w.persisted)
    (hstore : ∀ o' ∈ F.objects, o'.collector = .informer → o'.kind ≠ "Secret" → o' ≠ o →
      w'.store.resources.lookup (o'.ID m) = w.store.resources.lookup (o'.ID m)) :
    TouchesOwn m F t w w' := by
  intro t' ht'
  refine ⟨fun o' ho' hc' hthread' hkind' => hstore o' ho' hc' hkind' ?_, fun _ _ => by
    rw [hpersisted]⟩
  rintro rfl
  exact ht' (hthread.symm.trans hthread')

variable (hshared : NoSharedID m F)
include hshared

/-- Writing or deleting one object leaves the entries of the others. -/
theorem ID_ne_of_ne {o o' : Tracked} {id : String} (hID : id = o.ID m) (ho : o ∈ F.objects)
    (ho' : o' ∈ F.objects) (hc' : o'.collector = .informer) (hkind' : o'.kind ≠ "Secret")
    (hne : o' ≠ o) : o'.ID m ≠ id :=
  fun heq => hne (hshared o' ho' hc' hkind' o ho (heq.trans hID).symm).symm

/-- The write of the resource: between the store and the cache, only
the entry of this object may be wrong. -/
theorem writeSteps_ownership (ho : (Callback.informer gvr event).tracked ∈ F.objects) :
    WriteSteps (Untouched m F (.informer gvr)) (TouchesOwn m F (.informer gvr)) gvr
      (m.resourceOf event.object event.object.kind) (CoherentBut m F none (.informer gvr))
      (fun w => CoherentBut m F (some (Callback.informer gvr event).tracked.key) (.informer gvr) w ∧
        (event.object.kind ≠ "Secret" → Represented m w (Callback.informer gvr event).tracked
          (versionOf (m.resourceOf event.object event.object.kind))))
      (CoherentBut m F none (.informer gvr)) where
  pre_stable _ _ h hw := h.stable hw
  post_stable _ _ h hw := h.stable hw
  wrote_stable := by
    rintro w w' ⟨hothers, hown⟩ hw
    refine ⟨hothers.stable hw, fun hkind => ?_⟩
    obtain ⟨r', hr', hv⟩ := hown hkind
    exact ⟨r', by rw [hw.store _ ho rfl rfl hkind, hr'], hv⟩
  skip _ h _ _ := h
  write := by
    intro w h
    have hother : ∀ o' ∈ F.objects, o'.collector = .informer → o'.kind ≠ "Secret" →
        o' ≠ (Callback.informer gvr event).tracked → _ := fun o' ho' hc' hkind' hne =>
      (lookup_upsertResource w _ _).trans
        (if_neg (ID_ne_of_ne hshared (resourceOf_ID m gvr event) ho ho' hc' hkind' hne))
    refine ⟨touchesOwn_of_store rfl rfl hother, (h.weaken _).of_store rfl ?_, fun _ => ?_⟩
    · intro o' ho' hc' hkind' hkey
      exact hother o' ho' hc' hkind' fun heq => hkey (by rw [heq])
    · refine ⟨_, ?_, rfl⟩
      rw [lookup_upsertResource, resourceOf_ID m gvr event, if_pos rfl, sanitizeResource_resourceOf]
  mark := by
    rintro w ⟨hothers, hown⟩ hversioned
    rw [resourceOf_ns, resourceOf_name]
    have hkind : event.object.kind ≠ "Secret" := by
      intro hsecret
      rw [versionOf_resourceOf_secret m _ _ hsecret] at hversioned
      cases hversioned
    exact ⟨fun t' ht' => untouched_setPersisted ht', hothers.setPersisted ho rfl hkind (hown hkind)⟩
  forget := by
    rintro w ⟨hothers, -⟩ -
    rw [resourceOf_ns, resourceOf_name]
    exact ⟨fun t' ht' => untouched_dropPersisted ht',
      hothers.dropPersisted.of_absent (by rw [lookup_dropPersisted]; exact if_pos rfl)⟩

theorem obeyed_upsert (event : ObjectEvent) (hcluster : Plain m.clusterID) {eventType : EventType}
    (ho : (Callback.informer gvr event).tracked ∈ F.objects)
    (hw : CoherentBut m F none (.informer gvr) w) :
    (m.handleUpsert gvr (.object event.object) eventType).Ensures (Answer faulty)
      (Untouched m F (.informer gvr)) (TouchesOwn m F (.informer gvr))
      (fun _ => CoherentBut m F none (.informer gvr)) w := by
  refine handleUpsert_ensures untouched_interference (F.kind_ne _ ho)
    (writeSteps_ownership hshared ho) (fun _ _ h hw => h.stable hw)
    (fun w t' _ => Untouched.refl m F t' w)
    (fun w h => ⟨fun t' _ => untouched_cacheKind _ _, h.stable (untouched_cacheKind _ _)⟩) ?_
    (fun _ _ h => h) hw
  intro w h
  refine Program.Ensures.of_calls (fun _ _ h hw => h.stable hw) ?_ deriveEdges_calls h
  intro c hc w reply w' hinv hanswer
  have huntouched : ∀ t', Untouched m F t' w w' := hc.untouched hcluster hanswer
  exact ⟨fun t' _ => huntouched t', hinv.stable (huntouched _)⟩

theorem obeyed_delete (event : ObjectEvent) (obj : Delivery)
    (hobj : toUnstructured (InformerManager.unwrapTombstone obj) = some event.object)
    (ho : (Callback.informer gvr event).tracked ∈ F.objects)
    (hw : CoherentBut m F none (.informer gvr) w) :
    (m.handleDelete gvr obj).Ensures (Answer faulty) (Untouched m F (.informer gvr))
      (TouchesOwn m F (.informer gvr)) (fun _ => CoherentBut m F none (.informer gvr)) w := by
  -- once the version is forgotten, the store entry may go
  let o := (Callback.informer gvr event).tracked
  let forgotten : World → Prop := fun w =>
    CoherentBut m F (some o.key) (.informer gvr) w ∧ w.persisted.lookup o.key = none
  have hstable : ∀ w w', forgotten w → Untouched m F (.informer gvr) w w' → forgotten w' := by
    rintro w w' ⟨h, habsent⟩ hw
    exact ⟨h.stable hw, by rw [hw.persisted o.key rfl, habsent]⟩
  refine handleDelete_ensures hobj untouched_interference (F.kind_ne _ ho)
    (fun _ _ h hw => h.stable hw) hstable (fun _ _ h hw => h.stable hw)
    (fun w t' _ => Untouched.refl m F t' w) ?_ ?_ ?_ (fun _ w h => h.1.of_absent h.2) hw
  · intro w h
    refine ⟨fun t' ht' => untouched_dropPersisted ht', (h.weaken o.key).dropPersisted, ?_⟩
    rw [lookup_dropPersisted]
    exact if_pos rfl
  · intro w h
    exact ⟨fun t' _ => untouched_cacheKind _ _, hstable w _ h (untouched_cacheKind _ _)⟩
  · intro w range h
    have hother : ∀ o' ∈ F.objects, o'.collector = .informer → o'.kind ≠ "Secret" → o' ≠ o → _ :=
      fun o' ho' hc' hkind' hne => (lookup_deleteResource w _ range _).trans
        (if_neg (ID_ne_of_ne hshared (resourceOf_ID m gvr event) ho ho' hc' hkind' hne))
    refine ⟨touchesOwn_of_store rfl rfl hother, CoherentBut.of_absent ?_ h.2⟩
    refine h.1.of_store rfl fun o' ho' hc' hkind' hkey => hother o' ho' hc' hkind' ?_
    rintro rfl
    exact hkey rfl

/-- A callback for a custom resource touches nothing of the manager. -/
theorem obeyed_crd (event : ObjectEvent) (hcluster : Plain m.clusterID) {kind name : String}
    {p : Handler Unit}
    (ho : (Callback.crd gvr kind event).tracked ∈ F.objects)
    (hp : p.Calls (CrdCall (unstructuredToResource event.object kind).ID)) :
    p.Ensures (Answer faulty) (Untouched m F (.crd name)) (TouchesOwn m F (.crd name))
      (fun _ => CoherentBut m F none (.crd name)) w := by
  have htrivial : ∀ w, CoherentBut m F none (.crd name) w := fun w key v hthread => by cases hthread
  refine Program.Ensures.of_calls (fun _ w' _ _ => htrivial w') ?_ hp (htrivial w)
  intro c hc w reply w' _ hanswer
  refine ⟨fun t' _ => ?_, htrivial w'⟩
  have hne : ∀ {id}, id = (unstructuredToResource event.object kind).ID → ∀ o' ∈ F.objects,
      o'.collector = .informer → o'.kind ≠ "Secret" → o'.ID m ≠ id := by
    rintro id rfl o' ho' hc' hkind'
    refine ID_ne_of_ne hshared (unstructuredToResource_ID m gvr kind event) ho ho' hc' hkind' ?_
    rintro rfl
    cases hc'
  cases hanswer with
  | upserted _ r =>
    exact ⟨fun o' ho' hc' _ hkind' => (lookup_upsertResource w r _).trans
      (if_neg (hne hc o' ho' hc' hkind')), fun _ _ => rfl⟩
  | deleted _ id range =>
    exact ⟨fun o' ho' hc' _ hkind' => (lookup_deleteResource w _ range id).trans
      (if_neg (hne hc o' ho' hc' hkind')), fun _ _ => rfl⟩
  | edgeUpserted _ e =>
    have hanswer : Answer faulty (.upsertEdge e) w (.ok ()) (w.upsertEdge e) := .edgeUpserted w e
    have hderive : DeriveCall (.upsertEdge e) := trivial
    exact hderive.untouched hcluster hanswer t'
  | setPersisted | dropPersisted | cacheKind => exact hc.elim
  | _ => exact Untouched.refl m F t' _

/-- Every callback about an object of the fleet obeys the
discipline. -/
theorem obeyed_callback (hcluster : Plain m.clusterID) {cb : Callback}
    (ho : cb.tracked ∈ F.objects) : (ownership m F d faulty).Obeyed cb := by
  intro ls w hw
  cases cb with
  | informer gvr event =>
    cases event with
    | added u => exact obeyed_upsert hshared (.added u) hcluster ho hw
    | updated u => exact obeyed_upsert hshared (.updated u) hcluster ho hw
    | deleted u => exact obeyed_delete hshared (.deleted u) (.object u) rfl ho hw
    | lost u => exact obeyed_delete hshared (.lost u) (.tombstone (.object u)) rfl ho hw
  | crd gvr kind event =>
    cases event with
    | added u => exact obeyed_crd hshared (.added u) hcluster ho crdUpsert_calls
    | updated u => exact obeyed_crd hshared (.updated u) hcluster ho crdUpsert_calls
    | deleted u =>
      have hcalls : (Crd.Discovery.handleDelete gvr (.object u) kind).Calls _ :=
        crdDelete_calls rfl
      exact obeyed_crd hshared (.deleted u) hcluster ho hcalls
    | lost u =>
      have hcalls : (Crd.Discovery.handleDelete gvr (.tombstone (.object u)) kind).Calls _ :=
        crdDelete_calls rfl
      exact obeyed_crd hshared (.lost u) hcluster ho hcalls

/-- In every quiescent state the cache is right. -/
theorem cacheCoherent_of_run (hcluster : Plain m.clusterID) {store : MemoryStore}
    {trace : List (Event Thread Callback Call Reply)} {w : World}
    (hrun : Run (collectors m d faulty) (.idle (.onStore store)) trace (.idle w))
    (hdelivers : F.Delivers trace) : CacheCoherent m F w := by
  have hcoherent : ∀ t, CoherentBut m F none t w := by
    intro t
    refine hrun.after (ownership m F d faulty) (Config.idle_idle _) (Config.idle_idle _) ?_ ?_ t
    · intro t key v _ _ hget
      cases hget
    · intro cb hcb
      exact obeyed_callback hshared hcluster (hdelivers cb hcb)
  intro key v hget
  obtain ⟨o, ho, hc, hkey, -, hr⟩ := hcoherent (.informer key.gvr) key v rfl (by simp) hget
  exact ⟨o, ho, hc, hkey, hr⟩

end Obeyed

/-! ### A shared identifier breaks it -/

section Broken

variable {m : InformerManager} {d : Crd.Discovery}

/-- What a callback ensures when it runs alone and no store call
fails. -/
abbrev Alone (p : Handler Unit) (post : World → Prop) (w : World) : Prop :=
  p.Ensures (Answer false) (fun w w' => w' = w) (fun _ _ => True) (fun _ => post) w

/-- It can run alone on any store, also on one whose calls may fail. -/
theorem exists_exec_of_alone {faulty : Bool} {p : Handler Unit} {post : World → Prop} {w : World}
    (h : Alone p post w) : ∃ w', p.Exec (Answer faulty) w () w' ∧ post w' :=
  ⟨_, Program.exec_eval (answer_respond faulty RangeOrder.inserted) p w,
    h.exec (Program.exec_eval (answer_respond false RangeOrder.inserted) p w)⟩

/-- The cache entries other than `key` are those of `w₀`. -/
def KeepsOthers (w₀ : World) (key : ResourceWriteKey) (w : World) : Prop :=
  ∀ key', key' ≠ key → w.persisted.lookup key' = w₀.persisted.lookup key'

/-- And the version `v` of `key` is in the cache, if it is one. -/
def Caches (w₀ : World) (key : ResourceWriteKey) (v : ResourceWriteVersion) (w : World) : Prop :=
  KeepsOthers w₀ key w ∧ (v.versioned = true → w.persisted.lookup key = some v)

section

variable (m : InformerManager) (gvr : GroupVersionResource) (u : Unstructured)

/-- An upsert that runs alone puts the version of its object into
the cache. -/
theorem handleUpsert_alone (eventType : EventType) (hkind : u.kind ≠ "") (w₀ : World) :
    Alone (m.handleUpsert gvr (.object u) eventType)
      (Caches w₀ ⟨gvr, u.ns, u.name⟩ (versionOf (m.resourceOf u u.kind))) w₀ := by
  have hsteps : WriteSteps (fun w w' => w' = w) (fun _ _ => True) gvr (m.resourceOf u u.kind)
      (KeepsOthers w₀ ⟨gvr, u.ns, u.name⟩) (KeepsOthers w₀ ⟨gvr, u.ns, u.name⟩)
      (Caches w₀ ⟨gvr, u.ns, u.name⟩ (versionOf (m.resourceOf u u.kind))) :=
    { pre_stable := fun _ _ h heq => heq ▸ h
      wrote_stable := fun _ _ h heq => heq ▸ h
      post_stable := fun _ _ h heq => heq ▸ h
      skip := fun w h _ hget => ⟨h, fun _ => by rwa [resourceOf_ns, resourceOf_name] at hget⟩
      write := fun w h => ⟨trivial, h⟩
      mark := by
        intro w h _
        rw [resourceOf_ns, resourceOf_name]
        refine ⟨trivial, fun key' hne => ?_, fun _ => ?_⟩
        · exact (lookup_insert_eq w.persisted _ key' _).trans ((if_neg hne).trans (h key' hne))
        · exact (lookup_insert_eq w.persisted _ _ _).trans (if_pos rfl)
      forget := by
        intro w h hversioned
        rw [resourceOf_ns, resourceOf_name]
        refine ⟨trivial, fun key' hne => ?_, fun htrue => ?_⟩
        · rw [lookup_dropPersisted, if_neg hne, h key' hne]
        · cases hversioned.symm.trans htrue }
  refine handleUpsert_ensures Program.Interference.none hkind hsteps (fun _ _ h heq => heq ▸ h)
    (fun _ => trivial) (fun w h => ⟨trivial, h⟩) ?_ (fun hfalse => by cases hfalse)
    (fun key' _ => rfl)
  intro w h
  refine Program.Ensures.of_calls (fun _ _ h heq => heq ▸ h) ?_ deriveEdges_calls h
  rintro c hc w reply w' ⟨hothers, hown⟩ hanswer
  have hpersisted := (hc.keeps hanswer).1
  refine ⟨trivial, fun key' hne => ?_, fun hversioned => ?_⟩
  · rw [hpersisted, hothers key' hne]
  · rw [hpersisted, hown hversioned]

/-- A delete that runs alone removes its object from the store. -/
theorem handleDelete_alone (hkind : u.kind ≠ "") (w₀ : World) :
    Alone (m.handleDelete gvr (.object u))
      (fun w => KeepsOthers w₀ ⟨gvr, u.ns, u.name⟩ w ∧
        w.store.resources.lookup (m.resourceOf u u.kind).ID = none) w₀ := by
  have hobj : toUnstructured (InformerManager.unwrapTombstone (.object u)) = some u := rfl
  have hstable : ∀ w w', KeepsOthers w₀ ⟨gvr, u.ns, u.name⟩ w → w' = w →
      KeepsOthers w₀ ⟨gvr, u.ns, u.name⟩ w' := fun _ _ h heq => heq ▸ h
  refine handleDelete_ensures hobj Program.Interference.none hkind hstable hstable
    (fun _ _ h heq => heq ▸ h) (fun _ => trivial) ?_ (fun w h => ⟨trivial, h⟩) ?_
    (fun hfalse => by cases hfalse) (fun key' _ => rfl)
  · intro w h
    refine ⟨trivial, fun key' hne => ?_⟩
    rw [lookup_dropPersisted, if_neg hne, h key' hne]
  · intro w range h
    refine ⟨trivial, h, ?_⟩
    rw [lookup_deleteResource, if_pos rfl]

end

variable {faulty : Bool} {o : Tracked} {v : ResourceWriteVersion}

section

variable (d : Crd.Discovery) (hkind : o.kind ≠ "") (w : World) (key : ResourceWriteKey)
  (hkey : o.collector = .informer → key ≠ o.key)
include hkind hkey

/-- Adding an object, whoever delivers it: the cache entries of
others stay. -/
theorem exists_exec_added :
    ∃ w', ((o.callback (.added (o.delivered v))).body m d).Exec (Answer faulty) w () w' ∧
      w'.persisted.lookup key = w.persisted.lookup key := by
  unfold Tracked.callback
  cases hc : o.collector with
  | informer =>
    obtain ⟨w', hexec, hothers, -⟩ := exists_exec_of_alone
      (handleUpsert_alone m o.gvr (o.delivered v) .add hkind w)
    exact ⟨w', hexec, hothers key (hkey hc)⟩
  | crd =>
    -- the context ends right after the write
    exact ⟨_,
      ⟨false, w, .ctxErr w false, .ok (), _, .upserted w _, true, _, .ctxErr _ true, rfl, rfl⟩, rfl⟩

/-- Deleting it: nothing is left under its identifier. -/
theorem exists_exec_deleted :
    ∃ w', ((o.callback (.deleted (o.delivered v))).body m d).Exec (Answer faulty) w () w' ∧
      w'.persisted.lookup key = w.persisted.lookup key ∧
      w'.store.resources.lookup (o.ID m) = none := by
  have htracked := o.tracked_callback v (.deleted (o.delivered v)) rfl
  unfold Tracked.callback at htracked ⊢
  cases hc : o.collector with
  | informer =>
    obtain ⟨w', hexec, hothers, hgone⟩ := exists_exec_of_alone
      (handleDelete_alone m o.gvr (o.delivered v) hkind w)
    refine ⟨w', hexec, hothers key (hkey hc), ?_⟩
    simp only [hc] at htracked
    rw [← htracked, ← resourceOf_ID m o.gvr (.deleted (o.delivered v))]
    exact hgone
  | crd =>
    refine ⟨_, ⟨false, w, .ctxErr w false, .ok (), _, .deleted w _ RangeOrder.inserted, rfl, rfl⟩,
      rfl, ?_⟩
    simp only [hc] at htracked
    rw [← htracked, ← unstructuredToResource_ID m o.gvr o.kind (.deleted (o.delivered v)),
      lookup_deleteResource]
    exact if_pos rfl

end

/-- Two objects with one identifier, of which the manager has one:
deleting the other one leaves the cache with a version that is not
stored. -/
theorem not_coherent_of_shared {F : Fleet} {o o' : Tracked} (ho : o ∈ F.objects)
    (ho' : o' ∈ F.objects) (hc : o.collector = .informer) (hkind : o.kind ≠ "Secret")
    (hID : o'.ID m = o.ID m) (hne : o' ≠ o) :
    ∃ trace w, Run (collectors m d faulty) (.idle (.onStore .new)) trace (.idle w) ∧
      F.Delivers trace ∧ ¬ CacheCoherent m F w := by
  let v : ResourceWriteVersion := ⟨"uid", "1"⟩
  have hkey : o'.collector = .informer → o.key ≠ o'.key := fun hc' heq =>
    hne (F.eq_of_key ho ho' hc hc' heq).symm
  -- both objects are added, and then the other one is deleted
  have hadded : ∃ w₁, ((o.callback (.added (o.delivered v))).body m d).Exec (Answer faulty)
      (.onStore .new) () w₁ ∧ w₁.persisted.lookup o.key = some v := by
    obtain ⟨w₁, hexec, -, hown⟩ := exists_exec_of_alone
      (handleUpsert_alone m o.gvr (o.delivered v) .add (F.kind_ne o ho) (.onStore .new))
    have hversion : versionOf (m.resourceOf (o.delivered v) o.kind) = v :=
      versionOf_resourceOf m _ _ hkind
    refine ⟨w₁, ?_, ?_⟩
    · unfold Tracked.callback
      simp only [hc]
      exact hexec
    · have hget := hown (by rw [show (o.delivered v).kind = o.kind from rfl, hversion]; rfl)
      rwa [show (o.delivered v).kind = o.kind from rfl, hversion] at hget
  obtain ⟨w₁, hexec₁, hget₁⟩ := hadded
  obtain ⟨w₂, hexec₂, hget₂⟩ := exists_exec_added (v := v) d (F.kind_ne o' ho') w₁ o.key hkey
  obtain ⟨w₃, hexec₃, hget₃, hgone⟩ :=
    exists_exec_deleted (v := v) d (F.kind_ne o' ho') w₂ o.key hkey
  obtain ⟨trace₁, hrun₁, hstarts₁⟩ := run_of_exec (collectors m d faulty) hexec₁
  obtain ⟨trace₂, hrun₂, hstarts₂⟩ := run_of_exec (collectors m d faulty) hexec₂
  obtain ⟨trace₃, hrun₃, hstarts₃⟩ := run_of_exec (collectors m d faulty) hexec₃
  refine ⟨trace₁ ++ trace₂ ++ trace₃, w₃, (hrun₁.append hrun₂).append hrun₃, ?_, ?_⟩
  · intro cb hcb
    simp only [starts_append, hstarts₁, hstarts₂, hstarts₃, List.mem_append,
      List.mem_singleton] at hcb
    rcases hcb with (rfl | rfl) | rfl
    · rw [o.tracked_callback v _ rfl]
      exact ho
    · rw [o'.tracked_callback v _ rfl]
      exact ho'
    · rw [o'.tracked_callback v _ rfl]
      exact ho'
  · intro hcoherent
    obtain ⟨o'', ho'', hc'', hkey'', r, hr, -⟩ :=
      hcoherent o.key v (by rw [hget₃, hget₂, hget₁])
    rw [F.eq_of_key ho'' ho hc'' hc hkey'', ← hID, hgone] at hr
    cases hr

end Broken

/-! ### A Service behind another one -/

/-- A manager with the default extractors. -/
def defaultManager : InformerManager where
  extractor := Extractor.extractAll Extractor.defaultRegistry

def services : GroupVersionResource := ⟨"", "v1", "services"⟩

def knativeServices : GroupVersionResource := ⟨"serving.knative.dev", "v1", "services"⟩

/-- A Service of the core API, and a custom resource of the same
kind. -/
def service (name : String) : Tracked := ⟨.informer, services, "Service", "d", name⟩

def knativeService (name : String) : Tracked := ⟨.crd, knativeServices, "Service", "d", name⟩

theorem forall_services {a b : String} {Q : Tracked → Prop} (h : Q (service a))
    (h' : Q (knativeService b)) : ∀ o ∈ ({service a, knativeService b} : Set Tracked), Q o := by
  rintro o (rfl | rfl)
  · exact h
  · exact h'

/-- The two of them, under the names `a` and `b`. -/
def serviceFleet (a b : String) (ha : a ≠ "") (hb : b ≠ "")
    (hslash : '/' ∉ a.toList ∧ '/' ∉ b.toList) : Fleet where
  objects := {service a, knativeService b}
  kind_ne := forall_services (by simp [service]) (by simp [knativeService])
  name_ne := forall_services ha hb
  plain_kind :=
    have hkind : Plain "Service" := ⟨by decide, by decide⟩
    forall_services hkind hkind
  plain_ns :=
    have hns : Plain "d" := ⟨by decide, by decide⟩
    forall_services hns hns
  name_slash := forall_services hslash.1 hslash.2
  one_kind := forall_services (forall_services (fun _ _ _ => rfl) (fun _ _ _ => rfl))
    (forall_services (fun _ _ _ => rfl) (fun _ _ _ => rfl))
  watched := forall_services (fun _ => show isSkipped services = false by decide) nofun
  registered := forall_services nofun fun _ =>
    show Crd.registrable knativeServices "Service" = true by decide

/-- Both Services are called `web`. -/
def sharedFleet : Fleet := serviceFleet "web" "web" (by decide) (by decide) (by decide)

/-- The Service is added, then the custom resource; the latter is
deleted again, and a resync delivers the Service once more. -/
def sharedHistory : List Callback :=
  let web := (service "web").delivered ⟨"uid-a", "7"⟩
  let other := (knativeService "web").delivered ⟨"uid-b", "9"⟩
  [.informer services (.added web), .crd knativeServices "Service" (.added other),
    .crd knativeServices "Service" (.deleted other), .informer services (.updated web)]

/-- The resync finds the version in the cache and skips the write,
and the Service is not in the store. -/
theorem lost_behind_cache :
    ∃ trace w,
      Run (collectors defaultManager ⟨false⟩ true) (.idle (.onStore .new)) trace (.idle w) ∧
      starts trace = sharedHistory ∧ sharedFleet.Delivers trace ∧
      w.persisted.lookup (service "web").key = some ⟨"uid-a", "7"⟩ ∧
      w.store.resources.lookup ((service "web").ID defaultManager) = none ∧
      ¬ CacheCoherent defaultManager sharedFleet w := by
  let sys := collectors defaultManager ⟨false⟩ true
  have hstarts :
      starts (history sys (respond RangeOrder.inserted) (World.onStore .new) sharedHistory)
        = sharedHistory := starts_history ..
  have hcached : AList.lookup (service "web").key (finalState sys (respond RangeOrder.inserted)
      (World.onStore .new) sharedHistory).persisted = some ⟨"uid-a", "7"⟩ := by decide +kernel
  have hgone : (AList.lookup ((service "web").ID defaultManager) (finalState sys
      (respond RangeOrder.inserted) (World.onStore .new) sharedHistory).store.resources).isNone
        = true := by decide +kernel
  have hgone := Option.isNone_iff_eq_none.mp hgone
  refine ⟨_, _, run_history sys (answer_respond true RangeOrder.inserted) _ sharedHistory,
    hstarts, ?_, hcached, hgone, ?_⟩
  · intro cb hcb
    rw [hstarts] at hcb
    simp only [sharedHistory, List.mem_cons, List.not_mem_nil, or_false] at hcb
    rcases hcb with rfl | rfl | rfl | rfl
    · exact Or.inl rfl
    · exact Or.inr rfl
    · exact Or.inr rfl
    · exact Or.inl rfl
  · intro hcoherent
    obtain ⟨o, ho, hc, -, r, hr, -⟩ := hcoherent _ _ hcached
    rcases ho with rfl | rfl
    · cases hgone.symm.trans hr
    · cases hc

/-- Which fleets the cache is right about. Whatever the extractors
and the evaluator do, whatever the store held at first, in every
quiescent state of every history with failing store calls the store
has each cached version of an object, exactly if no other tracked
object has the identifier of an object of the manager, Secrets
excepted. -/
theorem writeCache_iff (m : InformerManager) (d : Crd.Discovery) (hcluster : Plain m.clusterID)
    (F : Fleet) :
    (∀ store trace w, Run (collectors m d true) (.idle (.onStore store)) trace (.idle w) →
      F.Delivers trace → CacheCoherent m F w) ↔ NoSharedID m F := by
  constructor
  · intro hcoherent o ho hc hkind o' ho' hID
    by_contra hne
    obtain ⟨trace, w, hrun, hdelivers, hbroken⟩ :=
      not_coherent_of_shared (d := d) ho ho' hc hkind hID hne
    exact hbroken (hcoherent .new trace w hrun hdelivers)
  · intro hshared store trace w hrun hdelivers
    exact cacheCoherent_of_run hshared hcluster hrun hdelivers

/-- The two Services, under different names. -/
def distinctFleet : Fleet := serviceFleet "web" "api" (by decide) (by decide) (by decide)

/-- The Service is added, the custom resource is added and deleted,
and a resync delivers the Service once more. -/
def distinctHistory : List Callback :=
  let web := (service "web").delivered ⟨"uid-a", "7"⟩
  let api := (knativeService "api").delivered ⟨"uid-b", "9"⟩
  [.informer services (.added web), .crd knativeServices "Service" (.added api),
    .crd knativeServices "Service" (.deleted api), .informer services (.updated web)]

/-- With different names, the cache is right at the end of the
history. -/
theorem writeCache_iff_named :
    CacheCoherent defaultManager distinctFleet
      (finalState (collectors defaultManager ⟨true⟩ true) (respond RangeOrder.inserted)
        (World.onStore .new) distinctHistory) := by
  let sys := collectors defaultManager ⟨true⟩ true
  have hshared : NoSharedID defaultManager distinctFleet := by
    rintro o (rfl | rfl) hc hkind o' (rfl | rfl) hID
    · rfl
    · exact absurd hID (by decide)
    · cases hc
    · cases hc
  refine (writeCache_iff defaultManager ⟨true⟩ ⟨by decide, by decide⟩ _).mpr hshared _ _ _
    (run_history sys (answer_respond true RangeOrder.inserted) _ distinctHistory) ?_
  intro cb hcb
  rw [starts_history] at hcb
  simp only [distinctHistory, List.mem_cons, List.not_mem_nil, or_false] at hcb
  rcases hcb with rfl | rfl | rfl | rfl
  · exact Or.inl rfl
  · exact Or.inr rfl
  · exact Or.inr rfl
  · exact Or.inl rfl

end KubeAtlas.Proofs.Collection
