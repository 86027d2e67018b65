import KubeAtlas.Lib.Replay
import KubeAtlas.Proofs.Collection.Logs

/-!
# `KubeAtlas.Proofs.Collection.Committed`: events and committed changes

The manager hands the snapshot sink an event for each change it
made. Two logs belong together: that of the changes the store
accepted, and that of the events. `recorded_iff` compares them, for
every run of callbacks with failing store calls.

An upsert sends its event after the store has accepted the write,
and sends none if the store refused it. A delete sends its event in
any case. So the two logs agree exactly if the store refused no
delete; and then replaying the events gives the objects in the store
with their versions.

Edge derivation writes references to Secrets, without events. They
are left out on both sides.
-/

set_option autoImplicit false

namespace KubeAtlas.Proofs.Collection

open Discovery KubeAtlas.Graph Lib Lib.Interleave
open Lib.Program (Exchange)
open KubeAtlas.Proofs.Graph KubeAtlas.Store

/-! ### Two logs -/

/-- The two logs of a callback belong together. Every change that it
made to the resource of its object has one event that tells of it,
and every event tells of such a change; the other changes are
references. -/
def Recorded (log : List (Exchange Call Reply)) : Prop :=
  ∃ own references, mutations log = own ++ references ∧
    (∀ change ∈ references, IsReference change) ∧ List.Forall₂ Tells (events log) own

/-- The events that a run handed to the sink. -/
def sunk (trace : List (Event Thread Callback Call Reply)) : List ResourceEvent :=
  (exchanges trace).filterMap fun x => event? x.2

/-- The changes that a run made. -/
def committed (trace : List (Event Thread Callback Call Reply)) : List Mutation :=
  (exchanges trace).filterMap fun x => mutation? x.2

/-- What the events say is there. -/
def replayed (es : List ResourceEvent) : Identity → Option ResourceWriteVersion :=
  replay eventIdentity eventLeaves (fun _ => none) es

/-- Replaying the events gives the identities and versions in the
store, Secrets aside. -/
def Reproduces (es : List ResourceEvent) (w : World) : Prop :=
  ∀ i v, i.kind ≠ "Secret" → (replayed es i = some v ↔
    ∃ id r, w.store.resources.lookup id = some r ∧ identityOf r = i ∧ versionOf r = v)

variable {log : List (Exchange Call Reply)}

/-- The logs of a callback belong together exactly if the store did
not refuse its delete. -/
theorem Outcome.recorded_of_accepted_iff {m : InformerManager} {u : Unstructured} {kind : String}
    (h : Outcome m u kind log) :
    Recorded log ↔ ¬ ∃ x ∈ log, Refusal x := by
  cases h with
  | derived h =>
    refine iff_of_true ⟨[], mutations log, rfl, h.mutations, ?_⟩ h.accepted
    rw [h.events]
    exact .nil
  | wrote type hevents hmutations derived accepted =>
    refine iff_of_true ⟨[.upserted (m.resourceOf u kind)], _, hmutations, derived, ?_⟩ accepted
    rw [hevents]
    exact .cons (tells_write type) .nil
  | deleted hevents hmutations accepted =>
    refine iff_of_true ⟨[.deleted (m.resourceOf u kind).ID], [], hmutations, by simp, ?_⟩ accepted
    rw [hevents]
    exact .cons tells_delete .nil
  | refused hevents hmutations refused =>
    refine iff_of_false ?_ (not_not.mpr refused)
    rintro ⟨own, references, hsplit, -, htells⟩
    rw [hmutations] at hsplit
    obtain ⟨rfl, -⟩ := List.append_eq_nil_iff.mp hsplit.symm
    rw [hevents] at htells
    cases htells

/-! ### Runs of the manager -/

/-- Only the informer manager has callbacks. -/
def InformerOnly (trace : List (Event Thread Callback Call Reply)) : Prop :=
  ∀ cb ∈ starts trace, ∃ gvr event, cb = .informer gvr event

section Runs

variable {m : InformerManager} {d : Crd.Discovery} {faulty : Bool}
  {trace : List (Event Thread Callback Call Reply)} {w : World} {F : Fleet}
  {t : Thread} {ran : List (Callback × List (Exchange Call Reply))}
  {x : Callback × List (Exchange Call Reply)}

section

variable (hran : Handled (collectors m d faulty) trace t ran (.done ()))
  (honly : InformerOnly trace)
include hran honly

/-- What one thread did, when all its callbacks are those of the
manager. -/
theorem outcome_of_handled (hx : x ∈ ran) :
    ∃ gvr event kind, x.1 = .informer gvr event ∧
      (event.object.kind ≠ "" → kind = event.object.kind) ∧ Outcome m event.object kind x.2 := by
  obtain ⟨gvr, event, hcb⟩ := honly x.1 (hran.started hx).1
  have hfollows := hran.runs.finished x hx
  rw [hcb] at hfollows
  obtain ⟨kind, hkind, houtcome⟩ := informer_follows hfollows
  exact ⟨gvr, event, kind, hcb, hkind, houtcome⟩

/-- The same for objects of a fleet, which carry their kind. -/
theorem outcome_of_delivers (hdelivers : F.Delivers trace) (hx : x ∈ ran) :
    ∃ o ∈ F.objects, ∃ u, o.collector = .informer ∧ o.thread = t ∧
      identityOf (m.resourceOf u o.kind) = identityOf (o.identity m) ∧ Outcome m u o.kind x.2 := by
  obtain ⟨gvr, event, kind, hcb, hkind, houtcome⟩ := outcome_of_handled hran honly hx
  have hmem := hdelivers x.1 (hran.started hx).1
  have hthread : Callback.thread x.1 = t := (hran.started hx).2
  rw [hcb] at hmem hthread
  have hkind := hkind (F.kind_ne _ hmem)
  rw [hkind] at houtcome
  refine ⟨_, hmem, event.object, rfl, hthread, ?_, houtcome⟩
  simp [identityOf, Callback.tracked, Tracked.identity]

end

section

variable (trace : List (Event Thread Callback Call Reply))

theorem committed_start (cb : Callback) :
    committed (trace ++ [.start cb]) = committed trace := by
  simp [committed]

theorem committed_reply (t : Thread) (c : Call) (reply : Reply c) :
    committed (trace ++ [.reply t c reply]) = committed trace ++ (mutation? ⟨c, reply⟩).toList := by
  unfold committed
  cases h : mutation? ⟨c, reply⟩ with
  | none | some => simp [h]

end

variable (hcluster : Plain m.clusterID) (hdelivers : F.Delivers trace)
  (honly : InformerOnly trace) (hshared : NoSharedID m F)
include hcluster

variable {o : Tracked}

/-- References are written elsewhere. -/
theorem not_reference_at (ho : o ∈ F.objects) (hkind : o.kind ≠ "Secret") {change : Mutation}
    (htarget : change.target = o.ID m) : ¬ IsReference change := by
  rintro ⟨e, ref, href, rfl⟩
  exact reference_ID_ne href (F.addressable hcluster ho) hkind htarget

section

variable (hrun : Run (collectors m d faulty) (.idle (.onStore .new)) trace (.idle w))
include hrun

/-- The store has at the place of an object what the last change
left there. -/
theorem lookup_eq_replay (ho : o ∈ F.objects) (hkind : o.kind ≠ "Secret") :
    w.store.resources.lookup (o.ID m)
      = replay Mutation.target Mutation.left (fun _ => none) (committed trace) (o.ID m) := by
  let inv : List (Event Thread Callback Call Reply) → World → Prop := fun trace w =>
    w.store.resources.lookup (o.ID m)
      = replay Mutation.target Mutation.left (fun _ => none) (committed trace) (o.ID m)
  have hstart : ∀ trace cb w, inv trace w → inv (trace ++ [.start cb]) w := by
    intro trace cb w h
    show _ = replay _ _ _ (committed (trace ++ [.start cb])) _
    rwa [committed_start]
  have hreply : ∀ trace t c reply w w', inv trace w → Answer faulty c w reply w' →
      inv (trace ++ [.reply t c reply]) w' := by
    intro trace t c reply w w' h hanswer
    have h : w.store.resources.lookup (o.ID m) = _ := h
    show _ = replay _ _ _ (committed (trace ++ [.reply t c reply])) _
    rw [committed_reply]
    cases hanswer with
    | upserted _ r =>
      show _ = replay _ _ _ (committed trace ++ [.upserted r]) _
      rw [lookup_upsertResource, Replay.concat, Function.update_apply, h]
      rfl
    | deleted _ id range =>
      show _ = replay _ _ _ (committed trace ++ [.deleted id]) _
      rw [lookup_deleteResource, Replay.concat, Function.update_apply, h]
      rfl
    | edgeUpserted _ e =>
      show _ = replay _ _ _ (committed trace ++ []) _
      rw [List.append_nil, lookup_upsertEdge, ← h]
      cases href : secretReferenceFromEdge e with
      | none => rfl
      | some ref =>
        exact if_neg (reference_ID_ne href (F.addressable hcluster ho) hkind).symm
    | _ =>
      show _ = replay _ _ _ (committed trace ++ []) _
      rw [List.append_nil]
      exact h
  exact hrun.inv (show inv [] (.onStore .new) from rfl) hstart hreply

omit hcluster in
/-- A stored object that is no Secret was written as it is. -/
theorem mem_committed_of_stored {id : String}
    {r : Resource} (hr : w.store.resources.lookup id = some r) (hkind : r.kind ≠ "Secret") :
    .upserted r ∈ committed trace ∧ r.ID = id := by
  let inv : List (Event Thread Callback Call Reply) → World → Prop := fun trace w =>
    ∀ id r, w.store.resources.lookup id = some r → r.kind ≠ "Secret" →
      .upserted r ∈ committed trace ∧ r.ID = id
  have hstart : ∀ trace cb w, inv trace w → inv (trace ++ [.start cb]) w := by
    intro trace cb w h id r hr hkind
    rw [committed_start]
    exact h id r hr hkind
  have hreply : ∀ trace t c reply w w', inv trace w → Answer faulty c w reply w' →
      inv (trace ++ [.reply t c reply]) w' := by
    intro trace t c reply w w' h hanswer id r hr hkind
    rw [committed_reply, List.mem_append]
    cases hanswer with
    | upserted _ written =>
      rw [lookup_upsertResource] at hr
      by_cases hid : id = written.ID
      · rw [if_pos hid] at hr
        have heq : sanitizeResource written = r := Option.some.inj hr
        have hsame : written = r := by
          rw [← heq, sanitizeResource_kind] at hkind
          rw [← heq, sanitizeResource_of_ne written hkind]
        subst hsame
        exact ⟨.inr (by simp [mutation?]), hid.symm⟩
      · rw [if_neg hid] at hr
        obtain ⟨hmem, hID⟩ := h id r hr hkind
        exact ⟨.inl hmem, hID⟩
    | deleted _ id' range =>
      rw [lookup_deleteResource] at hr
      by_cases hid : id = id'
      · rw [if_pos hid] at hr
        cases hr
      · rw [if_neg hid] at hr
        obtain ⟨hmem, hID⟩ := h id r hr hkind
        exact ⟨.inl hmem, hID⟩
    | edgeUpserted _ e =>
      rw [lookup_upsertEdge] at hr
      cases href : secretReferenceFromEdge e with
      | none =>
        rw [href] at hr
        obtain ⟨hmem, hID⟩ := h id r hr hkind
        exact ⟨.inl hmem, hID⟩
      | some ref =>
        rw [href] at hr
        by_cases hid : id = ref.ID
        · have hsome : some ref = some r := (if_pos hid).symm.trans hr
          rw [← Option.some.inj hsome] at hkind
          exact absurd (secretReferenceFromEdge_kind href) hkind
        · obtain ⟨hmem, hID⟩ := h id r ((if_neg hid).symm.trans hr) hkind
          exact ⟨.inl hmem, hID⟩
    | _ =>
      obtain ⟨hmem, hID⟩ := h id r hr hkind
      exact ⟨.inl hmem, hID⟩
  have hinit : inv [] (.onStore .new) := by
    intro id r hr
    cases hr
  exact hrun.inv hinit hstart hreply id r hr hkind

end

omit hcluster in
include hshared in
/-- The place and the identity of a callback's resource determine
its object. -/
theorem eq_iff_of_outcome {o o' : Tracked} {r : Resource} (ho : o ∈ F.objects)
    (ho' : o' ∈ F.objects) (hc : o.collector = .informer) (hkind : o.kind ≠ "Secret")
    (hr : identityOf r = identityOf (o'.identity m)) :
    (identityOf r = identityOf (o.identity m) ↔ o' = o) ∧ (r.ID = o.ID m ↔ o' = o) := by
  have hID : r.ID = o'.ID m := congrArg Identity.ID hr
  have hplace : r.ID = o.ID m ↔ o' = o := by
    rw [hID]
    exact ⟨hshared o ho hc hkind o' ho', fun heq => by rw [heq]⟩
  refine ⟨⟨fun heq => hplace.mp (congrArg Identity.ID heq), ?_⟩, hplace⟩
  rintro rfl
  exact hr

include hshared in
/-- The events and the changes of a callback at one object. -/
theorem Outcome.tells_at {o o' : Tracked} {u : Unstructured}
    (h : Outcome m u o'.kind log) (haccepted : ¬ ∃ x ∈ log, Refusal x) (ho : o ∈ F.objects)
    (ho' : o' ∈ F.objects) (hc : o.collector = .informer) (hkind : o.kind ≠ "Secret")
    (hr : identityOf (m.resourceOf u o'.kind) = identityOf (o'.identity m)) :
    List.Forall₂
      (fun e change => eventIdentity e = identityOf (o.identity m) ∧ change.target = o.ID m ∧
        Tells e change)
      ((events log).filter fun e => eventIdentity e = identityOf (o.identity m))
      ((mutations log).filter fun change => change.target = o.ID m) := by
  obtain ⟨hidentity, hplace⟩ := eq_iff_of_outcome hshared ho ho' hc hkind hr
  have hreferences : ∀ changes : List Mutation, (∀ change ∈ changes, IsReference change) →
      (changes.filter fun change => change.target = o.ID m) = [] := by
    intro changes hchanges
    refine List.filter_eq_nil_iff.mpr fun change hchange htarget => ?_
    exact not_reference_at hcluster ho hkind (of_decide_eq_true htarget) (hchanges change hchange)
  -- both sides have an entry exactly if the callback is about `o`
  have hsingle : ∀ e change, Tells e change →
      eventIdentity e = identityOf (m.resourceOf u o'.kind) → List.Forall₂
      (fun e change => eventIdentity e = identityOf (o.identity m) ∧ change.target = o.ID m ∧
        Tells e change)
      ([e].filter fun e => eventIdentity e = identityOf (o.identity m))
      ([change].filter fun change => change.target = o.ID m) := by
    intro e change htells he
    have htarget : change.target = (m.resourceOf u o'.kind).ID := by
      rw [htells.target, he, identity_ID]
    by_cases heq : o' = o
    · have he' := he.trans (hidentity.mpr heq)
      have htarget' := htarget.trans (hplace.mpr heq)
      rw [List.filter_cons_of_pos (by simpa using he'),
        List.filter_cons_of_pos (by simpa using htarget')]
      exact .cons ⟨he', htarget', htells⟩ .nil
    · have he' : ¬ eventIdentity e = identityOf (o.identity m) := fun h =>
        heq (hidentity.mp (he.symm.trans h))
      have htarget' : ¬ change.target = o.ID m := fun h => heq (hplace.mp (htarget.symm.trans h))
      rw [List.filter_cons_of_neg (by simpa using he'),
        List.filter_cons_of_neg (by simpa using htarget')]
      exact .nil
  have hdelete : eventIdentity (deleteEvent m u o'.kind) = identityOf (m.resourceOf u o'.kind) := by
    simp [eventIdentity, deleteEvent, identityOf]
  cases h with
  | derived h =>
    rw [h.events, hreferences _ h.mutations]
    exact .nil
  | @wrote eventType type hevents references hmutations derived accepted =>
    rw [hevents, hmutations]
    show List.Forall₂ _ _ (([Mutation.upserted (m.resourceOf u o'.kind)] ++ references).filter _)
    rw [List.filter_append, hreferences references derived, List.append_nil]
    exact hsingle _ _ (tells_write type) rfl
  | deleted hevents hmutations accepted =>
    rw [hevents, hmutations]
    exact hsingle _ _ tells_delete hdelete
  | refused hevents hmutations refused => exact absurd refused haccepted

omit hcluster in
include hdelivers honly in
/-- Every exchange is that of a callback about an object of the
fleet. -/
theorem exists_outcome_of_exchange {store : MemoryStore}
    (hrun : Run (collectors m d faulty) (.idle (.onStore store)) trace (.idle w))
    {x : Thread × Exchange Call Reply} (hx : x ∈ exchanges trace) :
    ∃ o ∈ F.objects, ∃ u log, o.collector = .informer ∧ o.thread = x.1 ∧ x.2 ∈ log ∧
      identityOf (m.resourceOf u o.kind) = identityOf (o.identity m) ∧ Outcome m u o.kind log := by
  obtain ⟨ran, hran⟩ := hrun.handled (Config.idle_idle _) x.1
  obtain ⟨y, hy, hmem⟩ := hran.exists_of_mem hx
  obtain ⟨o, ho, u, hc, hthread, hr, houtcome⟩ := outcome_of_delivers hran honly hdelivers hy
  exact ⟨o, ho, u, y.2, hc, hthread, hmem, hr, houtcome⟩

include hdelivers honly hshared in
/-- The events and the changes of a run at one object. -/
theorem tells_at_run {store : MemoryStore}
    (hrun : Run (collectors m d faulty) (.idle (.onStore store)) trace (.idle w))
    (haccepted : ¬ ∃ x ∈ exchanges trace, Refusal x.2) (ho : o ∈ F.objects)
    (hc : o.collector = .informer) (hkind : o.kind ≠ "Secret") :
    List.Forall₂
      (fun e change => eventIdentity e = identityOf (o.identity m) ∧ change.target = o.ID m ∧
        Tells e change)
      ((sunk trace).filter fun e => eventIdentity e = identityOf (o.identity m))
      ((committed trace).filter fun change => change.target = o.ID m) := by
  obtain ⟨ran, hran⟩ := hrun.handled (Config.idle_idle _) o.thread
  -- only the thread of the object writes there, or sends events about it
  have hevents : (sunk trace).filter (fun e => eventIdentity e = identityOf (o.identity m))
      = (events (ran.flatMap Prod.snd)).filter
        fun e => eventIdentity e = identityOf (o.identity m) := by
    rw [hran.log]
    refine filter_exchanges fun x hx e hevent hidentity => ?_
    obtain ⟨o', ho', u, log, -, hthread, hmem, hr, houtcome⟩ :=
      exists_outcome_of_exchange hdelivers honly hrun hx
    have he := houtcome.about.1 e (List.mem_filterMap.mpr ⟨x.2, hmem, hevent⟩)
    have heq := (eq_iff_of_outcome hshared ho ho' hc hkind hr).1.mp
      (he.symm.trans (of_decide_eq_true hidentity))
    rw [← hthread, heq]
  have hmutations : (committed trace).filter (fun change => change.target = o.ID m)
      = (mutations (ran.flatMap Prod.snd)).filter fun change => change.target = o.ID m := by
    rw [hran.log]
    refine filter_exchanges fun x hx change hmutation htarget => ?_
    obtain ⟨o', ho', u, log, -, hthread, hmem, hr, houtcome⟩ :=
      exists_outcome_of_exchange hdelivers honly hrun hx
    have htarget := of_decide_eq_true htarget
    cases houtcome.about.2 change (List.mem_filterMap.mpr ⟨x.2, hmem, hmutation⟩) with
    | inl hown =>
      have heq := (eq_iff_of_outcome hshared ho ho' hc hkind hr).2.mp (hown.symm.trans htarget)
      rw [← hthread, heq]
    | inr hreference => exact absurd hreference (not_reference_at hcluster ho hkind htarget)
  rw [hevents, hmutations]
  -- the callbacks of the thread, one after the other
  have hcallbacks : ∀ x ∈ ran, List.Forall₂
      (fun e change => eventIdentity e = identityOf (o.identity m) ∧ change.target = o.ID m ∧
        Tells e change)
      ((events x.2).filter fun e => eventIdentity e = identityOf (o.identity m))
      ((mutations x.2).filter fun change => change.target = o.ID m) := by
    intro x hx
    obtain ⟨o', ho', u, -, hthread, hr, houtcome⟩ := outcome_of_delivers hran honly hdelivers hx
    refine houtcome.tells_at hcluster hshared ?_ ho ho' hc hkind hr
    rintro ⟨y, hy, hrefusal⟩
    exact haccepted ⟨(o.thread, y), hran.mem_exchanges hx hy, hrefusal⟩
  clear hevents hmutations hran
  induction ran with
  | nil => exact .nil
  | cons x ran ih =>
    rw [List.flatMap_cons, events_append, mutations_append, List.filter_append, List.filter_append]
    exact List.rel_append (hcallbacks x List.mem_cons_self)
      (ih fun y hy => hcallbacks y (List.mem_cons_of_mem _ hy))

/-- A version, and the stored object with that identity which has
it; or neither. -/
structure Shows (i : Identity) (version : Option ResourceWriteVersion) (stored : Option Resource) :
    Prop where
  version : version = stored.map versionOf
  identity : ∀ r, stored = some r → identityOf r = i

omit hcluster in
theorem Tells.shows {e : ResourceEvent} {change : Mutation} (h : Tells e change)
    (hkind : (eventIdentity e).kind ≠ "Secret") :
    Shows (eventIdentity e) (eventLeaves e) change.left := by
  cases h with
  | @write r type identity version =>
    have hsame : sanitizeResource r = r := by
      refine sanitizeResource_of_ne r ?_
      rwa [identity] at hkind
    have htype : e.eventType ≠ .delete := by
      rcases type with h | h <;> rw [h] <;> decide
    rw [eventLeaves, if_neg htype, Mutation.left, hsame]
    refine ⟨congrArg some version, fun r' heq => ?_⟩
    rw [← Option.some.inj heq, identity]
  | delete type =>
    rw [eventLeaves, if_pos type]
    exact ⟨rfl, by simp [Mutation.left]⟩

include hdelivers honly hshared in
/-- What the events say about an object is what the store has. -/
theorem shows_replayed (hrun : Run (collectors m d faulty) (.idle (.onStore .new)) trace (.idle w))
    (haccepted : ¬ ∃ x ∈ exchanges trace, Refusal x.2) (ho : o ∈ F.objects)
    (hc : o.collector = .informer) (hkind : o.kind ≠ "Secret") :
    Shows (identityOf (o.identity m)) (replayed (sunk trace) (identityOf (o.identity m)))
      (w.store.resources.lookup (o.ID m)) := by
  rw [lookup_eq_replay hcluster hrun ho hkind, replayed, ← Replay.filter_eq (sunk trace),
    ← Replay.filter_eq (committed trace)]
  refine Replay.of_forall₂ ⟨rfl, by simp⟩ ?_
  refine (tells_at_run hcluster hdelivers honly hshared hrun haccepted ho hc hkind).imp ?_
  rintro e change ⟨he, htarget, htells⟩
  refine ⟨he, htarget, ?_⟩
  rw [← he]
  refine htells.shows ?_
  rw [he]
  exact hkind

include hdelivers honly hshared in
/-- If the store refused no delete, replaying the events gives its
contents. -/
theorem reproduces_of_accepted
    (hrun : Run (collectors m d faulty) (.idle (.onStore .new)) trace (.idle w))
    (haccepted : ¬ ∃ x ∈ exchanges trace, Refusal x.2) : Reproduces (sunk trace) w := by
  intro i v hkind
  constructor
  · intro hreplayed
    -- an event about the identity comes from a callback about its object
    have hevent : ∃ e ∈ sunk trace, eventIdentity e = i := by
      by_contra hnone
      have hempty : (sunk trace).filter (fun e => eventIdentity e = i) = [] :=
        List.filter_eq_nil_iff.mpr fun e he h => hnone ⟨e, he, of_decide_eq_true h⟩
      rw [replayed, ← Replay.filter_eq (sunk trace), hempty] at hreplayed
      cases hreplayed
    obtain ⟨e, he, rfl⟩ := hevent
    obtain ⟨x, hx, hxe⟩ := List.mem_filterMap.mp he
    obtain ⟨o, ho, u, log, hc, -, hmem, hr, houtcome⟩ :=
      exists_outcome_of_exchange hdelivers honly hrun hx
    have hidentity : eventIdentity e = identityOf (o.identity m) :=
      (houtcome.about.1 e (List.mem_filterMap.mpr ⟨x.2, hmem, hxe⟩)).trans hr
    rw [hidentity] at hreplayed hkind ⊢
    have hshows := shows_replayed hcluster hdelivers honly hshared hrun haccepted ho hc hkind
    obtain ⟨r, hlookup, hversion⟩ := Option.map_eq_some_iff.mp (hshows.version.symm.trans hreplayed)
    exact ⟨_, r, hlookup, hshows.identity r hlookup, hversion⟩
  · rintro ⟨id, r, hlookup, rfl, rfl⟩
    obtain ⟨hmem, rfl⟩ := mem_committed_of_stored hrun hlookup hkind
    obtain ⟨x, hx, hxr⟩ := List.mem_filterMap.mp hmem
    obtain ⟨o, ho, u, log, hc, -, hmem, hr, houtcome⟩ :=
      exists_outcome_of_exchange hdelivers honly hrun hx
    have hwritten := houtcome.eq_of_upserted (List.mem_filterMap.mpr ⟨x.2, hmem, hxr⟩) hkind
    rw [← hwritten] at hr
    have hID : r.ID = o.ID m := congrArg Identity.ID hr
    rw [hr] at hkind ⊢
    have hshows := shows_replayed hcluster hdelivers honly hshared hrun haccepted ho hc hkind
    rw [hshows.version, ← hID, hlookup]
    rfl

end Runs

/-- In which runs the history records committed changes only, and
all of them. Whatever the extractors do and whichever store calls
fail: in each callback the events tell of the changes that it made
to its object, one event for each change, and from an empty store
the events replay to the contents of the store if no two objects
share an identifier, exactly if the store refused no delete. -/
theorem recorded_iff (m : InformerManager) (d : Crd.Discovery) {store : MemoryStore}
    {trace : List (Event Thread Callback Call Reply)} {w : World}
    (hrun : Run (collectors m d true) (.idle (.onStore store)) trace (.idle w))
    (honly : InformerOnly trace) :
    ((∀ t ran, Handled (collectors m d true) trace t ran (.done ()) → ∀ x ∈ ran, Recorded x.2) ∧
      (store = .new → Plain m.clusterID → ∀ F : Fleet, F.Delivers trace → NoSharedID m F →
        Reproduces (sunk trace) w)) ↔
      ¬ ∃ x ∈ exchanges trace, Refusal x.2 := by
  constructor
  · rintro ⟨hrecorded, -⟩ ⟨x, hx, hrefusal⟩
    obtain ⟨ran, hran⟩ := hrun.handled (Config.idle_idle _) x.1
    obtain ⟨y, hy, hmem⟩ := hran.exists_of_mem hx
    obtain ⟨gvr, event, kind, -, -, houtcome⟩ := outcome_of_handled hran honly hy
    exact houtcome.recorded_of_accepted_iff.mp (hrecorded x.1 ran hran y hy) ⟨x.2, hmem, hrefusal⟩
  · intro haccepted
    refine ⟨fun t ran hran x hx => ?_, ?_⟩
    · obtain ⟨gvr, event, kind, -, -, houtcome⟩ := outcome_of_handled hran honly hx
      refine houtcome.recorded_of_accepted_iff.mpr ?_
      rintro ⟨y, hy, hrefusal⟩
      exact haccepted ⟨(t, y), hran.mem_exchanges hx hy, hrefusal⟩
    · rintro rfl hcluster F hdelivers hshared
      exact reproduces_of_accepted hcluster hdelivers honly hshared hrun haccepted

/-! ### A delete that is refused -/

/-- A store that refuses to delete, and does everything else. -/
def refuseDeletes : (c : Call) → World → Reply c × World
  | .deleteResource _, w => (.error "unavailable", w)
  | c, w => respond RangeOrder.inserted c w

theorem answer_refuseDeletes (c : Call) (w : World) :
    Answer true c w (refuseDeletes c w).1 (refuseDeletes c w).2 := by
  cases c with
  | deleteResource id => exact .deleteFailed w id "unavailable" rfl
  | _ => exact answer_respond true RangeOrder.inserted _ w

/-- A Service is added and deleted again. -/
def shortLife : List Callback :=
  let web := (service "web").delivered ⟨"uid-a", "7"⟩
  [.informer services (.added web), .informer services (.deleted web)]

variable {trace : List (Event Thread Callback Call Reply)}

theorem informerOnly_of_shortLife (h : starts trace = shortLife) : InformerOnly trace := by
  intro cb hcb
  rw [h] at hcb
  simp only [shortLife, List.mem_cons, List.not_mem_nil, or_false] at hcb
  rcases hcb with rfl | rfl
  · exact ⟨_, _, rfl⟩
  · exact ⟨_, _, rfl⟩

theorem delivers_of_shortLife (h : starts trace = shortLife) : distinctFleet.Delivers trace := by
  intro cb hcb
  rw [h] at hcb
  simp only [shortLife, List.mem_cons, List.not_mem_nil, or_false] at hcb
  rcases hcb with rfl | rfl
  · exact Or.inl rfl
  · exact Or.inl rfl

theorem noSharedID_distinctFleet : NoSharedID defaultManager distinctFleet := by
  rintro o (rfl | rfl) hc hkind o' (rfl | rfl) hID
  · rfl
  · exact absurd hID (by decide)
  · cases hc
  · cases hc

/-- The sink has the event of a delete that the store refused:
nothing was deleted, the Service is still stored, and replaying the
events says that it is gone. -/
theorem refused_delete_is_recorded :
    ∃ trace w,
      Run (collectors defaultManager ⟨false⟩ true) (.idle (.onStore .new)) trace (.idle w) ∧
      InformerOnly trace ∧ distinctFleet.Delivers trace ∧ NoSharedID defaultManager distinctFleet ∧
      (∃ e ∈ sunk trace, e.eventType = .delete) ∧ (∀ id, .deleted id ∉ committed trace) ∧
      ¬ Reproduces (sunk trace) w := by
  let sys := collectors defaultManager ⟨false⟩ true
  have hstarts : starts (history sys refuseDeletes (World.onStore .new) shortLife) = shortLife :=
    starts_history ..
  refine ⟨_, _, run_history sys answer_refuseDeletes (World.onStore .new) shortLife,
    informerOnly_of_shortLife hstarts, delivers_of_shortLife hstarts, noSharedID_distinctFleet,
    by decide +kernel, ?_, ?_⟩
  · have hupserts : ∀ change ∈ committed (history sys refuseDeletes (World.onStore .new) shortLife),
        change.left.isSome = true := by decide +kernel
    intro id hmem
    cases hupserts _ hmem
  · intro hreproduces
    let i : Identity := ⟨"", "d", "Service", "web"⟩
    have hstored : (AList.lookup i.ID (finalState sys refuseDeletes (World.onStore .new)
        shortLife).store.resources).map (fun r => (identityOf r, versionOf r))
        = some (i, ⟨"uid-a", "7"⟩) := by decide +kernel
    obtain ⟨r, hr, hpair⟩ := Option.map_eq_some_iff.mp hstored
    have hthere := (hreproduces i ⟨"uid-a", "7"⟩ (by decide)).mpr
      ⟨i.ID, r, hr, congrArg Prod.fst hpair, congrArg Prod.snd hpair⟩
    have hgone : replayed (sunk (history sys refuseDeletes (World.onStore .new) shortLife)) i
        = none := by decide +kernel
    cases hthere

/-- When the store deletes the Service, both logs agree. -/
theorem recorded_iff_accepted :
    ∃ trace w,
      Run (collectors defaultManager ⟨false⟩ true) (.idle (.onStore .new)) trace (.idle w) ∧
      starts trace = shortLife ∧
      (∀ t ran, Handled (collectors defaultManager ⟨false⟩ true) trace t ran (.done ()) →
        ∀ x ∈ ran, Recorded x.2) ∧ Reproduces (sunk trace) w := by
  let sys := collectors defaultManager ⟨false⟩ true
  have hrun := run_history sys (answer_respond true RangeOrder.inserted)
    (World.onStore .new) shortLife
  have hstarts : starts (history sys (respond RangeOrder.inserted) (World.onStore .new) shortLife)
      = shortLife := starts_history ..
  have hrecorded := (recorded_iff defaultManager ⟨false⟩ hrun
    (informerOnly_of_shortLife hstarts)).mpr (by decide +kernel)
  exact ⟨_, _, hrun, hstarts, hrecorded.1, hrecorded.2 rfl ⟨by decide, by decide⟩ distinctFleet
    (delivers_of_shortLife hstarts) noSharedID_distinctFleet⟩

end KubeAtlas.Proofs.Collection
