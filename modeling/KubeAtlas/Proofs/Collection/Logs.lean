import KubeAtlas.Proofs.Collection.WriteCache

/-!
# `KubeAtlas.Proofs.Collection.Logs`: the log of a callback

The log of a callback is the list of its calls with their replies.
Two things are read off it: the changes that the store accepted, and
the events that the snapshot sink got. There are four kinds of logs,
the constructors of `Outcome`: a callback derives edges only, or it
writes its object and sends the event, or it deletes it, or its
delete is refused; in the last case the event of the delete is sent
nevertheless.

Edge derivation writes references to Secrets, without events.
-/

set_option autoImplicit false

namespace KubeAtlas.Proofs.Collection

open Discovery KubeAtlas.Graph Lib
open Lib.Program (Exchange)
open Operations (GroupVersionResource)
open KubeAtlas.Store

/-! ### Changes and events -/

/-- A change of a stored resource. -/
inductive Mutation where
  | upserted (r : Resource)
  | deleted (id : String)

/-- Where the change is made. -/
def Mutation.target : Mutation → String
  | .upserted r => r.ID
  | .deleted id => id

/-- What it leaves there. -/
def Mutation.left : Mutation → Option Resource
  | .upserted r => some (sanitizeResource r)
  | .deleted _ => none

/-- The change that an exchange made. -/
def mutation? : Exchange Call Reply → Option Mutation
  | ⟨.upsertResource r, .ok _⟩ => some (.upserted r)
  | ⟨.deleteResource id, .ok _⟩ => some (.deleted id)
  | _ => none

/-- The event that an exchange sent. -/
def event? : Exchange Call Reply → Option ResourceEvent
  | ⟨.enqueue e, _⟩ => some e
  | _ => none

/-- A delete that the store refused. -/
def Refusal : Exchange Call Reply → Prop
  | ⟨.deleteResource _, .error _⟩ => True
  | _ => False

instance : DecidablePred Refusal := fun
  | ⟨.deleteResource _, .error _⟩ => .isTrue trivial
  | ⟨.deleteResource _, .ok _⟩ | ⟨.upsertResource _, _⟩ | ⟨.upsertEdge _, _⟩
  | ⟨.listResources _, _⟩ | ⟨.persisted _, _⟩ | ⟨.setPersisted _ _, _⟩ | ⟨.dropPersisted _, _⟩
  | ⟨.cachedKind _, _⟩ | ⟨.cacheKind _ _, _⟩ | ⟨.enqueue _, _⟩ | ⟨.broadcast _ _ _ _, _⟩
  | ⟨.recordGap _ _, _⟩ | ⟨.ctxErr, _⟩ | ⟨.evaluateForResource _, _⟩ => .isFalse id

/-- The changes of a log. -/
def mutations (log : List (Exchange Call Reply)) : List Mutation := log.filterMap mutation?

/-- The events of a log. -/
def events (log : List (Exchange Call Reply)) : List ResourceEvent := log.filterMap event?

/-- The change is the reference of an edge to a Secret. -/
def IsReference (change : Mutation) : Prop :=
  ∃ e ref, secretReferenceFromEdge e = some ref ∧ change = .upserted ref

/-- The identity of an object. -/
structure Identity where
  clusterID : String
  ns : String
  kind : String
  name : String
  deriving DecidableEq

/-- Where the object with an identity is stored. -/
def Identity.ID (i : Identity) : String :=
  ({ kind := i.kind, name := i.name, ns := i.ns, clusterID := i.clusterID } : Resource).ID

/-- The identity of a resource. -/
def identityOf (r : Resource) : Identity := ⟨r.clusterID, r.ns, r.kind, r.name⟩

/-- The identity that an event names. -/
def eventIdentity (e : ResourceEvent) : Identity := ⟨e.clusterID, e.ns, e.kind, e.name⟩

/-- The version that an event names. -/
def eventVersion (e : ResourceEvent) : ResourceWriteVersion := ⟨e.uid, e.resourceVersion⟩

/-- The version that is there after an event. -/
def eventLeaves (e : ResourceEvent) : Option ResourceWriteVersion :=
  if e.eventType = .delete then none else some (eventVersion e)

/-- The event tells of the change: of the write of a version of an
object, or of its deletion. -/
inductive Tells : ResourceEvent → Mutation → Prop
  | write {e : ResourceEvent} {r : Resource} (type : e.eventType = .add ∨ e.eventType = .update)
      (identity : eventIdentity e = identityOf r) (version : eventVersion e = versionOf r) :
      Tells e (.upserted r)
  | delete {e : ResourceEvent} (type : e.eventType = .delete) :
      Tells e (.deleted (eventIdentity e).ID)

section Logs

variable {log later : List (Exchange Call Reply)}

@[simp] theorem events_append : events (log ++ later) = events log ++ events later :=
  List.filterMap_append

@[simp] theorem mutations_append : mutations (log ++ later) = mutations log ++ mutations later :=
  List.filterMap_append

@[simp] theorem exists_refusal_append :
    (∃ x ∈ log ++ later, Refusal x) ↔ (∃ x ∈ log, Refusal x) ∨ ∃ x ∈ later, Refusal x := by
  simp only [List.mem_append, or_and_right, exists_or]

/-- A log without changes, events or refusals. -/
structure Silent (log : List (Exchange Call Reply)) : Prop where
  events : events log = []
  mutations : mutations log = []
  accepted : ¬ ∃ x ∈ log, Refusal x

theorem silent_nil : Silent [] := ⟨rfl, rfl, by simp⟩

theorem identity_ID (r : Resource) : (identityOf r).ID = r.ID := rfl

theorem Tells.target {e : ResourceEvent} {change : Mutation} (h : Tells e change) :
    change.target = (eventIdentity e).ID := by
  cases h with
  | write type identity version => rw [identity, identity_ID, Mutation.target]
  | delete type => rfl

end Logs

/-! ### The parts of a callback -/

section Parts

variable {m : InformerManager} {gvr : GroupVersionResource} {u : Unstructured} {r : Resource}
  {eventType : EventType} {log : List (Exchange Call Reply)}

/-- `kindFor` uses the cache of kinds only, and returns the kind
that the object carries. -/
theorem kindFor_follows {kind : Option String} (h : (kindFor gvr u).Follows log (.done kind)) :
    (u.kind ≠ "" → kind = some u.kind) ∧ Silent log := by
  by_cases hkind : u.kind = ""
  · unfold kindFor at h
    rw [if_neg (not_not.mpr hkind)] at h
    cases h with
    | @cons _ _ cached log _ rest =>
      refine ⟨fun hne => absurd hkind hne, ?_⟩
      cases cached with
      | none | some =>
        cases rest
        exact ⟨rfl, rfl, by simp [Refusal]⟩
  · rw [kindFor_eq hkind] at h
    cases h with
    | @cons _ _ cached log _ rest =>
      beta_reduce at rest
      split at rest
      · cases rest
        exact ⟨fun _ => rfl, rfl, rfl, by simp [Refusal]⟩
      · cases rest with
        | cons rest =>
          cases rest
          exact ⟨fun _ => rfl, rfl, rfl, by simp [Refusal]⟩

/-- The event of a write. -/
def writeEvent (m : InformerManager) (eventType : EventType) (r : Resource) : ResourceEvent :=
  { clusterID := m.clusterID, ns := r.ns, kind := r.kind, uid := r.uid, name := r.name
    eventType := eventType, resourceVersion := r.resourceVersion }

/-- The event of a delete. -/
def deleteEvent (m : InformerManager) (u : Unstructured) (kind : String) : ResourceEvent :=
  { clusterID := m.clusterID, ns := u.ns, kind := kind, uid := u.uid, name := u.name
    eventType := .delete, resourceVersion := u.resourceVersion }

/-- The log of a write: the resource is written and then the event
is sent. -/
structure Wrote (m : InformerManager) (eventType : EventType) (r : Resource)
    (log : List (Exchange Call Reply)) : Prop where
  events : events log = [writeEvent m eventType r]
  mutations : mutations log = [.upserted r]
  accepted : ¬ ∃ x ∈ log, Refusal x

/-- `writeResource` writes, or it does nothing that anyone sees. -/
theorem writeResource_follows {written : Option Bool}
    (h : (m.writeResource gvr eventType r).Follows log (.done written)) :
    Silent log ∨ Wrote m eventType r log := by
  rw [writeResource_eq] at h
  cases h with
  | @cons _ _ previous log _ rest =>
    beta_reduce at rest
    split at rest
    · -- the version is known to be written
      cases rest
      exact .inl ⟨rfl, rfl, by simp [Refusal]⟩
    · cases rest with
      | @cons _ _ reply log _ rest =>
        cases reply with
        | error err =>
          cases rest with
          | cons rest =>
            cases rest
            exact .inl ⟨rfl, rfl, by simp [Refusal]⟩
        | ok _ =>
          split at rest
          · cases rest with
            | cons rest =>
              cases rest with
              | cons rest =>
                cases rest
                exact .inr ⟨rfl, rfl, by simp [Refusal]⟩
          · cases rest with
            | cons rest =>
              cases rest with
              | cons rest =>
                cases rest
                exact .inr ⟨rfl, rfl, by simp [Refusal]⟩

theorem secretReferenceFromEdge_kind {e : Edge} {ref : Resource}
    (h : secretReferenceFromEdge e = some ref) : ref.kind = "Secret" := by
  obtain ⟨ns, name, clusterID, rfl⟩ := eq_secretReferenceResource h
  rfl

/-- A log that changes references only. -/
structure Derived (log : List (Exchange Call Reply)) : Prop where
  events : events log = []
  mutations : ∀ change ∈ mutations log, IsReference change
  accepted : ¬ ∃ x ∈ log, Refusal x

theorem Silent.derived (h : Silent log) : Derived log where
  events := h.events
  mutations := by simp [h.mutations]
  accepted := h.accepted

theorem Derived.append {later : List (Exchange Call Reply)} (h : Derived log)
    (h' : Derived later) : Derived (log ++ later) where
  events := by rw [events_append, h.events, h'.events]; rfl
  mutations := by
    intro change hchange
    rw [mutations_append, List.mem_append] at hchange
    exact hchange.elim (h.mutations change) (h'.mutations change)
  accepted := by
    rw [exists_refusal_append]
    exact not_or.mpr ⟨h.accepted, h'.accepted⟩

/-- So are the logs of edge derivation. -/
theorem derived_of_edgeCalls (h : ∀ x ∈ log, EdgeCall x.1) : Derived log where
  events := by
    refine List.filterMap_eq_nil_iff.mpr fun x hx => ?_
    obtain ⟨c, reply⟩ := x
    cases h ⟨c, reply⟩ hx <;> rfl
  mutations := by
    intro change hchange
    obtain ⟨⟨c, reply⟩, hx, hmutation⟩ := List.mem_filterMap.mp hchange
    cases h ⟨c, reply⟩ hx with
    | listed | gap | edge => cases hmutation
    | @reference e ref href =>
      cases reply with
      | error err => cases hmutation
      | ok _ =>
        cases hmutation
        exact ⟨e, ref, href, rfl⟩
  accepted := by
    rintro ⟨⟨c, reply⟩, hx, hrefusal⟩
    cases h ⟨c, reply⟩ hx <;> exact hrefusal

/-- The log of a whole callback. -/
inductive Outcome (m : InformerManager) (u : Unstructured) (kind : String)
    (log : List (Exchange Call Reply)) : Prop
  | derived (h : Derived log)
  | wrote {eventType : EventType} (type : eventType = .add ∨ eventType = .update)
      (events : events log = [writeEvent m eventType (m.resourceOf u kind)])
      {references : List Mutation}
      (mutations : mutations log = .upserted (m.resourceOf u kind) :: references)
      (derived : ∀ change ∈ references, IsReference change) (accepted : ¬ ∃ x ∈ log, Refusal x)
  | deleted (events : events log = [deleteEvent m u kind])
      (mutations : mutations log = [.deleted (m.resourceOf u kind).ID])
      (accepted : ¬ ∃ x ∈ log, Refusal x)
  | refused (events : events log = [deleteEvent m u kind]) (mutations : mutations log = [])
      (refused : ∃ x ∈ log, Refusal x)

theorem handleUpsert_follows (htype : eventType = .add ∨ eventType = .update)
    (h : (m.handleUpsert gvr (.object u) eventType).Follows log (.done ())) :
    ∃ kind, (u.kind ≠ "" → kind = u.kind) ∧ Outcome m u kind log := by
  obtain ⟨log₁, log₂, kind?, rfl, hkindFor, h⟩ := Program.Follows.of_bind h
  obtain ⟨hkind, hsilent⟩ := kindFor_follows hkindFor
  obtain _ | kind := kind?
  · cases h
    exact ⟨u.kind, fun _ => rfl, .derived (hsilent.derived.append silent_nil.derived)⟩
  obtain ⟨log₂, log₃, written, rfl, hwrite, h⟩ := Program.Follows.of_bind h
  -- what follows the write changes references only
  have hderived : Derived log₃ := by
    cases written with
    | none =>
      cases h
      exact silent_nil.derived
    | some resourceChanged =>
      obtain ⟨log₃, log₄, edges, rfl, hedges, h⟩ := Program.Follows.of_bind h
      refine (derived_of_edgeCalls (deriveEdges_edgeCalls.of_mem hedges)).append ?_
      split at h
      · cases h with
        | cons rest =>
          cases rest
          exact ⟨rfl, by simp [mutations, mutation?], by simp [Refusal]⟩
      · cases h
        exact silent_nil.derived
  refine ⟨kind, fun hne => Option.some.inj (hkind hne), ?_⟩
  cases writeResource_follows hwrite with
  | inl hquiet => exact .derived (hsilent.derived.append (hquiet.derived.append hderived))
  | inr hwrote =>
    refine .wrote htype ?_ ?_ hderived.mutations ?_
    · simp [hsilent.events, hwrote.events, hderived.events]
    · simp [hsilent.mutations, hwrote.mutations]
    · simp only [exists_refusal_append, not_or]
      exact ⟨hsilent.accepted, hwrote.accepted, hderived.accepted⟩

theorem handleDelete_follows {obj : Delivery}
    (hobj : toUnstructured (InformerManager.unwrapTombstone obj) = some u)
    (h : (m.handleDelete gvr obj).Follows log (.done ())) :
    ∃ kind, (u.kind ≠ "" → kind = u.kind) ∧ Outcome m u kind log := by
  unfold InformerManager.handleDelete at h
  rw [hobj] at h
  cases h with
  | @cons _ _ _ log _ h =>
    obtain ⟨log₁, log₂, kind?, rfl, hkindFor, h⟩ :=
      Program.Follows.of_bind (p := kindFor gvr u) h
    obtain ⟨hkind, hsilent⟩ := kindFor_follows hkindFor
    have hsilent : Silent (⟨.dropPersisted ⟨gvr, u.ns, u.name⟩, ()⟩ :: log₁) :=
      ⟨hsilent.events, hsilent.mutations, by simpa [Refusal] using hsilent.accepted⟩
    rw [← List.cons_append]
    obtain _ | kind := kind?
    · cases h
      exact ⟨u.kind, fun _ => rfl, .derived (hsilent.derived.append silent_nil.derived)⟩
    refine ⟨kind, fun hne => Option.some.inj (hkind hne), ?_⟩
    have hID : (if m.clusterID = "" then u.ns ++ "/" ++ kind ++ "/" ++ u.name
        else m.clusterID ++ ":" ++ (u.ns ++ "/" ++ kind ++ "/" ++ u.name))
        = (m.resourceOf u kind).ID := by
      unfold Resource.ID
      rw [resourceOf_ns, resourceOf_kind, resourceOf_name, resourceOf_clusterID]
    cases h with
    | @cons _ _ reply log₂ _ h =>
      cases reply with
      | ok _ =>
        cases h with
        | cons h =>
          cases h with
          | cons h =>
            cases h
            refine .deleted ?_ ?_ ?_
            · rw [events_append, hsilent.events]
              rfl
            · rw [mutations_append, hsilent.mutations, ← hID]
              rfl
            · rw [exists_refusal_append, not_or]
              exact ⟨hsilent.accepted, by simp [Refusal]⟩
      | error err =>
        cases h with
        | cons h =>
          cases h with
          | cons h =>
            cases h with
            | cons h =>
              cases h
              refine .refused ?_ ?_ ?_
              · rw [events_append, hsilent.events]
                rfl
              · rw [mutations_append, hsilent.mutations]
                rfl
              · rw [exists_refusal_append]
                exact .inr ⟨_, List.mem_cons_self, trivial⟩

/-- The log of every callback of the manager. -/
theorem informer_follows {d : Crd.Discovery} {event : ObjectEvent}
    (h : ((Callback.informer gvr event).body m d).Follows log (.done ())) :
    ∃ kind, (event.object.kind ≠ "" → kind = event.object.kind) ∧
      Outcome m event.object kind log := by
  cases event with
  | added u => exact handleUpsert_follows (.inl rfl) h
  | updated u => exact handleUpsert_follows (.inr rfl) h
  | deleted u =>
    have h : (m.handleDelete gvr (.object u)).Follows log (.done ()) := h
    exact handleDelete_follows rfl h
  | lost u =>
    have h : (m.handleDelete gvr (.tombstone (.object u))).Follows log (.done ()) := h
    exact handleDelete_follows rfl h

variable {kind : String}

theorem tells_write (type : eventType = .add ∨ eventType = .update) :
    Tells (writeEvent m eventType (m.resourceOf u kind)) (.upserted (m.resourceOf u kind)) :=
  .write type rfl rfl

theorem tells_delete :
    Tells (deleteEvent m u kind) (.deleted (m.resourceOf u kind).ID) := by
  have hID : (eventIdentity (deleteEvent m u kind)).ID = (m.resourceOf u kind).ID :=
    Resource.ID_congr (by simp [eventIdentity, deleteEvent]) (by simp [eventIdentity, deleteEvent])
      (by simp [eventIdentity, deleteEvent]) (by simp [eventIdentity, deleteEvent])
  rw [← hID]
  exact .delete rfl

/-- The events of a callback, and its changes but for references,
are about its object. -/
theorem Outcome.about (h : Outcome m u kind log) :
    (∀ e ∈ events log, eventIdentity e = identityOf (m.resourceOf u kind)) ∧
      ∀ change ∈ mutations log, change.target = (m.resourceOf u kind).ID ∨ IsReference change := by
  have hdelete : eventIdentity (deleteEvent m u kind) = identityOf (m.resourceOf u kind) := by
    simp [eventIdentity, deleteEvent, identityOf]
  cases h with
  | derived h => exact ⟨by simp [h.events], fun change hchange => .inr (h.mutations change hchange)⟩
  | wrote type hevents hmutations derived accepted =>
    rw [hevents, hmutations]
    refine ⟨by simp [eventIdentity, writeEvent, identityOf], fun change hchange => ?_⟩
    cases List.mem_cons.mp hchange with
    | inl heq => exact .inl (by rw [heq]; rfl)
    | inr hrest => exact .inr (derived change hrest)
  | deleted hevents hmutations accepted =>
    rw [hevents, hmutations]
    simp [hdelete, Mutation.target]
  | refused hevents hmutations refused =>
    rw [hevents, hmutations]
    simp [hdelete]

/-- An own write is that of the resource of the object. -/
theorem Outcome.eq_of_upserted (h : Outcome m u kind log) (hr : .upserted r ∈ mutations log)
    (hkind : r.kind ≠ "Secret") : r = m.resourceOf u kind := by
  have hreference : ¬ IsReference (.upserted r) := by
    rintro ⟨e, ref, href, heq⟩
    cases heq
    exact hkind (secretReferenceFromEdge_kind href)
  cases h with
  | derived h => exact absurd (h.mutations _ hr) hreference
  | wrote type hevents hmutations derived accepted =>
    rw [hmutations] at hr
    cases List.mem_cons.mp hr with
    | inl heq => exact Mutation.upserted.inj heq
    | inr hrest => exact absurd (derived _ hrest) hreference
  | deleted hevents hmutations accepted =>
    rw [hmutations] at hr
    cases List.mem_singleton.mp hr
  | refused hevents hmutations refused =>
    rw [hmutations] at hr
    cases hr

end Parts

end KubeAtlas.Proofs.Collection
