import KubeAtlas.Lib.Sorting
import KubeAtlas.Proofs.History.Diff

/-!
# `KubeAtlas.Proofs.History.Classification`: the buckets of a diff

An object is known by its cluster and its UID, or by its
cluster, namespace, kind and name if its events carry no UID. Its
events say when it existed: `existsAt` and `existedBefore`.
`Classified` is what a diff should report: one entry for each object
with an event in the window, among the removed ones if it is gone at
the end, among the added ones if it was not there before, and among
the modified ones otherwise.

`DiffWindow` groups the events by UID, or by namespace, kind and
name. The cluster is not part of that key. `classified_iff` says
that this is the only thing that can go wrong: if the events of each
object alternate, the report is right exactly if no two objects in
the window have the same key. `merged_clusters` is a store in which
two clusters have an object of the same name.

The events of one object before, in and after the window are three
consecutive parts of its history. So its first event in the window
is an `add` if and only if it did not exist at the end of the first
part.
-/

set_option autoImplicit false

namespace KubeAtlas.Proofs.History

open Analysis Lib
open Operations (Time)
open KubeAtlas.Store

/-! ### Objects and their histories -/

/-- What identifies an object. -/
inductive ObjectKey where
  | uid (clusterID uid : String)
  | named (clusterID ns kind name : String)
  deriving DecidableEq

/-- The object of an event. -/
def objectKey (e : ResourceEvent) : ObjectKey :=
  if e.uid = "" then .named e.clusterID e.ns e.kind e.name else .uid e.clusterID e.uid

/-- The key under which `DiffWindow` groups the events of an object. -/
def ObjectKey.diffKey : ObjectKey → String
  | .uid _ text => text
  | .named _ ns kind name => ns ++ "/" ++ kind ++ "/" ++ name

theorem diffKey_objectKey (e : ResourceEvent) : (objectKey e).diffKey = diffKey e := by
  unfold objectKey diffKey
  split <;> rfl

/-- The events of an object, the oldest first. -/
def historyOf (store : LoggedStore) (i : ObjectKey) : List ResourceEvent :=
  (store.events.filter fun e => objectKey e = i).insertionSort eventBefore

/-- The events are an alternating history: `add`, `update`s,
`delete`, `add`, and so on. The flag says whether the object exists
before them. -/
def Alternates : Bool → List EventType → Prop
  | _, [] => True
  | false, .add :: types => Alternates true types
  | true, .update :: types => Alternates true types
  | true, .delete :: types => Alternates false types
  | _, _ => False

def Alternates.decide :
    (alive : Bool) → (types : List EventType) → Decidable (Alternates alive types)
  | true, [] | false, [] => .isTrue trivial
  | false, .add :: types => Alternates.decide true types
  | true, .update :: types => Alternates.decide true types
  | true, .delete :: types => Alternates.decide false types
  | false, .update :: _ | false, .delete :: _ | false, .other _ :: _ => .isFalse id
  | true, .add :: _ | true, .other _ :: _ => .isFalse id

instance (alive : Bool) (types : List EventType) : Decidable (Alternates alive types) :=
  Alternates.decide alive types

/-- An object exists after events the last of which is not its
deletion. -/
def existsAfter (types : List EventType) : Bool := types.getLast?.any (· ≠ .delete)

/-- The object exists at a time. -/
def existsAt (store : LoggedStore) (i : ObjectKey) (t : Time) : Bool :=
  existsAfter (((historyOf store i).filter fun e => e.timestamp ≤ t).map ResourceEvent.eventType)

/-- The object exists just before a time. -/
def existedBefore (store : LoggedStore) (i : ObjectKey) (t : Time) : Bool :=
  existsAfter (((historyOf store i).filter fun e => e.timestamp < t).map ResourceEvent.eventType)

/-- The events of each object alternate, and no object changes
its namespace. -/
structure Histories (store : LoggedStore) : Prop where
  alternate : ∀ i, Alternates false ((historyOf store i).map ResourceEvent.eventType)
  home : ∀ e ∈ store.events, ∀ e' ∈ store.events, objectKey e = objectKey e' → e.ns = e'.ns

/-- The bucket of an object, by when it exists. -/
def verdict (store : LoggedStore) (fromTime toTime : Time) (i : ObjectKey) : Bucket :=
  if !existsAt store i toTime then .removed
  else if !existedBefore store i fromTime then .added
  else .modified

/-- The entry of an object: its last event in the window. -/
def entryOf (listed : List ResourceEvent) (i : ObjectKey) : Option DiffEntry :=
  (listed.filter fun e => objectKey e = i).getLast?.map diffEntryOf

/-- Each object of the window has its entry in its bucket, and there
are no other entries. -/
def Classified (store : LoggedStore) (fromTime toTime : Time) (ns : String) : Prop :=
  ∃ objects : List ObjectKey, objects.Nodup ∧
    (∀ i, i ∈ objects ↔ ∃ e ∈ store.listEvents ns fromTime toTime, objectKey e = i) ∧
    ∀ b, ((bucket (diffWindow store fromTime toTime ns) b).map some).Perm
      ((objects.filter fun i => verdict store fromTime toTime i = b).map
        (entryOf (store.listEvents ns fromTime toTime)))

/-- Objects of the window have different keys. -/
def Separate (listed : List ResourceEvent) : Prop :=
  ∀ e ∈ listed, ∀ e' ∈ listed, diffKey e = diffKey e' → objectKey e = objectKey e'

/-! ### Alternating histories -/

section Alternates

variable {types later : List EventType} {type : EventType} {alive : Bool}

/-- Whether the object exists after events, if it is known for the
time before. -/
theorem existsAfter_append_cons :
    existsAfter (types ++ type :: later) = existsAfter (type :: later) := by
  unfold existsAfter
  simp [List.getLast?_cons]

/-- The rest of an alternating history alternates, from where the
first part ended. -/
theorem Alternates.of_append (h : Alternates alive (types ++ later)) :
    Alternates (if types = [] then alive else existsAfter types) later := by
  induction types generalizing alive with
  | nil => simpa using h
  | cons t types ih =>
    have hrest : ∃ alive', Alternates alive' (types ++ later) ∧
        (types = [] → existsAfter [t] = alive') := by
      cases alive with
      | false =>
        cases t with
        | add => exact ⟨true, h, fun _ => rfl⟩
        | update | delete | other => exact h.elim
      | true =>
        cases t with
        | update => exact ⟨true, h, fun _ => rfl⟩
        | delete => exact ⟨false, h, fun _ => rfl⟩
        | add | other => exact h.elim
    obtain ⟨alive', halternates, hempty⟩ := hrest
    have hlater := ih halternates
    cases types with
    | nil =>
      rw [hempty rfl]
      simpa using hlater
    | cons t' types =>
      have hsame : existsAfter ([t] ++ t' :: types) = existsAfter (t' :: types) :=
        existsAfter_append_cons
      rwa [← List.singleton_append, hsame]

/-- From the start, the flag is whether the object exists. -/
theorem Alternates.after (h : Alternates false (types ++ later)) :
    Alternates (existsAfter types) later := by
  have hrest := h.of_append
  by_cases hnil : types = []
  · rw [if_pos hnil] at hrest
    rwa [hnil]
  · rwa [if_neg hnil] at hrest

/-- An alternating history begins with an `add` if and only if the
object did not exist. -/
theorem Alternates.first_eq_add (h : Alternates alive (type :: later)) :
    type = .add ↔ alive = false := by
  cases alive with
  | false =>
    cases type with
    | add => simp
    | update | delete | other => exact h.elim
  | true =>
    cases type with
    | update | delete => simp
    | add | other => exact h.elim

end Alternates

/-! ### The window of one object -/

section Window

variable {store : LoggedStore} {fromTime toTime : Time} {ns : String} {i : ObjectKey}

instance : IsTrans ResourceEvent eventBefore where
  trans := by
    rintro a b c (hab | ⟨hab, hid⟩) (hbc | ⟨hbc, hid'⟩)
    · exact .inl (lt_trans hab hbc)
    · exact .inl (hbc ▸ hab)
    · exact .inl (hab ▸ hbc)
    · exact .inr ⟨hab.trans hbc, Int64.le_trans hid hid'⟩

instance : Std.Total eventBefore where
  total := by
    intro a b
    rcases lt_trichotomy a.timestamp b.timestamp with h | h | h
    · exact .inl (.inl h)
    · rcases Int64.le_total a.id b.id with hid | hid
      · exact .inl (.inr ⟨h, hid⟩)
      · exact .inr (.inr ⟨h.symm, hid⟩)
    · exact .inr (.inl h)

theorem timestamps_sorted (i : ObjectKey) :
    (historyOf store i).Pairwise fun a b => a.timestamp ≤ b.timestamp := by
  refine (List.pairwise_insertionSort eventBefore _).imp ?_
  rintro a b (h | ⟨h, -⟩)
  · exact le_of_lt h
  · exact le_of_eq h

/-- What the store lists of an object is the part of its history in
the window. -/
theorem filter_listEvents (hhome : Histories store)
    (hseen : ∃ e ∈ store.listEvents ns fromTime toTime, objectKey e = i) :
    (store.listEvents ns fromTime toTime).filter (fun e => objectKey e = i)
      = (historyOf store i).filter fun e => fromTime ≤ e.timestamp && e.timestamp ≤ toTime := by
  obtain ⟨seen, hseen, rfl⟩ := hseen
  unfold LoggedStore.listEvents at hseen ⊢
  unfold historyOf
  rw [filter_insertionSort, filter_insertionSort, List.filter_filter, List.filter_filter]
  congr 1
  refine List.filter_congr fun e he => ?_
  rw [List.mem_insertionSort, List.mem_filter] at hseen
  obtain ⟨hmem, hwindow⟩ := hseen
  by_cases hkey : objectKey e = objectKey seen
  · -- the object is in the namespace that is asked for
    have hns : (ns = "" || e.ns = ns) = true := by
      rw [hhome.home e he seen hmem hkey]
      simp only [Bool.and_eq_true] at hwindow
      exact hwindow.1.1
    simp [hkey, hns]
  · simp [hkey]

/-- The history of an object, cut at both ends of a window. -/
theorem history_cut (store : LoggedStore) (hwindow : fromTime ≤ toTime) (i : ObjectKey) :
    (historyOf store i).filter (fun e => e.timestamp ≤ toTime)
      = (historyOf store i).filter (fun e => e.timestamp < fromTime) ++
        (historyOf store i).filter fun e => fromTime ≤ e.timestamp && e.timestamp ≤ toTime := by
  have hcut := filter_append_filter_not (p := fun e => decide (e.timestamp < fromTime))
    (l := (historyOf store i).filter fun e => e.timestamp ≤ toTime)
    (((timestamps_sorted i).sublist List.filter_sublist).imp fun hab hb => by
      simp only [decide_eq_true_eq] at hb ⊢
      exact lt_of_le_of_lt hab hb)
  rw [List.filter_filter, List.filter_filter] at hcut
  rw [← hcut]
  congr 1
  · refine List.filter_congr fun e _ => ?_
    by_cases h : e.timestamp < fromTime
    · simp [h, le_of_lt (lt_of_lt_of_le h hwindow)]
    · simp [h]
  · refine List.filter_congr fun e _ => ?_
    by_cases h : e.timestamp < fromTime
    · simp [h, not_le_of_gt h]
    · simp [h, not_lt.mp h]

/-- The first and the last event of an object in the window decide
on its bucket. -/
theorem verdict_eq (h : Histories store) {first last : ResourceEvent} {window : List ResourceEvent}
    (hwindow : (store.listEvents ns fromTime toTime).filter (fun e => objectKey e = i) = window)
    (hfirst : window.head? = some first) (hlast : window.getLast? = some last) :
    verdict store fromTime toTime i = bucketOf first.eventType last.eventType := by
  obtain ⟨rest, rfl⟩ : ∃ rest, window = first :: rest := by
    cases window with
    | nil => cases hfirst
    | cons e rest => exact ⟨rest, by rw [Option.some.inj hfirst]⟩
  have hmem : first ∈ store.listEvents ns fromTime toTime ∧ objectKey first = i := by
    have hfirst : first ∈ first :: rest := List.mem_cons_self
    rw [← hwindow, List.mem_filter] at hfirst
    exact ⟨hfirst.1, of_decide_eq_true hfirst.2⟩
  have hpart := filter_listEvents h ⟨first, hmem.1, hmem.2⟩
  rw [hwindow] at hpart
  have htimes : fromTime ≤ toTime := by
    have hfirst : first ∈ first :: rest := List.mem_cons_self
    rw [hpart, List.mem_filter] at hfirst
    simp only [Bool.and_eq_true, decide_eq_true_eq] at hfirst
    exact le_trans hfirst.2.1 hfirst.2.2
  have hcut := history_cut store htimes i
  rw [← hpart] at hcut
  -- at the end of the window
  have hend : existsAt store i toTime = decide (last.eventType ≠ .delete) := by
    unfold existsAt
    rw [hcut, List.map_append, List.map_cons, existsAfter_append_cons, ← List.map_cons]
    unfold existsAfter
    rw [List.getLast?_map, hlast]
    rfl
  -- before the window
  have hstart : first.eventType = .add ↔ existedBefore store i fromTime = false := by
    have halternate := h.alternate i
    rw [← filter_append_filter_not (p := fun e => decide (e.timestamp ≤ toTime))
      (l := historyOf store i) ((timestamps_sorted i).imp fun hab hb => by
        simp only [decide_eq_true_eq] at hb ⊢
        exact le_trans hab hb), hcut, List.append_assoc, List.map_append, List.map_append,
      List.map_cons] at halternate
    exact halternate.after.first_eq_add
  unfold verdict bucketOf
  rw [hend]
  by_cases hdelete : last.eventType = .delete
  · simp [hdelete]
  · by_cases hadd : first.eventType = .add
    · simp [hdelete, hadd, hstart.mp hadd]
    · have hexisted : existedBefore store i fromTime = true := by
        rw [← Bool.not_eq_false, ← hstart]
        exact hadd
      simp [hdelete, hadd, hexisted]

end Window

/-! ### The report -/

section Report

variable {store : LoggedStore} {fromTime toTime : Time} {ns : String}

/-- The object of a group: that of its first event. -/
def groupObject (g : DiffGroup) : ObjectKey := objectKey g.first

variable {g g' : DiffGroup} {listed : List ResourceEvent}

theorem first_mem (hg : g ∈ diffGroups listed) : g.first ∈ listed ∧ diffKey g.first = g.key := by
  have hfirst : g.first ∈ groupEvents g := List.mem_cons_self
  rw [events_of_mem_diffGroups hg, List.mem_filter] at hfirst
  exact ⟨hfirst.1, of_decide_eq_true hfirst.2⟩

/-- The key of a group is that of its object. -/
theorem diffKey_groupObject (hg : g ∈ diffGroups listed) : (groupObject g).diffKey = g.key :=
  (diffKey_objectKey g.first).trans (first_mem hg).2

/-- Groups are about different objects. -/
theorem nodup_groupObjects (listed : List ResourceEvent) :
    ((diffGroups listed).map groupObject).Nodup := by
  have hkeys : (((diffGroups listed).map groupObject).map ObjectKey.diffKey).Nodup := by
    rw [List.map_map, show (diffGroups listed).map (ObjectKey.diffKey ∘ groupObject)
      = (diffGroups listed).map DiffGroup.key from
        List.map_congr_left fun g hg => diffKey_groupObject hg]
    exact nodup_keys_diffGroups listed
  exact hkeys.of_map

/-- If keys are different, a group has the events of its object. -/
theorem filter_groupObject (hseparate : Separate listed) (hg : g ∈ diffGroups listed) :
    (listed.filter fun e => objectKey e = groupObject g) = groupEvents g := by
  rw [events_of_mem_diffGroups hg]
  obtain ⟨hmem, hkey⟩ := first_mem hg
  refine List.filter_congr fun e he => decide_eq_decide.mpr ⟨fun hsame => ?_, fun hsame => ?_⟩
  · rw [← diffKey_objectKey, hsame, diffKey_groupObject hg]
  · exact hseparate e he g.first hmem (hsame.trans hkey.symm)

theorem getLast?_groupEvents (g : DiffGroup) : (groupEvents g).getLast? = some g.last := by
  obtain ⟨before, hbefore⟩ := groupEvents_eq g
  rw [hbefore, List.getLast?_append]
  rfl

/-- Objects with different keys are reported as they should be. -/
theorem classified_of_separate (h : Histories store)
    (hseparate : Separate (store.listEvents ns fromTime toTime)) :
    Classified store fromTime toTime ns := by
  refine ⟨(diffGroups (store.listEvents ns fromTime toTime)).map groupObject,
    nodup_groupObjects _, fun i => ?_, fun b => ?_⟩
  · constructor
    · intro hi
      obtain ⟨g, hg, rfl⟩ := List.mem_map.mp hi
      exact ⟨g.first, (first_mem hg).1, rfl⟩
    · rintro ⟨e, he, rfl⟩
      obtain ⟨g, hg, hkey⟩ := List.mem_map.mp ((mem_keys_diffGroups _ _).mpr ⟨e, he, rfl⟩)
      refine List.mem_map.mpr ⟨g, hg, ?_⟩
      exact hseparate g.first (first_mem hg).1 e he ((first_mem hg).2.trans hkey)
  · have hgroup : ∀ g ∈ diffGroups (store.listEvents ns fromTime toTime),
        verdict store fromTime toTime (groupObject g)
          = bucketOf g.first.eventType g.last.eventType ∧
        entryOf (store.listEvents ns fromTime toTime) (groupObject g)
          = some (diffEntryOf g.last) := by
      intro g hg
      have hevents := filter_groupObject hseparate hg
      refine ⟨verdict_eq h hevents rfl (getLast?_groupEvents g), ?_⟩
      rw [entryOf, hevents, getLast?_groupEvents]
      rfl
    refine ((bucket_diffWindow store fromTime toTime ns b).map some).trans (.of_eq ?_)
    rw [List.filter_map, List.map_map, List.map_map]
    have hfilter : (diffGroups (store.listEvents ns fromTime toTime)).filter
          (fun g => bucketOf g.first.eventType g.last.eventType = b)
        = (diffGroups (store.listEvents ns fromTime toTime)).filter
          ((fun i => decide (verdict store fromTime toTime i = b)) ∘ groupObject) :=
      List.filter_congr fun g hg => by simp [(hgroup g hg).1]
    rw [hfilter]
    exact List.map_congr_left fun g hg => ((hgroup g (List.mem_filter.mp hg).1).2).symm

/-- A list is split by the buckets of its members. -/
theorem length_buckets {α : Type} (f : α → Bucket) (xs : List α) :
    (xs.filter fun x => f x = .added).length + (xs.filter fun x => f x = .removed).length
      + (xs.filter fun x => f x = .modified).length = xs.length := by
  induction xs with
  | nil => rfl
  | cons x xs ih =>
    cases hx : f x with
    | added | removed | modified =>
        simp [hx]
        omega

/-- A right report has one group for each object, so keys are
different. -/
theorem separate_of_classified (h : Classified store fromTime toTime ns) :
    Separate (store.listEvents ns fromTime toTime) := by
  obtain ⟨objects, hnodup, hobjects, hbuckets⟩ := h
  have hlength : (diffGroups (store.listEvents ns fromTime toTime)).length = objects.length := by
    have hbucket : ∀ b, ((diffGroups (store.listEvents ns fromTime toTime)).filter fun g =>
        bucketOf g.first.eventType g.last.eventType = b).length
        = (objects.filter fun i => verdict store fromTime toTime i = b).length := by
      intro b
      have hreport := (hbuckets b).length_eq
      have hgroups := (bucket_diffWindow store fromTime toTime ns b).length_eq
      simp only [List.length_map] at hreport hgroups
      rw [← hgroups, hreport]
    rw [← length_buckets (fun g => bucketOf g.first.eventType g.last.eventType),
      ← length_buckets (verdict store fromTime toTime) objects, hbucket, hbucket, hbucket]
  -- the keys of the groups are those of the objects, and there are as many of them
  have hkeys : ((diffGroups (store.listEvents ns fromTime toTime)).map DiffGroup.key).Perm
      (objects.map ObjectKey.diffKey) := by
    refine List.Subperm.perm_of_length_le (List.subperm_of_subset (nodup_keys_diffGroups _) ?_) ?_
    · intro key hkey
      obtain ⟨e, he, rfl⟩ := (mem_keys_diffGroups _ _).mp hkey
      exact List.mem_map.mpr ⟨objectKey e, (hobjects _).mpr ⟨e, he, rfl⟩, diffKey_objectKey e⟩
    · simp [hlength]
  have hinjective := List.inj_on_of_nodup_map (hkeys.nodup_iff.mp (nodup_keys_diffGroups _))
  intro e he e' he' hsame
  rw [← diffKey_objectKey, ← diffKey_objectKey] at hsame
  exact hinjective ((hobjects _).mpr ⟨e, he, rfl⟩) ((hobjects _).mpr ⟨e', he', rfl⟩) hsame

end Report

/-- When a diff is right. In a store in which the events of each
object alternate, the diff of a window reports each object with an
event there once, in the bucket that its existence at both ends of
the window decides on, exactly if no two of these objects have the
same UID, or the same namespace, kind and name as the text of the
key. -/
theorem classified_iff (store : LoggedStore) (h : Histories store) (fromTime toTime : Time)
    (ns : String) :
    Classified store fromTime toTime ns ↔ Separate (store.listEvents ns fromTime toTime) :=
  ⟨separate_of_classified, classified_of_separate h⟩

/-! ### Two clusters with one name -/

/-- Only the objects that have events need to be looked at. -/
theorem histories_of_events {store : LoggedStore}
    (halternate : ∀ e ∈ store.events,
      Alternates false ((historyOf store (objectKey e)).map ResourceEvent.eventType))
    (hhome : ∀ e ∈ store.events, ∀ e' ∈ store.events, objectKey e = objectKey e' → e.ns = e'.ns) :
    Histories store := by
  refine ⟨fun i => ?_, hhome⟩
  by_cases hi : ∃ e ∈ store.events, objectKey e = i
  · obtain ⟨e, he, rfl⟩ := hi
    exact halternate e he
  · have hnone : (store.events.filter fun e => objectKey e = i) = [] :=
      List.filter_eq_nil_iff.mpr fun e he hkey => hi ⟨e, he, of_decide_eq_true hkey⟩
    rw [historyOf, hnone]
    exact trivial

/-- An event of the ConfigMap `d/x` of a cluster, without a UID. -/
def configMapEvent (clusterID : String) (eventType : EventType) : ResourceEvent :=
  { clusterID := clusterID, ns := "d", kind := "ConfigMap", name := "x", eventType := eventType }

/-- Both clusters get the ConfigMap, and one of them deletes it. -/
def twoClusters : LoggedStore :=
  ((LoggedStore.new.appendEvent (configMapEvent "a" .add) 10).appendEvent
    (configMapEvent "b" .add) 20).appendEvent (configMapEvent "b" .delete) 30

/-- The ConfigMap of the first cluster was added and is there at
the end, and the diff has one entry: a ConfigMap `d/x` was removed. -/
theorem merged_clusters :
    Histories twoClusters ∧ verdict twoClusters 1 100 (.named "a" "d" "ConfigMap" "x") = .added ∧
      (diffWindow twoClusters 1 100 "").added = [] ∧
      (diffWindow twoClusters 1 100 "").modified = [] ∧
      (diffWindow twoClusters 1 100 "").removed.length = 1 ∧
      ¬ Classified twoClusters 1 100 "" := by
  refine ⟨histories_of_events (by decide +kernel) (by decide +kernel), by decide +kernel,
    by decide +kernel, by decide +kernel, by decide +kernel, fun h => ?_⟩
  have hseparate := separate_of_classified h
  have hmerged : ¬ Separate (twoClusters.listEvents "" 1 100) := by
    unfold Separate
    decide +kernel
  exact hmerged hseparate

/-- A ConfigMap of one cluster that was there before the window, is
updated in it, and one that is added. -/
def oneCluster : LoggedStore :=
  ((LoggedStore.new.appendEvent (configMapEvent "a" .add) 10).appendEvent
    (configMapEvent "a" .update) 20).appendEvent
      { configMapEvent "b" .add with uid := "uid-b" } 30

/-- Their keys are different, and both are reported. -/
theorem classified_iff_distinct :
    Histories oneCluster ∧ Classified oneCluster 15 100 "d" :=
  have h : Histories oneCluster := histories_of_events (by decide +kernel) (by decide +kernel)
  ⟨h, (classified_iff oneCluster h 15 100 "d").mpr (by unfold Separate; decide +kernel)⟩

end KubeAtlas.Proofs.History
