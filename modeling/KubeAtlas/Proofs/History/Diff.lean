import KubeAtlas.Analysis.SnapshotDiff
import Mathlib.Data.Int.ConditionallyCompleteOrder
import Mathlib.Order.ConditionallyCompleteLattice.Basic

/-!
# `KubeAtlas.Proofs.History.Diff`: what a diff sees of a resource

There is one group for each resource in the window, and its last
event is the last one that the store lists for the resource.
`mem_diffWindow` says what follows for the result: its entries are
those last events, and an entry is among the removed ones if and
only if the last event is a deletion.

The last section is about a store that has got events at times that
do not go back. It lists them in the order in which they were
appended, so the last event of a resource is the one that was
appended last.
-/

set_option autoImplicit false

namespace KubeAtlas.Proofs.History

open Analysis
open Operations (Time)
open KubeAtlas.Store

/-! ### Groups -/

section Groups

variable {events : List ResourceEvent} {g : DiffGroup}

/-- The last event of a group is the last event of its resource. -/
def LastOf (events : List ResourceEvent) (g : DiffGroup) : Prop :=
  ∃ before after, events = before ++ g.last :: after ∧ diffKey g.last = g.key ∧
    ∀ e ∈ after, diffKey e ≠ g.key

/-- The events of a group. -/
def groupEvents (g : DiffGroup) : List ResourceEvent := g.first :: g.later

theorem groupEvents_eq (g : DiffGroup) : ∃ before, groupEvents g = before ++ [g.last] := by
  unfold groupEvents DiffGroup.last
  cases hlater : g.later.getLast? with
  | none =>
    rw [List.getLast?_eq_none_iff.mp hlater]
    exact ⟨[], rfl⟩
  | some e =>
    obtain ⟨before, hbefore⟩ := List.getLast?_eq_some_iff.mp hlater
    exact ⟨g.first :: before, by rw [hbefore]; rfl⟩

/-- One round of the loop keeps the groups of other resources, and
adds the event to the group of its own. -/
theorem mem_addToGroup {groups : List DiffGroup} {e : ResourceEvent}
    (hkeys : (groups.map DiffGroup.key).Nodup) (h : g ∈ addToGroup groups e) :
    (g ∈ groups ∧ g.key ≠ diffKey e) ∨
      (g.key = diffKey e ∧
        ((∃ g₀ ∈ groups, g₀.key = g.key ∧ groupEvents g = groupEvents g₀ ++ [e]) ∨
          (g.key ∉ groups.map DiffGroup.key ∧ groupEvents g = [e]))) := by
  induction groups with
  | nil =>
    cases List.mem_singleton.mp h
    exact .inr ⟨rfl, .inr ⟨List.not_mem_nil, rfl⟩⟩
  | cons g₁ groups ih =>
    obtain ⟨hnew, hrest⟩ := List.nodup_cons.mp hkeys
    by_cases hkey : g₁.key = diffKey e
    · simp only [addToGroup, hkey, if_true, List.mem_cons] at h
      rcases h with rfl | h
      · exact .inr ⟨rfl, .inl ⟨g₁, List.mem_cons_self, hkey, rfl⟩⟩
      · refine .inl ⟨List.mem_cons_of_mem _ h, fun hsame => hnew ?_⟩
        rw [hkey, ← hsame]
        exact List.mem_map_of_mem h
    · simp only [addToGroup, hkey, if_false, List.mem_cons] at h
      rcases h with rfl | h
      · exact .inl ⟨List.mem_cons_self, hkey⟩
      · rcases ih hrest h with ⟨hold, hne⟩ | ⟨hsame, ⟨g₀, hg₀, heq, hevents⟩ | ⟨hfirst, hevents⟩⟩
        · exact .inl ⟨List.mem_cons_of_mem _ hold, hne⟩
        · exact .inr ⟨hsame, .inl ⟨g₀, List.mem_cons_of_mem _ hg₀, heq, hevents⟩⟩
        · refine .inr ⟨hsame, .inr ⟨?_, hevents⟩⟩
          rw [List.map_cons, List.mem_cons, not_or]
          exact ⟨fun heq => hkey (heq.symm.trans hsame), hfirst⟩

theorem keys_addToGroup (groups : List DiffGroup) (e : ResourceEvent) :
    (addToGroup groups e).map DiffGroup.key
      = if diffKey e ∈ groups.map DiffGroup.key then groups.map DiffGroup.key
        else groups.map DiffGroup.key ++ [diffKey e] := by
  induction groups with
  | nil => rfl
  | cons g groups ih =>
    by_cases hkey : g.key = diffKey e
    · simp [addToGroup, hkey]
    · simp only [addToGroup, hkey, if_false, List.map_cons, ih, List.mem_cons, Ne.symm hkey,
        false_or]
      split <;> rfl

section

variable (events : List ResourceEvent)

theorem diffGroups_concat (e : ResourceEvent) :
    diffGroups (events ++ [e]) = addToGroup (diffGroups events) e := by
  unfold diffGroups
  rw [List.foldl_append]
  rfl

/-- There is one group for each resource. -/
theorem mem_keys_diffGroups (key : String) :
    key ∈ (diffGroups events).map DiffGroup.key ↔ ∃ e ∈ events, diffKey e = key := by
  induction events using List.reverseRecOn with
  | nil => simp [diffGroups]
  | append_singleton events e ih =>
    rw [diffGroups_concat, keys_addToGroup]
    by_cases hkey : diffKey e ∈ (diffGroups events).map DiffGroup.key
    · rw [if_pos hkey, ih]
      constructor
      · rintro ⟨e', he', hsame⟩
        exact ⟨e', List.mem_append_left _ he', hsame⟩
      · rintro ⟨e', he', rfl⟩
        rcases List.mem_append.mp he' with he' | he'
        · exact ⟨e', he', rfl⟩
        · cases List.mem_singleton.mp he'
          exact ih.mp hkey
    · rw [if_neg hkey, List.mem_append, ih, List.mem_singleton]
      constructor
      · rintro (⟨e', he', hsame⟩ | rfl)
        · exact ⟨e', List.mem_append_left _ he', hsame⟩
        · exact ⟨e, by simp, rfl⟩
      · rintro ⟨e', he', rfl⟩
        rcases List.mem_append.mp he' with he' | he'
        · exact .inl ⟨e', he', rfl⟩
        · cases List.mem_singleton.mp he'
          exact .inr rfl

theorem nodup_keys_diffGroups :
    ((diffGroups events).map DiffGroup.key).Nodup := by
  induction events using List.reverseRecOn with
  | nil => exact List.nodup_nil
  | append_singleton events e ih =>
    rw [diffGroups_concat, keys_addToGroup]
    split
    · exact ih
    · rename_i hnew
      exact List.nodup_append.mpr ⟨ih, List.nodup_singleton _, fun a ha b hb hab => by
        cases List.mem_singleton.mp hb
        exact hnew (hab ▸ ha)⟩

end

/-- A group has the events of its resource, in order. -/
theorem events_of_mem_diffGroups (h : g ∈ diffGroups events) :
    groupEvents g = events.filter fun e => diffKey e = g.key := by
  induction events using List.reverseRecOn generalizing g with
  | nil => cases h
  | append_singleton events e ih =>
    rw [diffGroups_concat] at h
    rw [List.filter_append]
    rcases mem_addToGroup (nodup_keys_diffGroups events) h with
      ⟨hold, hne⟩ | ⟨hkey, ⟨g₀, hg₀, hsame, hevents⟩ | ⟨hfirst, hevents⟩⟩
    · rw [ih hold]
      simp [Ne.symm hne]
    · rw [hevents, ih hg₀, hsame]
      simp [hkey]
    · have hnone : (events.filter fun e => diffKey e = g.key) = [] := by
        refine List.filter_eq_nil_iff.mpr fun e' he' hsame => hfirst ?_
        exact (mem_keys_diffGroups events g.key).mpr ⟨e', he', of_decide_eq_true hsame⟩
      rw [hevents, hnone]
      simp [hkey]

theorem lastOf_of_mem_diffGroups (h : g ∈ diffGroups events) : LastOf events g := by
  obtain ⟨earlier, hearlier⟩ := groupEvents_eq g
  rw [events_of_mem_diffGroups h] at hearlier
  obtain ⟨front, back, rfl, -, hback⟩ := List.filter_eq_append_iff.mp hearlier
  obtain ⟨between, after, rfl, -, hkey, hafter⟩ := List.filter_eq_cons_iff.mp hback
  refine ⟨front ++ between, after, by simp, of_decide_eq_true hkey, fun e he hsame => ?_⟩
  have hmem : e ∈ after.filter fun e => diffKey e = g.key :=
    List.mem_filter.mpr ⟨he, by simpa using hsame⟩
  rw [hafter] at hmem
  cases hmem

end Groups

/-! ### Entries -/

/-- All entries of a result. -/
def entries (res : DiffResult) : List DiffEntry :=
  res.added ++ res.removed ++ res.modified

/-- The bucket of a group. -/
inductive Bucket where
  | added
  | removed
  | modified
  deriving DecidableEq

/-- The entries of a bucket. -/
def bucket (res : DiffResult) : Bucket → List DiffEntry
  | .added => res.added
  | .removed => res.removed
  | .modified => res.modified

/-- The bucket that the first and the last event of a resource
decide on. -/
def bucketOf (first last : EventType) : Bucket :=
  if last = .delete then .removed else if first = .add then .added else .modified

/-- Every group has one entry, in its bucket. -/
theorem bucket_classified (groups : List DiffGroup) (res : DiffResult) (b : Bucket) :
    bucket (groups.foldl classify res) b = bucket res b ++
      (groups.filter fun g => bucketOf g.first.eventType g.last.eventType = b).map
        fun g => diffEntryOf g.last := by
  induction groups generalizing res with
  | nil => simp
  | cons g groups ih =>
    rw [List.foldl_cons, ih]
    unfold classify bucketOf
    by_cases hdelete : g.last.eventType = .delete
    · cases b <;> simp [hdelete, bucket]
    · by_cases hadd : g.first.eventType = .add
      · cases b <;> simp [hdelete, hadd, bucket]
      · cases b <;> simp [hdelete, hadd, bucket]

variable (store : LoggedStore) (fromTime toTime : Time) (ns : String)

/-- The buckets of `DiffWindow`, up to the order of their entries. -/
theorem bucket_diffWindow (b : Bucket) :
    (bucket (diffWindow store fromTime toTime ns) b).Perm
      (((diffGroups (store.listEvents ns fromTime toTime)).filter fun g =>
        bucketOf g.first.eventType g.last.eventType = b).map fun g => diffEntryOf g.last) := by
  have h := bucket_classified (diffGroups (store.listEvents ns fromTime toTime))
    { fromTime := fromTime, toTime := toTime } b
  have hsorted : (bucket (diffWindow store fromTime toTime ns) b).Perm
      (bucket ((diffGroups (store.listEvents ns fromTime toTime)).foldl classify
        { fromTime := fromTime, toTime := toTime }) b) := by
    cases b with
    | added | removed | modified => exact List.perm_insertionSort entryBefore _
  rw [h] at hsorted
  cases b with
  | added | removed | modified => exact hsorted

/-- The entries of `DiffWindow` are those of the last events. -/
theorem mem_diffWindow (entry : DiffEntry) :
    (entry ∈ entries (diffWindow store fromTime toTime ns) ↔
      ∃ g ∈ diffGroups (store.listEvents ns fromTime toTime), entry = diffEntryOf g.last) ∧
    (entry ∈ (diffWindow store fromTime toTime ns).removed ↔
      ∃ g ∈ diffGroups (store.listEvents ns fromTime toTime),
        entry = diffEntryOf g.last ∧ g.last.eventType = .delete) := by
  have hbucket : ∀ b, entry ∈ bucket (diffWindow store fromTime toTime ns) b ↔
      ∃ g ∈ diffGroups (store.listEvents ns fromTime toTime),
        bucketOf g.first.eventType g.last.eventType = b ∧ entry = diffEntryOf g.last := by
    intro b
    rw [(bucket_diffWindow store fromTime toTime ns b).mem_iff]
    simp only [List.mem_map, List.mem_filter, decide_eq_true_eq, and_assoc, eq_comm (a := entry)]
  constructor
  · have hentries : entry ∈ entries (diffWindow store fromTime toTime ns) ↔
        ∃ b, entry ∈ bucket (diffWindow store fromTime toTime ns) b := by
      simp only [entries, List.mem_append]
      constructor
      · rintro ((h | h) | h)
        · exact ⟨.added, h⟩
        · exact ⟨.removed, h⟩
        · exact ⟨.modified, h⟩
      · rintro ⟨b, h⟩
        cases b with
        | added => exact .inl (.inl h)
        | removed => exact .inl (.inr h)
        | modified => exact .inr h
    rw [hentries]
    constructor
    · rintro ⟨b, h⟩
      obtain ⟨g, hg, -, heq⟩ := (hbucket b).mp h
      exact ⟨g, hg, heq⟩
    · rintro ⟨g, hg, heq⟩
      exact ⟨_, (hbucket _).mpr ⟨g, hg, rfl, heq⟩⟩
  · have hremoved : ∀ first last, bucketOf first last = .removed ↔ last = .delete := by
      intro first last
      unfold bucketOf
      by_cases hdelete : last = .delete
      · simp [hdelete]
      · by_cases hadd : first = .add <;> simp [hdelete, hadd]
    have h := hbucket .removed
    simp only [hremoved] at h
    refine h.trans ?_
    constructor
    · rintro ⟨g, hg, hdelete, heq⟩
      exact ⟨g, hg, heq, hdelete⟩
    · rintro ⟨g, hg, heq, hdelete⟩
      exact ⟨g, hg, hdelete, heq⟩

/-! ### The recorded history -/

section Recorded

variable {P : Type} (event : P → ResourceEvent) (clock : Nat → Time)

/-- The store after the events of the calls were appended, the first
of them as number `i`, each at its time. -/
def appendAll (i : Nat) (store : LoggedStore) : List P → LoggedStore
  | [] => store
  | p :: ps => appendAll (i + 1) (store.appendEvent (metadataOnlyEvent (event p)) (clock i)) ps

/-- An event as the store keeps it. -/
def storedEvent (i : Nat) (p : P) : ResourceEvent :=
  { metadataOnlyEvent (event p) with id := Int64.ofNat (i + 1), timestamp := clock i }

/-- The events as the store keeps them. -/
def storedEvents : Nat → List P → List ResourceEvent
  | _, [] => []
  | i, p :: ps => storedEvent event clock i p :: storedEvents (i + 1) ps

variable {event clock}

theorem storedEvents_append (i : Nat) (ps qs : List P) :
    storedEvents event clock i (ps ++ qs)
      = storedEvents event clock i ps ++ storedEvents event clock (i + ps.length) qs := by
  induction ps generalizing i with
  | nil => simp [storedEvents]
  | cons p ps ih =>
    rw [List.cons_append, storedEvents, storedEvents, ih, List.cons_append, List.length_cons,
      show i + 1 + ps.length = i + (ps.length + 1) by omega]

theorem length_storedEvents (i : Nat) (ps : List P) :
    (storedEvents event clock i ps).length = ps.length := by
  induction ps generalizing i with
  | nil => rfl
  | cons p ps ih => rw [storedEvents, List.length_cons, List.length_cons, ih]

theorem mem_storedEvents {i : Nat} {ps : List P} {e : ResourceEvent}
    (h : e ∈ storedEvents event clock i ps) :
    ∃ j p, i ≤ j ∧ j < i + ps.length ∧ p ∈ ps ∧ e = storedEvent event clock j p := by
  induction ps generalizing i with
  | nil => cases h
  | cons p ps ih =>
    rcases List.mem_cons.mp h with rfl | h
    · exact ⟨i, p, le_rfl, by simp, List.mem_cons_self, rfl⟩
    · obtain ⟨j, q, hij, hj, hq, he⟩ := ih h
      exact ⟨j, q, by omega, by rw [List.length_cons]; omega, List.mem_cons_of_mem _ hq, he⟩

/-- The ring buffer keeps the latest events. -/
theorem retained_concat {α : Type} (xs : List α) (x : α) :
    retained (retained xs ++ [x]) = retained (xs ++ [x]) := by
  unfold retained
  generalize maxMemoryEvents = bound
  by_cases hlong : xs.length ≤ bound
  · rw [Nat.sub_eq_zero_of_le hlong, List.drop_zero]
  · rw [← List.drop_append_of_le_length (by omega), List.drop_drop]
    congr 1
    simp only [List.length_drop, List.length_append, List.length_singleton]
    omega

theorem events_appendAll (hzero : ∀ p, (event p).timestamp.IsZero) (ps : List P) {i : Nat}
    {store : LoggedStore} {earlier : List ResourceEvent}
    (hevents : store.events = retained earlier) (hseq : store.eventSeq = Int64.ofNat i) :
    (appendAll event clock i store ps).events
      = retained (earlier ++ storedEvents event clock i ps) := by
  induction ps generalizing i store earlier with
  | nil => rw [storedEvents, List.append_nil, ← hevents, appendAll]
  | cons p ps ih =>
    have hid : store.eventSeq + 1 = Int64.ofNat (i + 1) := by
      rw [hseq, Int64.ofNat_add]
      rfl
    have hevent : (store.appendEvent (metadataOnlyEvent (event p)) (clock i)).events
        = retained (earlier ++ [storedEvent event clock i p]) := by
      rw [LoggedStore.events_appendEvent, hevents, retained_concat, hid]
      have hkept : (metadataOnlyEvent (event p)).timestamp.IsZero := hzero p
      rw [if_pos hkept]
      rfl
    rw [appendAll, ih hevent hid, storedEvents, List.append_assoc, List.singleton_append]

/-- Events that are stored later have later numbers. -/
theorem storedEvent_id_lt {i j : Nat} {p q : P} (hij : i < j) (hj : j + 1 < 2 ^ 63) :
    (storedEvent event clock i p).id < (storedEvent event clock j q).id := by
  show Int64.ofNat (i + 1) < Int64.ofNat (j + 1)
  rw [Int64.ofNat_lt_iff_lt (by omega) hj]
  omega

theorem storedEvents_sorted (hclock : Monotone clock) (ps : List P) {i : Nat}
    (hlength : i + ps.length < 2 ^ 63) : (storedEvents event clock i ps).Pairwise eventBefore := by
  induction ps generalizing i with
  | nil => exact List.Pairwise.nil
  | cons p ps ih =>
    rw [List.length_cons] at hlength
    refine List.pairwise_cons.mpr ⟨fun e he => ?_, ih (by omega)⟩
    obtain ⟨j, q, hij, hj, -, rfl⟩ := mem_storedEvents he
    have hid : (storedEvent event clock i p).id < (storedEvent event clock j q).id :=
      storedEvent_id_lt (by omega) (by omega)
    have htime : clock i ≤ clock j := hclock (by omega)
    rcases lt_or_eq_of_le htime with hlt | heq
    · exact .inl hlt
    · exact .inr ⟨heq, Int64.le_of_lt hid⟩

/-- What the store lists in a window that covers all appends. -/
theorem listEvents_appendAll (hzero : ∀ p, (event p).timestamp.IsZero) (hclock : Monotone clock)
    {sink : List P} (hlength : sink.length < 2 ^ 63) {fromTime toTime : Time} {ns : String}
    (hwindow : ∀ i < sink.length, fromTime ≤ clock i ∧ clock i ≤ toTime) :
    (appendAll event clock 0 LoggedStore.new sink).listEvents ns fromTime toTime
      = (retained (storedEvents event clock 0 sink)).filter fun e => ns = "" || e.ns = ns := by
  have hevents : (appendAll event clock 0 LoggedStore.new sink).events
      = retained (storedEvents event clock 0 sink) := by
    have h : (appendAll event clock 0 LoggedStore.new sink).events
        = retained ([] ++ storedEvents event clock 0 sink) := events_appendAll hzero sink rfl rfl
    rwa [List.nil_append] at h
  have hfilter : (retained (storedEvents event clock 0 sink)).filter
        (fun e => (ns = "" || e.ns = ns) && fromTime ≤ e.timestamp && e.timestamp ≤ toTime)
      = (retained (storedEvents event clock 0 sink)).filter fun e => ns = "" || e.ns = ns := by
    refine List.filter_congr fun e he => ?_
    obtain ⟨j, q, -, hj, -, rfl⟩ := mem_storedEvents (mem_of_mem_retained he)
    obtain ⟨hfrom, hto⟩ := hwindow j (by omega)
    simp [storedEvent, hfrom, hto]
  have hsorted : ((retained (storedEvents event clock 0 sink)).filter
      fun e => ns = "" || e.ns = ns).Pairwise eventBefore := by
    have h : (storedEvents event clock 0 sink).Pairwise eventBefore :=
      storedEvents_sorted hclock sink (by omega)
    exact (h.sublist (List.drop_sublist _ _)).sublist List.filter_sublist
  unfold LoggedStore.listEvents
  rw [hevents, hfilter, hsorted.insertionSort_eq]

/-- Members of a list that come after the first occurrence of `a`. -/
theorem mem_of_pair_sublist {α : Type} {before after : List α} {a x : α} (ha : a ∉ before)
    (h : [a, x].Sublist (before ++ a :: after)) : x ∈ after := by
  induction before with
  | nil =>
    rcases List.sublist_cons_iff.mp h with h | ⟨rest, heq, h⟩
    · exact h.subset (by simp)
    · cases heq
      exact h.subset (by simp)
  | cons b before ih =>
    have hne : a ≠ b := fun hab => ha (hab ▸ List.mem_cons_self)
    rcases List.sublist_cons_iff.mp h with h | ⟨rest, heq, -⟩
    · exact ih (fun hmem => ha (List.mem_cons_of_mem _ hmem)) h
    · cases heq
      exact absurd rfl hne

/-- The last event of a resource is the one that a diff sees last. -/
theorem last_diffGroups {before after : List P} {p : P}
    (hlength : (before ++ p :: after).length < 2 ^ 63)
    (hlast : ∀ q ∈ after, diffKey (event q) ≠ diffKey (event p)) {ns : String}
    (hns : ns = "" ∨ ns = (event p).ns) {g : DiffGroup}
    (hg : g ∈ diffGroups ((retained (storedEvents event clock 0 (before ++ p :: after))).filter
      fun e => ns = "" || e.ns = ns)) (hkey : g.key = diffKey (event p)) :
    g.last = storedEvent event clock before.length p := by
  set stored := storedEvent event clock before.length p with hstored
  have hall : storedEvents event clock 0 (before ++ p :: after)
      = storedEvents event clock 0 before ++
        stored :: storedEvents event clock (before.length + 1) after := by
    rw [storedEvents_append, storedEvents, Nat.zero_add]
  have hlater : ∀ e ∈ storedEvents event clock (before.length + 1) after,
      diffKey e ≠ diffKey (event p) := by
    intro e he
    obtain ⟨j, q, -, -, hq, rfl⟩ := mem_storedEvents he
    exact hlast q hq
  have hnew : stored ∉ storedEvents event clock 0 before := by
    intro hmem
    obtain ⟨j, q, -, hj, -, heq⟩ := mem_storedEvents hmem
    have hid : (storedEvent event clock j q).id < stored.id := by
      refine storedEvent_id_lt (by omega) ?_
      rw [List.length_append, List.length_cons] at hlength
      omega
    rw [heq] at hid
    exact Int64.lt_irrefl hid
  obtain ⟨listed, rest, hlisted, hlastKey, hrest⟩ := lastOf_of_mem_diffGroups hg
  have hmem : g.last ∈ retained (storedEvents event clock 0 (before ++ p :: after)) := by
    have h : g.last ∈ listed ++ g.last :: rest := by simp
    rw [← hlisted] at h
    exact (List.mem_filter.mp h).1
  -- the event of `p` is in the ring buffer, or everything before it is gone too
  have hkept : stored ∈ retained (storedEvents event clock 0 (before ++ p :: after)) := by
    by_contra hgone
    unfold retained at hgone hmem
    rw [hall] at hgone hmem
    generalize (storedEvents event clock 0 before ++
      stored :: storedEvents event clock (before.length + 1) after).length - maxMemoryEvents = k
      at hgone hmem
    rw [List.drop_append] at hgone hmem
    rcases List.mem_append.mp hmem with hmem | hmem
    · refine hgone (List.mem_append_right _ ?_)
      have hk : k < (storedEvents event clock 0 before).length := by
        by_contra hk
        rw [List.drop_eq_nil_of_le (by omega)] at hmem
        cases hmem
      rw [Nat.sub_eq_zero_of_le (by omega)]
      exact List.mem_cons_self
    · cases hdrop : k - (storedEvents event clock 0 before).length with
      | zero =>
        refine hgone (List.mem_append_right _ ?_)
        rw [hdrop]
        exact List.mem_cons_self
      | succ d =>
        rw [hdrop, List.drop_succ_cons] at hmem
        exact hlater _ (List.mem_of_mem_drop hmem) (hlastKey.trans hkey)
  have hlistedMem : stored ∈ listed ++ g.last :: rest := by
    rw [← hlisted]
    refine List.mem_filter.mpr ⟨hkept, ?_⟩
    rcases hns with rfl | rfl
    · rfl
    · simp [hstored, storedEvent, metadataOnlyEvent]
  rcases List.mem_append.mp hlistedMem with hbefore | hafter
  · -- then the last event would come after that of `p`
    have hpair : [stored, g.last].Sublist (listed ++ g.last :: rest) :=
      (List.singleton_sublist.mpr hbefore).append (List.singleton_sublist.mpr List.mem_cons_self)
    rw [← hlisted] at hpair
    have hpair := (hpair.trans List.filter_sublist).trans (List.drop_sublist _ _)
    rw [hall] at hpair
    exact absurd (hlastKey.trans hkey) (hlater _ (mem_of_pair_sublist hnew hpair))
  · rcases List.mem_cons.mp hafter with hsame | hafter
    · exact hsame.symm
    · exact absurd hkey.symm (hrest stored hafter)

end Recorded

end KubeAtlas.Proofs.History
