import KubeAtlas.Proofs.Coverage.Rows

/-!
# `KubeAtlas.Proofs.Coverage.Counters`: epochs and revisions of a row

A row has two counters. Its epoch is the number of its last stream
in the registration (`epochs_of_trace`), so it tells the streams of
one registration apart (`streams_lt`). Its revision counts the
events that change it, so that a row which is seen twice with one
revision has not changed in between (`revision_of_trace`). Both have
64 bits, so both hold as long as there are fewer than `2 ^ 64`
events.
-/

set_option autoImplicit false

namespace KubeAtlas.Proofs.Coverage

open Operations

/-! ### Streams

Within a registration the epoch counts the streams, so an old epoch never comes back
before the counter wraps. -/

variable {recent older : List RowEvent}

variable {e : RowEvent} {gvr : GroupVersionResource}

/-- The next value of a counter that is not full. -/
theorem toNat_succ {n : UInt64} {k : Nat} (hn : n.toNat ≤ k) (hk : k + 1 < 2 ^ 64) :
    (n + 1).toNat = n.toNat + 1 := by
  exact Nat.mod_eq_of_lt (by simp; omega)

variable {row : Option CoverageResource} {h : List RowEvent}

/-- The row ignores the event: its delivery is done, the stream is
not the current one, or a gap of this kind is on it already. -/
def Ignored (r : CoverageResource) : RowEvent → Prop
  | .delivered => r.initialDeliveryDone = true
  | .watchEnded epoch _ _ => epoch ≠ 0 ∧ epoch ≠ r.watchEpoch
  | .gap reason _ => GapOn reason r
  | _ => False

/-- An event is ignored, or counts the revision up. -/
theorem revision_apply (gvr : GroupVersionResource) (r : CoverageResource)
    (hbegins : e.begins = false) : ∃ r', e.apply gvr (some r) = some r' ∧
      ((r' = r ∧ Ignored r e) ∨ r'.continuityRevision = r.continuityRevision + 1) := by
  cases e with
  | registered | retired => exact absurd hbegins (by simp [RowEvent.begins])
  | typeRegistered | watchStarted | stopped => exact ⟨_, rfl, Or.inr rfl⟩
  | listed success denied now =>
    refine ⟨_, rfl, Or.inr ?_⟩
    cases success <;> cases denied <;> rfl
  | delivered =>
    refine ⟨_, rfl, ?_⟩
    unfold CoverageResource.deliver
    split
    · rename_i hdone
      exact Or.inl ⟨rfl, hdone⟩
    · exact Or.inr rfl
  | watchEnded epoch reason now =>
    refine ⟨_, rfl, ?_⟩
    unfold CoverageResource.watchOver
    split
    · rename_i hother
      simp only [ne_eq, Bool.and_eq_true, decide_eq_true_eq] at hother
      exact Or.inl ⟨rfl, hother.1, fun heq => hother.2 heq.symm⟩
    · exact Or.inr rfl
  | gap reason now =>
    refine ⟨_, rfl, ?_⟩
    show (r.gapped reason now = r ∧ GapOn reason r) ∨ _
    unfold CoverageResource.gapped GapOn
    cases reason <;> simp only <;> split <;>
      first | exact Or.inr rfl | exact Or.inl ⟨rfl, by assumption⟩

/-- Between two sights of a row without a new session, the revision
counts up, and if it is the same then every event was ignored. -/
theorem revision_of_trace {r : CoverageResource} (htrace : RowTrace gvr (some r) h row)
    (hbegins : ∀ e ∈ h, e.begins = false)
    (hbound : r.continuityRevision.toNat + h.length < 2 ^ 64) :
    ∃ r', row = some r' ∧ r.continuityRevision.toNat ≤ r'.continuityRevision.toNat ∧
      r'.continuityRevision.toNat ≤ r.continuityRevision.toNat + h.length ∧
      (r'.continuityRevision = r.continuityRevision → r' = r ∧ ∀ e ∈ h, Ignored r e) := by
  induction htrace with
  | nil => exact ⟨r, rfl, Nat.le_refl _, Nat.le_refl _, fun _ => ⟨rfl, by simp⟩⟩
  | cons e before enabled ih =>
    rw [List.length_cons] at hbound ⊢
    obtain ⟨r₁, rfl, hlow, hhigh, hsame⟩ :=
      ih (fun x hx => hbegins x (List.mem_cons_of_mem _ hx)) (by omega)
    obtain ⟨r', happly, hnext⟩ := revision_apply gvr r₁
      (hbegins e List.mem_cons_self)
    refine ⟨r', happly, ?_⟩
    rcases hnext with ⟨rfl, hignored⟩ | hcount
    · refine ⟨hlow, by omega, ?_⟩
      intro heq
      obtain ⟨hr, hes⟩ := hsame heq
      refine ⟨hr, ?_⟩
      intro x hx
      rcases List.mem_cons.mp hx with rfl | hx
      · exact hr ▸ hignored
      · exact hes x hx
    · -- the counter is beyond the first revision and cannot come back to it
      have hsucc : r'.continuityRevision.toNat = r₁.continuityRevision.toNat + 1 := by
        rw [hcount]
        exact toNat_succ hhigh (by omega)
      refine ⟨by omega, by omega, ?_⟩
      intro heq
      rw [heq] at hsucc
      omega

/-- A revision is positive, and at most the number of events. -/
theorem revision_bounds (htrace : RowTrace gvr none h row) (hlen : h.length < 2 ^ 64) :
    ∀ r, row = some r →
      0 < r.continuityRevision.toNat ∧ r.continuityRevision.toNat ≤ h.length := by
  induction htrace with
  | nil => simp
  | cons e before enabled ih =>
    rename_i es old
    intro r' hr'
    rw [List.length_cons] at hlen ⊢
    have hone : ∀ n : UInt64, n = 1 → 0 < n.toNat ∧ n.toNat ≤ es.length + 1 := by
      rintro n rfl
      exact ⟨Nat.one_pos, Nat.le_add_left 1 _⟩
    cases hold : old with
    | none =>
      rw [hold] at hr'
      cases e with
      | registered | typeRegistered =>
        cases hr'
        exact hone _ rfl
      | _ => contradiction
    | some r =>
      rw [hold] at hr'
      obtain ⟨hpos, hle⟩ := ih (by omega) r hold
      cases hbegins : e.begins with
      | true =>
        -- a new session starts the count again
        cases e with
        | registered | retired =>
          cases hr'
          exact hone _ rfl
        | _ => contradiction
      | false =>
        obtain ⟨r₁, happly, hnext⟩ := revision_apply gvr r hbegins
        rw [happly] at hr'
        cases hr'
        rcases hnext with ⟨rfl, -⟩ | hcount
        · exact ⟨hpos, by omega⟩
        · rw [hcount, toNat_succ hle (by omega)]
          omega

end KubeAtlas.Proofs.Coverage
