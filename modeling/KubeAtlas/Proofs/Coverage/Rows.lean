import KubeAtlas.Lib.EventLog
import KubeAtlas.Operations.Coverage

/-!
# `KubeAtlas.Proofs.Coverage.Rows`: the life of one row

For a fixed cluster, source and type, everything the tracker ever
does is one of nine events. `RowEvent.apply` says what each does to
the row, and `RowEvent.Enabled` when the tracker lets it happen:
callbacks only reach a row that has not stopped, and a type is
registered again by its source only after it has.

This file knows nothing of sessions. It looks back from a row over
the log of its events (latest first): `explained` reads the public
fields of a row off its log.
-/

set_option autoImplicit false

namespace KubeAtlas.Proofs.Coverage

open Lib.EventLog Operations

/-! ### Events -/

/-- What can happen to the row of a type. -/
inductive RowEvent where
  /-- `Begin` registers the type. -/
  | registered (now : Time)
  /-- `BeginType` registers it. -/
  | typeRegistered (now : Time)
  /-- A new session does not register the type and keeps its row as a stopped one. -/
  | retired (now : Time)
  | delivered
  | listed (success denied : Bool) (now : Time)
  /-- `WatchStarted`, with the epoch it returned. -/
  | watchStarted (epoch : UInt64)
  | watchEnded (epoch : UInt64) (reason : CoverageReason) (now : Time)
  | gap (reason : CoverageReason) (now : Time)
  | stopped (now : Time)
  deriving DecidableEq, Repr

namespace RowEvent

/-- The row after an event. -/
def apply (gvr : GroupVersionResource) :
    RowEvent → Option CoverageResource → Option CoverageResource
  | .registered now, old => some (.fresh gvr now 1 old)
  | .typeRegistered now, old =>
    some (.fresh gvr now ((old.map fun r => r.continuityRevision).getD 0 + 1) old)
  | .retired now, old => old.map fun r => { r.carry now with continuityRevision := 1 }
  | .delivered, old => old.map .deliver
  | .listed success denied now, old => old.map (.listed success denied now)
  | .watchStarted _, old => old.map .watching
  | .watchEnded epoch reason now, old =>
    old.map (.watchOver epoch (CoverageResource.endReason reason) now)
  | .gap reason now, old => old.map (.gapped reason now)
  | .stopped now, old => old.map (.halted now)

/-- When the tracker lets an event happen. -/
def Enabled : RowEvent → Option CoverageResource → Prop
  | .registered now, _ => now ≠ 0
  | .typeRegistered now, old => now ≠ 0 ∧ ∀ r, old = some r → r.stopped = true
  | .retired _, old => ∃ r, old = some r
  | .watchStarted epoch, old => ∃ r, old = some r ∧ r.stopped = false ∧ epoch = r.watchEpoch + 1
  | _, old => ∃ r, old = some r ∧ r.stopped = false

/-- The time an event carries. -/
def stamp : RowEvent → Option Time
  | .registered now | .typeRegistered now | .retired now | .listed _ _ now
  | .watchEnded _ _ now | .gap _ now | .stopped now => some now
  | .delivered | .watchStarted _ => none

/-- The event starts a registration. -/
def registers : RowEvent → Bool
  | .registered _ | .typeRegistered _ => true
  | _ => false

/-- The event ends a registration. -/
def ends : RowEvent → Bool
  | .retired _ | .stopped _ => true
  | _ => false

/-- The event is caused by a new session. -/
def begins : RowEvent → Bool
  | .registered _ | .retired _ => true
  | _ => false

def isListed : RowEvent → Bool
  | .listed _ _ _ => true
  | _ => false

def isWatchStarted : RowEvent → Bool
  | .watchStarted _ => true
  | _ => false

def isGap : RowEvent → Bool
  | .gap _ _ => true
  | _ => false

end RowEvent

/-- The log `h` leads to the row `row`. -/
abbrev RowTrace (gvr : GroupVersionResource) (init : Option CoverageResource)
    (h : List RowEvent) (row : Option CoverageResource) : Prop :=
  Trace (RowEvent.apply gvr) RowEvent.Enabled init h row

variable {e : RowEvent} {r : CoverageResource} {old : Option CoverageResource}
  {gvr : GroupVersionResource}

/-- An event keeps the row with its type. -/
theorem gvr_apply (hold : ∀ r, old = some r → r.gvr = gvr) (happly : e.apply gvr old = some r) :
    r.gvr = gvr := by
  cases e with
  | registered | typeRegistered =>
    cases happly
    rfl
  | _ =>
    obtain ⟨r₀, hr₀, rfl⟩ := Option.map_eq_some_iff.mp happly
    rw [← hold r₀ hr₀]
    first
      | rfl
      | (unfold CoverageResource.deliver; split <;> rfl)
      | (unfold CoverageResource.watchOver; split <;> rfl)
      | (unfold CoverageResource.listed; simp only; split_ifs <;> rfl)
      | (unfold CoverageResource.gapped; split <;> split <;> rfl)

variable {h : List RowEvent}

theorem gvr_of_trace (htrace : RowTrace gvr none h (some r)) : r.gvr = gvr :=
  Trace.inv (P := fun row => ∀ r, row = some r → r.gvr = gvr) (by simp)
    (fun _ _ _ hold _ happly => gvr_apply hold happly) htrace r rfl

/-- A row that is not there has no events. -/
theorem eq_nil_of_trace (htrace : RowTrace gvr none h none) : h = [] := by
  -- the last event would have left a row
  have hlast :
      ∀ {row : Option CoverageResource}, RowTrace gvr none h row → row = none → h = [] := by
    intro row hrow hnone
    cases hrow with
    | nil => rfl
    | cons e before enabled =>
      cases e with
      | registered | typeRegistered => contradiction
      | retired now =>
        obtain ⟨r, rfl⟩ := enabled
        contradiction
      | watchStarted epoch =>
        obtain ⟨r, rfl, -, -⟩ := enabled
        contradiction
      | _ =>
        obtain ⟨r, rfl, -⟩ := enabled
        contradiction
  exact hlast htrace rfl

/-! ### Reading a row off its log -/

/-- What the fields of a row that has not stopped say about the
events since its registration. -/
structure SinceRegistration (recent : List RowEvent) (r : CoverageResource) : Prop where
  quiet : ∀ e ∈ recent, e.registers = false ∧ e.ends = false
  delivered : r.initialDeliveryDone = true → .delivered ∈ recent
  watch : r.watchEstablished = true → ∃ later earlier,
    recent = later ++ .watchStarted r.watchEpoch :: earlier ∧
      ∀ e ∈ later, e.isWatchStarted = false ∧
        ∀ epoch reason now, e = .watchEnded epoch reason now → epoch ≠ 0 ∧ epoch ≠ r.watchEpoch
  listed : r.listReason = .unset → ∀ success denied now,
    recent.find? RowEvent.isListed = some (.listed success denied now) → success = true

/-- The gap that `RecordGap` records for a reason is on the row. -/
def GapOn (reason : CoverageReason) (r : CoverageResource) : Prop :=
  match reason with
  | .extractionFailed => r.extractionGapSince ≠ 0
  | .persistenceFailed => r.persistenceGapSince ≠ 0
  | _ => r.processingGapSince ≠ 0

/-- What a row says about its whole log. -/
structure Explained (h : List RowEvent) (r : CoverageResource) : Prop where
  live : r.stopped = false → ∃ recent reg older,
    h = recent ++ reg :: older ∧ reg.registers = true ∧ SinceRegistration recent r
  gaps : ∀ reason now, .gap reason now ∈ h → GapOn reason r

/-- A new registration starts with an empty recent log. -/
theorem sinceRegistration_fresh (gvr : GroupVersionResource) (now : Time) (revision : UInt64)
    (old : Option CoverageResource) :
    SinceRegistration [] (.fresh gvr now revision old) where
  quiet := by simp
  delivered := by simp [CoverageResource.fresh]
  watch := by simp [CoverageResource.fresh]
  listed := by simp

namespace SinceRegistration

variable {recent : List RowEvent} {r r' : CoverageResource} {e : RowEvent}

section

variable (hs : SinceRegistration recent r)
include hs

/-- An event that is no watch or list event keeps those fields and
only lengthens the log. -/
theorem extend (hreg : e.registers = false) (hends : e.ends = false)
    (hdone : r'.initialDeliveryDone = true → r.initialDeliveryDone = true ∨ e = .delivered)
    (hwatch : r'.watchEstablished = true → r.watchEstablished = true ∧
      r'.watchEpoch = r.watchEpoch ∧ e.isWatchStarted = false ∧
        ∀ epoch reason now, e = .watchEnded epoch reason now → epoch ≠ 0 ∧ epoch ≠ r.watchEpoch)
    (hlist : r'.listReason = .unset → e.isListed = false ∧ r.listReason = .unset) :
    SinceRegistration (e :: recent) r' where
  quiet := by
    intro x hx
    rcases List.mem_cons.mp hx with rfl | hx
    · exact ⟨hreg, hends⟩
    · exact hs.quiet x hx
  delivered := by
    intro hr'
    rcases hdone hr' with hr | rfl
    · exact List.mem_cons_of_mem _ (hs.delivered hr)
    · exact List.mem_cons_self
  watch := by
    intro hr'
    obtain ⟨hr, hepoch, hstart, hend⟩ := hwatch hr'
    obtain ⟨later, earlier, hsplit, hlater⟩ := hs.watch hr
    refine ⟨e :: later, earlier, by rw [hsplit, hepoch]; rfl, ?_⟩
    intro x hx
    rw [hepoch]
    rcases List.mem_cons.mp hx with rfl | hx
    · exact ⟨hstart, hend⟩
    · exact hlater x hx
  listed := by
    intro hr' success denied now hfind
    obtain ⟨hno, hr⟩ := hlist hr'
    rw [List.find?_cons_of_neg (by rw [hno]; decide)] at hfind
    exact hs.listed hr success denied now hfind

/-- Step: a delivery. -/
theorem deliver :
    SinceRegistration (.delivered :: recent) r.deliver := by
  unfold CoverageResource.deliver
  apply hs.extend rfl rfl
  · intro _
    exact Or.inr rfl
  · intro hw
    have hsame : r.watchEstablished = true := by
      split at hw <;> exact hw
    refine ⟨hsame, ?_, rfl, by intros; contradiction⟩
    split <;> rfl
  · intro hl
    have hsame : r.listReason = .unset := by
      split at hl <;> exact hl
    exact ⟨rfl, hsame⟩

/-- Step: the outcome of a list. -/
theorem list (success denied : Bool) (now : Time) :
    SinceRegistration (.listed success denied now :: recent) (r.listed success denied now) := by
  have hfields : (r.listed success denied now).initialDeliveryDone = r.initialDeliveryDone ∧
      (r.listed success denied now).watchEstablished = r.watchEstablished ∧
      (r.listed success denied now).watchEpoch = r.watchEpoch := by
    cases success <;> cases denied <;> exact ⟨rfl, rfl, rfl⟩
  obtain ⟨hdone, hest, hepoch⟩ := hfields
  -- the list field is the only one that speaks of this event
  have hrest : SinceRegistration (.listed success denied now :: recent)
      { r.listed success denied now with listReason := .listFailed } := by
    apply hs.extend rfl rfl
    · intro hd
      exact Or.inl (hdone ▸ hd)
    · intro hw
      exact ⟨hest ▸ hw, hepoch, rfl, by intros; contradiction⟩
    · intro hl
      exact absurd hl (by simp [CoverageReason.unset])
  refine ⟨hrest.quiet, hrest.delivered, hrest.watch, ?_⟩
  intro hr success' denied' now' hfind
  cases hfind
  cases success with
  | true => rfl
  | false =>
    -- a failed list leaves a reason
    cases denied <;> exact absurd hr (by simp [CoverageResource.listed, CoverageReason.unset])

/-- Step: a stream begins, under the next epoch. -/
theorem watchStart :
    SinceRegistration (.watchStarted (r.watchEpoch + 1) :: recent) r.watching where
  quiet := by
    intro x hx
    rcases List.mem_cons.mp hx with rfl | hx
    · exact ⟨rfl, rfl⟩
    · exact hs.quiet x hx
  delivered hr := List.mem_cons_of_mem _ (hs.delivered hr)
  watch _ := ⟨[], recent, rfl, by simp⟩
  listed := by
    intro hr success denied now hfind
    exact hs.listed hr success denied now hfind

/-- Step: the end of a stream, the last one or an old one. -/
theorem watchEnd (epoch : UInt64) (reason reason' : CoverageReason) (now : Time) :
    SinceRegistration (.watchEnded epoch reason now :: recent)
      (r.watchOver epoch reason' now) := by
  unfold CoverageResource.watchOver
  apply hs.extend rfl rfl
  · intro hd
    refine Or.inl ?_
    split at hd <;> exact hd
  · intro hw
    -- the watch is still established, so the event belonged to another stream
    split at hw
    · rename_i hother
      rw [if_pos hother]
      simp only [ne_eq, Bool.and_eq_true, decide_eq_true_eq] at hother
      refine ⟨hw, rfl, rfl, ?_⟩
      intro epoch' reason'' now' heq
      cases heq
      exact ⟨hother.1, fun heq => hother.2 heq.symm⟩
    · exact absurd hw (by simp)
  · intro hl
    refine ⟨rfl, ?_⟩
    split at hl <;> exact hl

/-- Step: a gap in the stream. -/
theorem gap (reason : CoverageReason) (now : Time) :
    SinceRegistration (.gap reason now :: recent) (r.gapped reason now) := by
  have hfields : (r.gapped reason now).initialDeliveryDone = r.initialDeliveryDone ∧
      (r.gapped reason now).watchEstablished = r.watchEstablished ∧
      (r.gapped reason now).watchEpoch = r.watchEpoch ∧
      (r.gapped reason now).listReason = r.listReason := by
    unfold CoverageResource.gapped
    cases reason <;> simp only <;> split <;> exact ⟨rfl, rfl, rfl, rfl⟩
  obtain ⟨hdone, hest, hepoch, hlist⟩ := hfields
  apply hs.extend rfl rfl
  · intro hd
    exact Or.inl (hdone ▸ hd)
  · intro hw
    exact ⟨hest ▸ hw, hepoch, rfl, by intros; contradiction⟩
  · intro hl
    exact ⟨rfl, hlist ▸ hl⟩

end

end SinceRegistration

/-! ### Data gaps -/

/-- The three gap fields. -/
def gapFields (r : CoverageResource) : Time × Time × Time :=
  (r.processingGapSince, r.extractionGapSince, r.persistenceGapSince)

variable {r r' : CoverageResource}

/-- No other event than a gap changes a gap field. -/
theorem gapFields_apply (hgap : e.isGap = false) (happly : e.apply gvr (some r) = some r') :
    gapFields r' = gapFields r := by
  cases e with
  | gap reason now => exact absurd hgap (by simp [RowEvent.isGap])
  | delivered =>
    cases happly
    unfold CoverageResource.deliver
    split <;> rfl
  | listed success denied now =>
    cases happly
    cases success <;> cases denied <;> rfl
  | watchEnded epoch reason now =>
    cases happly
    unfold CoverageResource.watchOver
    split <;> rfl
  | _ =>
    cases happly
    rfl

theorem GapOn.of_gapFields {reason : CoverageReason}
    (h : GapOn reason r) (heq : gapFields r' = gapFields r) : GapOn reason r' := by
  unfold gapFields at heq
  simp only [Prod.mk.injEq] at heq
  obtain ⟨hp, he, hs⟩ := heq
  unfold GapOn at h ⊢
  rw [hp, he, hs]
  exact h

/-- A recorded gap stays when another one is recorded. -/
theorem GapOn.gapped {reason reason' : CoverageReason} (h : GapOn reason r) (now : Time) :
    GapOn reason (r.gapped reason' now) := by
  unfold GapOn at h ⊢
  unfold CoverageResource.gapped
  -- a field that holds a time is not written again
  cases reason <;> cases reason' <;> simp only at h ⊢ <;> split <;> simp_all

/-- A gap that is recorded at a time is on the row. -/
theorem gapOn_gapped (reason : CoverageReason) {now : Time} (hnow : now ≠ 0)
    (r : CoverageResource) : GapOn reason (r.gapped reason now) := by
  unfold GapOn CoverageResource.gapped
  cases reason <;> simp only <;> split <;> assumption

/-! ### The row explains its log -/

/-- A registration starts a new account; only gaps are taken over. -/
theorem explained_fresh (htrace : RowTrace gvr none h old)
    (hold : ∀ r, old = some r → Explained h r) (hreg : e.registers = true) (hgap : e.isGap = false)
    (now : Time) (revision : UInt64) :
    Explained (e :: h) (.fresh gvr now revision old) where
  live _ := ⟨[], e, h, rfl, hreg, sinceRegistration_fresh gvr now revision old⟩
  gaps := by
    intro reason at' hmem
    rcases List.mem_cons.mp hmem with rfl | hmem
    · exact absurd hgap (by simp [RowEvent.isGap])
    · cases old with
      | none => exact absurd hmem (by rw [eq_nil_of_trace htrace]; exact List.not_mem_nil)
      | some r => exact ((hold r rfl).gaps reason at' hmem).of_gapFields rfl

/-- A row that has stopped only accounts for its gaps. -/
theorem explained_stopped (gvr : GroupVersionResource)
    (hr : Explained h r) (hgap : e.isGap = false) (happly : e.apply gvr (some r) = some r')
    (hstop : r'.stopped = true) :
    Explained (e :: h) r' where
  live hlive := by
    rw [hstop] at hlive
    exact absurd hlive (by decide)
  gaps := by
    intro reason now hmem
    rcases List.mem_cons.mp hmem with rfl | hmem
    · exact absurd hgap (by simp [RowEvent.isGap])
    · exact (hr.gaps reason now hmem).of_gapFields (gapFields_apply hgap happly)

/-- A callback adds to the account of the registration it reaches. -/
theorem explained_live (hr : Explained h r) (hlive : r.stopped = false)
    (hrecent : ∀ recent, SinceRegistration recent r → SinceRegistration (e :: recent) r')
    (hgaps : ∀ reason, GapOn reason r → GapOn reason r')
    (hown : ∀ reason now, e = .gap reason now → GapOn reason r') :
    Explained (e :: h) r' where
  live _ := by
    obtain ⟨recent, reg, older, hsplit, hreg, hsince⟩ := hr.live hlive
    exact ⟨e :: recent, reg, older, by rw [hsplit]; rfl, hreg, hrecent recent hsince⟩
  gaps := by
    intro reason now hmem
    rcases List.mem_cons.mp hmem with heq | hmem
    · exact hown reason now heq.symm
    · exact hgaps reason (hr.gaps reason now hmem)

/-- A row that is reached from nothing accounts for every event on
the way. -/
theorem explained {row : Option CoverageResource} (htrace : RowTrace gvr none h row)
    (hstamps : ∀ e ∈ h, ∀ now, e.stamp = some now → now ≠ 0) :
    ∀ r, row = some r → Explained h r := by
  induction htrace with
  | nil => simp
  | cons e before enabled ih =>
    have hold := ih fun x hx => hstamps x (List.mem_cons_of_mem _ hx)
    -- a gap field is unchanged by the callbacks that record no gap
    have hkeep : ∀ {r r' : CoverageResource}, e.isGap = false →
        e.apply gvr (some r) = some r' →
        (∀ reason, GapOn reason r → GapOn reason r') ∧
          ∀ reason now, e = .gap reason now → GapOn reason r' := by
      intro r r' hgap happly
      refine ⟨fun reason hr => hr.of_gapFields (gapFields_apply hgap happly), ?_⟩
      rintro reason now rfl
      exact absurd hgap (by simp [RowEvent.isGap])
    cases e with
    | registered now | typeRegistered now =>
      rintro r ⟨⟩
      exact explained_fresh before hold rfl rfl now _
    | retired now =>
      obtain ⟨r, rfl⟩ := enabled
      rintro r' ⟨⟩
      exact explained_stopped gvr (hold r rfl) rfl rfl rfl
    | stopped now =>
      obtain ⟨r, rfl, -⟩ := enabled
      rintro r' ⟨⟩
      exact explained_stopped gvr (hold r rfl) rfl rfl rfl
    | delivered =>
      obtain ⟨r, rfl, hlive⟩ := enabled
      rintro r' ⟨⟩
      obtain ⟨hgaps, hown⟩ := hkeep rfl rfl
      exact explained_live (hold r rfl) hlive (fun _ hs => hs.deliver) hgaps hown
    | listed success denied now =>
      obtain ⟨r, rfl, hlive⟩ := enabled
      rintro r' ⟨⟩
      obtain ⟨hgaps, hown⟩ := hkeep rfl rfl
      exact explained_live (hold r rfl) hlive (fun _ hs => hs.list success denied now) hgaps hown
    | watchStarted epoch =>
      obtain ⟨r, rfl, hlive, rfl⟩ := enabled
      rintro r' ⟨⟩
      obtain ⟨hgaps, hown⟩ := hkeep rfl rfl
      exact explained_live (hold r rfl) hlive (fun _ hs => hs.watchStart) hgaps hown
    | watchEnded epoch reason now =>
      obtain ⟨r, rfl, hlive⟩ := enabled
      rintro r' ⟨⟩
      obtain ⟨hgaps, hown⟩ := hkeep rfl rfl
      exact explained_live (hold r rfl) hlive (fun _ hs => hs.watchEnd epoch reason _ now)
        hgaps hown
    | gap reason now =>
      obtain ⟨r, rfl, hlive⟩ := enabled
      have hnow : now ≠ 0 := hstamps _ List.mem_cons_self now rfl
      rintro r' ⟨⟩
      refine explained_live (hold r rfl) hlive (fun _ hs => hs.gap reason now)
        (fun _ hr => hr.gapped now) ?_
      rintro reason' now' ⟨⟩
      exact gapOn_gapped reason hnow r

end KubeAtlas.Proofs.Coverage
