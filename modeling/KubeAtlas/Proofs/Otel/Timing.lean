import KubeAtlas.Lib.Tally
import KubeAtlas.Otel.Correlator
import Mathlib.Data.List.Induction
import Mathlib.Data.UInt

/-!
# `KubeAtlas.Proofs.Otel.Timing`: the times of spans and of runtime edges

A start time and a duration arrive as unsigned numbers and are
stored as signed ones, which keeps the numbers below `2 ^ 63` and no
others. `timing_exact_iff`: what is stored for the spans of a
request, and what the runtime edges say about them, is exact if and
only if every start time and every duration of the request is below
that.
-/

set_option autoImplicit false

namespace KubeAtlas.Proofs.Otel

open Lib Lib.Tally
open Operations (Time)
open KubeAtlas.Otel

/-! ### What is to be stored -/

/-- When a span started. -/
def instant (sp : OtlpSpan) : Time := unixEpoch + (sp.startTimeUnixNano.toNat : Int)

/-- The stored span has the times of the one that was sent. -/
structure TimedAs (sp : OtlpSpan) (s : Span) : Prop where
  duration : s.durationNS.toInt
    = max 0 ((sp.endTimeUnixNano.toNat : Int) - sp.startTimeUnixNano.toNat)
  nonneg : 0 ≤ s.durationNS
  start : s.startTime = instant sp

/-- `s` is what is stored for a span of the request. -/
def SentAs (req : ExportTraceServiceRequest) (sp : OtlpSpan) (s : Span) : Prop :=
  ∃ rs ∈ req, ∃ spans ∈ rs.scopeSpans, sp ∈ spans ∧ s = translateSpan (attrMap rs.attributes) sp

/-- The child spans of the calls that an edge of a batch stands for. -/
def Contributes (req : ExportTraceServiceRequest) (ids : List String) (batch : List Span)
    (e : RuntimeEdge) (sp : OtlpSpan) : Prop :=
  ∃ cl ∈ inferCalls batch, callKey ids cl = some (e.fromID, e.toID) ∧ SentAs req sp cl.child

/-- Spans and runtime edges have the times of the spans of the
request. -/
structure TimingExact (req : ExportTraceServiceRequest) : Prop where
  stored : ∀ sp s, SentAs req sp s → TimedAs sp s
  edges : ∀ range lister batch, batch ⊆ translate req →
    ∀ e ∈ (correlate range lister batch).1, e.firstSeen ≤ e.lastSeen ∧
      ∃ first last, Contributes req (buildResolver range lister batch) batch e first ∧
        Contributes req (buildResolver range lister batch) batch e last ∧
        e.firstSeen = instant first ∧ e.lastSeen = instant last

/-- Start time and duration have at most 63 bits. -/
def Fits (sp : OtlpSpan) : Prop :=
  sp.startTimeUnixNano.toNat < 2 ^ 63 ∧
    sp.endTimeUnixNano.toNat - sp.startTimeUnixNano.toNat < 2 ^ 63

/-! ### Stored spans -/

theorem toInt_toInt64 (x : UInt64) :
    x.toInt64.toInt = if x.toNat < 2 ^ 63 then (x.toNat : Int) else x.toNat - 2 ^ 64 := by
  show x.toBitVec.toInt = _
  rw [BitVec.toInt_eq_toNat_cond, UInt64.toNat_toBitVec]
  split_ifs <;> omega

/-- The conversion keeps the numbers with at most 63 bits. -/
theorem toInt64_exact_iff (x : UInt64) : x.toInt64.toInt = x.toNat ↔ x.toNat < 2 ^ 63 := by
  rw [toInt_toInt64]
  split_ifs <;> omega

/-- A span keeps its times if and only if they fit in 63 bits. -/
theorem timedAs_iff (ra : GoMap String (Option AnyValue)) (sp : OtlpSpan) :
    TimedAs sp (translateSpan ra sp) ↔ Fits sp := by
  have hstart : (translateSpan ra sp).startTime = instant sp ↔
      sp.startTimeUnixNano.toNat < 2 ^ 63 := by
    rw [← toInt64_exact_iff]
    exact Int.add_right_inj _
  have hduration : (translateSpan ra sp).durationNS.toInt
      = max 0 ((sp.endTimeUnixNano.toNat : Int) - sp.startTimeUnixNano.toNat) ↔
        sp.endTimeUnixNano.toNat - sp.startTimeUnixNano.toNat < 2 ^ 63 := by
    show (if _ then _ else _ : Int64).toInt = _ ↔ _
    by_cases h : sp.endTimeUnixNano > sp.startTimeUnixNano
    · have hsub := UInt64.toNat_sub_of_le _ _ (UInt64.le_of_lt h)
      rw [if_pos h, ← hsub, ← toInt64_exact_iff, hsub]
      omega
    · have hle := UInt64.le_iff_toNat_le.mp (UInt64.not_lt.mp h)
      rw [if_neg h]
      show (0 : Int) = _ ↔ _
      omega
  constructor
  · intro h
    exact ⟨hstart.mp h.start, hduration.mp h.duration⟩
  · intro h
    have hdur := hduration.mpr h.2
    refine ⟨hdur, ?_, hstart.mpr h.1⟩
    rw [Int64.le_iff_toInt_le, hdur]
    exact le_max_left ..

theorem mem_translate (req : ExportTraceServiceRequest) (s : Span) :
    s ∈ translate req ↔ ∃ sp, SentAs req sp s := by
  simp only [Otel.translate, SentAs, List.mem_flatMap, List.mem_map]
  grind

/-! ### Runtime edges -/

/-- What the loop over the calls keeps for the calls with the given
ends. -/
structure Observed (ids : List String) (calls : List Call) (ends : String × String)
    (e : RuntimeEdge) : Prop where
  key : (e.fromID, e.toID) = ends
  ordered : e.firstSeen ≤ e.lastSeen
  first : ∃ cl ∈ calls, callKey ids cl = some ends ∧ cl.child.startTime = e.firstSeen
  last : ∃ cl ∈ calls, callKey ids cl = some ends ∧ cl.child.startTime = e.lastSeen

theorem observed_aggregate {ids : List String} {calls : List Call} {ends : String × String}
    {e : RuntimeEdge} (h : (calls.foldl (aggregate ids) ∅).lookup ends = some e) :
    Observed ids calls ends e := by
  induction calls using List.reverseRecOn generalizing ends e with
  | nil => cases h
  | append_singleton calls cl ih =>
    have hmono : ∀ e, Observed ids calls ends e → Observed ids (calls ++ [cl]) ends e := by
      rintro e ⟨hends, hordered, ⟨f, hf, hfirst⟩, ⟨l, hl, hlast⟩⟩
      exact ⟨hends, hordered, ⟨f, by simp [hf], hfirst⟩, ⟨l, by simp [hl], hlast⟩⟩
    rw [List.foldl_append, List.foldl_cons, List.foldl_nil, aggregate] at h
    cases hkey : callKey ids cl with
    | none =>
      rw [hkey] at h
      exact hmono e (ih h)
    | some ends' =>
      rw [hkey] at h
      rw [lookup_insert_ite] at h
      by_cases hends : ends = ends'
      · subst hends
        rw [if_pos rfl, Option.some.injEq] at h
        subst h
        have hnew : ∃ c ∈ calls ++ [cl], callKey ids c = some ends ∧
            c.child.startTime = cl.child.startTime := ⟨cl, by simp, hkey, rfl⟩
        -- The call is the first between these ends, or it is compared with the times so far.
        cases hold : (calls.foldl (aggregate ids) ∅).lookup ends with
        | none => exact ⟨rfl, le_refl _, hnew, hnew⟩
        | some old =>
          obtain ⟨hends, hordered, hfirst, hlast⟩ := hmono old (ih hold)
          have hmin : (observe ends cl (some old)).firstSeen
              = min cl.child.startTime old.firstSeen := (min_def_lt ..).symm
          have hmax : (observe ends cl (some old)).lastSeen
              = max old.lastSeen cl.child.startTime := (max_def_lt ..).symm
          refine ⟨hends, ?_, ?_, ?_⟩
          · rw [hmin, hmax]
            exact (min_le_left ..).trans (le_max_right ..)
          · rw [hmin]
            rcases min_choice cl.child.startTime old.firstSeen with heq | heq
            · exact heq.symm ▸ hnew
            · exact heq.symm ▸ hfirst
          · rw [hmax]
            rcases max_choice old.lastSeen cl.child.startTime with heq | heq
            · exact heq.symm ▸ hlast
            · exact heq.symm ▸ hnew
      · rw [if_neg hends] at h
        exact hmono e (ih h)

/-- The times of an edge are those of two of its calls. -/
theorem observed_correlate {range : MapOrder} {lister : ResourceLister} {batch : List Span}
    {e : RuntimeEdge} (he : e ∈ (correlate range lister batch).1) :
    Observed (buildResolver range lister batch) (inferCalls batch) (e.fromID, e.toID) e := by
  simp only [correlate, List.mem_insertionSort, GoMap.mem_values] at he
  obtain ⟨ends, hlookup⟩ := he
  have hobserved := observed_aggregate hlookup
  rwa [hobserved.key]

/-- The child of a call is a span of the batch. -/
theorem child_mem {batch : List Span} {cl : Call} (h : cl ∈ inferCalls batch) :
    cl.child ∈ batch := by
  obtain ⟨s, hs, hcall⟩ := List.mem_filterMap.mp h
  unfold callOf at hcall
  split at hcall
  · cases hcall
  · split at hcall
    · cases hcall
    · split_ifs at hcall
      cases hcall
      exact hs

/-- Stored and reported times are exact if and only if the times of
the request have at most 63 bits. The conversion to a signed number
makes longer ones negative. -/
theorem timing_exact_iff (req : ExportTraceServiceRequest) :
    TimingExact req ↔ ∀ rs ∈ req, ∀ spans ∈ rs.scopeSpans, ∀ sp ∈ spans, Fits sp := by
  constructor
  · intro h rs hrs spans hspans sp hsp
    exact (timedAs_iff _ sp).mp (h.stored sp _ ⟨rs, hrs, spans, hspans, hsp, rfl⟩)
  · intro h
    have hstored : ∀ sp s, SentAs req sp s → TimedAs sp s := by
      rintro sp _ ⟨rs, hrs, spans, hspans, hsp, rfl⟩
      exact (timedAs_iff _ sp).mpr (h rs hrs spans hspans sp hsp)
    refine ⟨hstored, fun range lister batch hbatch e he => ?_⟩
    obtain ⟨-, hordered, ⟨f, hf, hfkey, hfirst⟩, ⟨l, hl, hlkey, hlast⟩⟩ := observed_correlate he
    obtain ⟨first, hsent⟩ := (mem_translate req _).mp (hbatch (child_mem hf))
    obtain ⟨last, hsent'⟩ := (mem_translate req _).mp (hbatch (child_mem hl))
    refine ⟨hordered, first, last, ⟨f, hf, hfkey, hsent⟩, ⟨l, hl, hlkey, hsent'⟩, ?_, ?_⟩
    · rw [← hfirst, (hstored first _ hsent).start]
    · rw [← hlast, (hstored last _ hsent').start]

/-- A span from the epoch to `2 ^ 63` nanoseconds after it, and an
empty one then. -/
def lateSpans : List OtlpSpan :=
  [⟨[], [1], [], 0, 2 ^ 63, []⟩, ⟨[], [2], [], 2 ^ 63, 2 ^ 63, []⟩]

/-- A negative duration, and a start before the epoch. -/
theorem translate_lateSpans :
    (translate [⟨[], [lateSpans]⟩]).map (fun s => (s.durationNS.toInt, s.startTime))
      = [(-2 ^ 63, unixEpoch), (0, unixEpoch - 2 ^ 63)] := by
  decide +kernel

end KubeAtlas.Proofs.Otel
