import KubeAtlas.Lib.Walk
import Mathlib.Data.List.Nodup

/-!
# `KubeAtlas.Lib.Search`: breadth-first search with two cut-offs

One queue, one visited set, a depth bound and a result bound. A
match `m : M` names its vertex (`key`), its depth, and grows by one
arc (`extend`). The arcs that leave a vertex come in a fixed order.
An arc to a new vertex is dropped with a flag when the current match
is at `maxDepth`, and with another flag when `limit` matches are
already found; otherwise the new match joins the queue. The visited
set is not updated for a dropped vertex, so the same vertex can be
dropped many times. Two hooks thread the caller's own data: `enter`
when a match is taken from the queue, `visit` when a new match is
accepted. `visit` may fail and then fails the search.

The loop invariant is `Inv`. It speaks about the pairs of match and
arc examined so far (`exam`) and the matches still to be expanded
(`live`). `search_final` says that a search that succeeds ends with
an empty queue and every arc examined, and from there:

* `Final.isDistance`: the depth of a match is its distance from the
  root.
* `Final.trail`: a match's path is a chain of arcs from the root,
  and every proper prefix of it is the path of an earlier match.
* `Final.matched_of_walk`: below the limit nothing within `maxDepth`
  is missing.
* `Final.truncated_iff`: a flag is up exactly when a reachable
  vertex is missing.
-/

set_option autoImplicit false

namespace KubeAtlas.Lib.Search

universe u

/-- A search problem: the ordered arcs of each vertex, how a match
names its vertex and depth and grows by an arc, the two hooks, and
the two bounds. -/
structure Problem (V A M σ ε : Type u) where
  arcs : V → List A
  target : A → V
  key : M → V
  depth : M → Nat
  extend : M → A → M
  enter : M → σ → σ
  visit : M → A → M → σ → Except ε σ
  maxDepth : Nat
  limit : Nat

/-- The loop's variables. `pending` is the part of the queue not yet
taken. -/
structure State (V M σ : Type u) where
  visited : V → Bool
  pending : List M
  found : List M
  depthLimited : Bool
  resultLimited : Bool
  extra : σ

variable {V A M σ ε : Type u} (P : Problem V A M σ ε)

section Loop

variable [DecidableEq V]

/-- The body of the inner loop: one arc of the current match. -/
def scanArc (current : M) (s : State V M σ) (a : A) : Except ε (State V M σ) :=
  if s.visited (P.target a) then .ok s
  else if P.depth current = P.maxDepth then .ok { s with depthLimited := true }
  else if s.found.length = P.limit then .ok { s with resultLimited := true }
  else do
    let next := P.extend current a
    let extra ← P.visit current a next s.extra
    .ok { s with
      visited := Function.update s.visited (P.target a) true
      pending := s.pending ++ [next]
      found := s.found ++ [next]
      extra := extra }

/-- The inner loop over a list of arcs of the current match. -/
def scan (current : M) : List A → State V M σ → Except ε (State V M σ)
  | [], s => .ok s
  | a :: as, s => do
      let s' ← scanArc P current s a
      scan current as s'

/-- The outer loop. Each round takes the head of the queue. -/
def loop : Nat → State V M σ → Except ε (State V M σ)
  | 0, s => .ok s
  | fuel + 1, s =>
    match s.pending with
    | [] => .ok s
    | m :: rest => do
        let s' ← scan P m (P.arcs (P.key m))
          { s with pending := rest, extra := P.enter m s.extra }
        loop fuel s'

/-- The start: the root is queued and visited, nothing is found. -/
def start (root : M) (extra : σ) : State V M σ :=
  { visited := fun v => decide (v = P.key root), pending := [root], found := [],
    depthLimited := false, resultLimited := false, extra := extra }

/-- The whole search. At most `limit` matches ever join the root in
the queue, so `limit + 1` rounds empty it (`search_final`). -/
def search (root : M) (extra : σ) : Except ε (State V M σ) :=
  loop P (P.limit + 1) (start P root extra)

end Loop

/-- `u` has an arc to `v`. -/
def Arc (u v : V) : Prop := ∃ a ∈ P.arcs u, P.target a = v

/-- A list of arcs that leads from `u` to `v`, each leaving where
the one before it ended. -/
inductive Trail (u : V) : List A → V → Prop
  | nil : Trail u [] u
  | snoc {l : List A} {v : V} {a : A} (init : Trail u l v) (mem : a ∈ P.arcs v) :
      Trail u (l ++ [a]) (P.target a)

/-- What the callers' `key` and `depth` satisfy on the arcs that
exist, and what the root is. -/
structure Lawful (root : M) : Prop where
  key_extend : ∀ m, ∀ a ∈ P.arcs (P.key m), P.key (P.extend m a) = P.target a
  depth_extend : ∀ m a, P.depth (P.extend m a) = P.depth m + 1
  depth_root : P.depth root = 0

/-- The loop invariant. `exam` holds the pairs of a match and one of
its arcs that the inner loop has been through; `live` is the tail of
the queue from the current match on. -/
structure Inv (root : M) (exam : List (M × A)) (live : List M) (s : State V M σ) : Prop where
  suffix : ∃ pre, pre ++ live = root :: s.found
  visited_iff : ∀ v, s.visited v = true ↔ ∃ m ∈ root :: s.found, P.key m = v
  nodup : ((root :: s.found).map P.key).Nodup
  sorted : (root :: s.found).Pairwise (fun m m' => P.depth m ≤ P.depth m')
  window : ∀ p ∈ live, ∀ m ∈ root :: s.found, P.depth m ≤ P.depth p + 1
  depth_le : ∀ m ∈ root :: s.found, P.depth m ≤ P.maxDepth
  origin : ∀ pre m post, s.found = pre ++ m :: post →
    ∃ p ∈ root :: pre, ∃ a ∈ P.arcs (P.key p), m = P.extend p a
  length_le : s.found.length ≤ P.limit
  examined : ∀ x ∈ exam, x.1 ∈ root :: s.found ∧ x.2 ∈ P.arcs (P.key x.1)
  closed : ∀ x ∈ exam, s.visited (P.target x.2) = true ∨
    (P.depth x.1 = P.maxDepth ∧ s.depthLimited = true) ∨
    (s.found.length = P.limit ∧ s.resultLimited = true)
  near : ∀ x ∈ exam, ∀ m ∈ root :: s.found,
    P.key m = P.target x.2 ∨ s.visited (P.target x.2) = false →
      P.depth m ≤ P.depth x.1 + 1
  depthFlag : s.depthLimited = true → (∀ p ∈ live, P.depth p = P.maxDepth) ∧
    ∃ x ∈ exam, s.visited (P.target x.2) = false
  resultFlag : s.resultLimited = true → s.found.length = P.limit ∧
    ∃ x ∈ exam, s.visited (P.target x.2) = false

variable {P} {root : M} {exam : List (M × A)} {live : List M} {s s' : State V M σ}

namespace Inv

variable {rest : List M} {cur : M}

/-- Every match that is still to be expanded is in the queue. -/
theorem mem_queue {p : M} (h : Inv P root exam live s) (hp : p ∈ live) :
    p ∈ root :: s.found := by
  obtain ⟨pre, hpre⟩ := h.suffix
  rw [← hpre]
  exact List.mem_append_right _ hp

section

variable (h : Inv P root exam (cur :: rest) s)
include h

/-- The head of `live` is in the queue and has the least depth of
`live`. -/
theorem head_spec : cur ∈ root :: s.found ∧ ∀ p ∈ rest, P.depth cur ≤ P.depth p := by
  obtain ⟨pre, hpre⟩ := h.suffix
  have hsorted := h.sorted
  rw [← hpre] at hsorted ⊢
  have htail := (List.pairwise_append.mp hsorted).2.1
  exact ⟨by simp, fun p hp => (List.pairwise_cons.mp htail).1 p hp⟩

/-- An examined arc that adds no match. The new state differs from
the old one in the flags at most, and a flag that goes up does so
for the unvisited target of `a`, with the cut-off of that flag in
force. -/
theorem examine {a : A} {dl rl : Bool}
    (ha : a ∈ P.arcs (P.key cur)) (hdl : s.depthLimited = true → dl = true)
    (hrl : s.resultLimited = true → rl = true)
    (hclosed : s.visited (P.target a) = true ∨ (P.depth cur = P.maxDepth ∧ dl = true) ∨
      (s.found.length = P.limit ∧ rl = true))
    (hdepth : dl = true → s.depthLimited = true ∨ (s.visited (P.target a) = false ∧ P.depth cur =
      P.maxDepth))
    (hresult : rl = true → s.resultLimited = true ∨ (s.visited (P.target a) = false ∧
      s.found.length = P.limit)) :
    Inv P root ((cur, a) :: exam) (cur :: rest)
      { s with depthLimited := dl, resultLimited := rl } where
  __ := h
  examined := List.forall_mem_cons.mpr ⟨⟨h.head_spec.1, ha⟩, h.examined⟩
  closed := List.forall_mem_cons.mpr ⟨hclosed, fun x hx => (h.closed x hx).imp_right fun hc =>
    hc.imp (fun hc => ⟨hc.1, hdl hc.2⟩) (fun hc => ⟨hc.1, hrl hc.2⟩)⟩
  near := List.forall_mem_cons.mpr
    ⟨fun m hm _ => h.window cur List.mem_cons_self m hm, h.near⟩
  depthFlag hd := by
    rcases hdepth hd with hd | hnew
    · obtain ⟨hlive, x, hx, hxv⟩ := h.depthFlag hd
      exact ⟨hlive, x, List.mem_cons_of_mem _ hx, hxv⟩
    · -- Every match still to come is at the bound as well, so the dropped vertex
      -- stays unvisited.
      refine ⟨List.forall_mem_cons.mpr ⟨hnew.2, fun p hp => ?_⟩, (cur, a), List.mem_cons_self,
        hnew.1⟩
      have hle := h.depth_le p (h.mem_queue (List.mem_cons_of_mem _ hp))
      have hge := h.head_spec.2 p hp
      omega
  resultFlag hr := by
    rcases hresult hr with hr | hnew
    · obtain ⟨hlen, x, hx, hxv⟩ := h.resultFlag hr
      exact ⟨hlen, x, List.mem_cons_of_mem _ hx, hxv⟩
    · exact ⟨hnew.2, (cur, a), List.mem_cons_self, hnew.1⟩

/-- While a new match can still be accepted, every examined arc
leads to a visited vertex: a dropped one would have put a cut-off in
force for good. -/
theorem visited_of_open (hd : P.depth cur ≠ P.maxDepth) (hlen : s.found.length ≠ P.limit) :
    ∀ x ∈ exam, s.visited (P.target x.2) = true := by
  intro x hx
  rcases h.closed x hx with hc | ⟨-, hc⟩ | ⟨hc, -⟩
  · exact hc
  · exact absurd ((h.depthFlag hc).1 cur (by simp)) hd
  · exact absurd hc hlen

/-- An accepted arc: the new match joins the queue at the end. -/
theorem accept [DecidableEq V] (hP : Lawful P root) {a : A} {extra : σ}
    (ha : a ∈ P.arcs (P.key cur)) (hv : s.visited (P.target a) = false)
    (hd : P.depth cur ≠ P.maxDepth) (hlen : s.found.length ≠ P.limit) :
    Inv P root ((cur, a) :: exam) (cur :: (rest ++ [P.extend cur a]))
      { s with
        visited := Function.update s.visited (P.target a) true
        pending := s.pending ++ [P.extend cur a]
        found := s.found ++ [P.extend cur a]
        extra := extra } := by
  have hopen := h.visited_of_open hd hlen
  have hkey : P.key (P.extend cur a) = P.target a := hP.key_extend cur a ha
  have hdepth : P.depth (P.extend cur a) = P.depth cur + 1 := hP.depth_extend cur a
  obtain ⟨hcur, hleast⟩ := h.head_spec
  have hwindow := h.window cur List.mem_cons_self
  -- The queue grows by the new match, and the visited set by its vertex.
  have hall : ∀ Q : M → Prop, (∀ m ∈ root :: (s.found ++ [P.extend cur a]), Q m) ↔
      (∀ m ∈ root :: s.found, Q m) ∧ Q (P.extend cur a) := by
    intro Q
    rw [← List.cons_append, List.forall_mem_append, List.forall_mem_singleton]
  have hqueue : ∀ m ∈ root :: s.found, m ∈ root :: (s.found ++ [P.extend cur a]) :=
    fun m hm => List.mem_append_left [P.extend cur a] hm
  have hvisited : ∀ v, Function.update s.visited (P.target a) true v = true ↔
      v = P.target a ∨ s.visited v = true := by
    intro v
    by_cases hva : v = P.target a <;> simp [hva]
  have hseen : ∀ x ∈ exam, Function.update s.visited (P.target a) true (P.target x.2) ≠ false :=
    fun x hx => by simp [(hvisited _).mpr (Or.inr (hopen x hx))]
  refine
    { suffix := ?_, visited_iff := ?_, nodup := ?_, sorted := ?_, window := ?_
      depth_le := (hall _).mpr ⟨h.depth_le, ?_⟩, origin := ?_, length_le := ?_
      examined := List.forall_mem_cons.mpr ⟨⟨hqueue _ hcur, ha⟩, fun x hx =>
        ⟨hqueue _ (h.examined x hx).1, (h.examined x hx).2⟩⟩
      closed := List.forall_mem_cons.mpr ⟨Or.inl ((hvisited _).mpr (Or.inl rfl)), fun x hx =>
        Or.inl ((hvisited _).mpr (Or.inr (hopen x hx)))⟩
      near := List.forall_mem_cons.mpr
        ⟨(hall _).mpr ⟨fun m hm _ => hwindow m hm, fun _ => Nat.le_of_eq hdepth⟩, fun x hx => ?_⟩
      depthFlag := fun hdl => absurd ((h.depthFlag hdl).1 cur List.mem_cons_self) hd
      resultFlag := fun hrl => absurd (h.resultFlag hrl).1 hlen }
  · obtain ⟨pre, hpre⟩ := h.suffix
    refine ⟨pre, ?_⟩
    rw [← List.cons_append, ← List.append_assoc, hpre]
    rfl
  · intro v
    show _ ↔ ∃ m ∈ (root :: s.found) ++ [P.extend cur a], P.key m = v
    rw [hvisited, h.visited_iff, or_comm]
    simp [or_and_right, exists_or, hkey, eq_comm, or_assoc]
  · show (((root :: s.found) ++ [P.extend cur a]).map P.key).Nodup
    rw [List.map_append, List.map_singleton, hkey, ← List.concat_eq_append]
    refine h.nodup.concat fun hmem => ?_
    obtain ⟨m, hm, hmv⟩ := List.mem_map.mp hmem
    have hold := (h.visited_iff (P.target a)).mpr ⟨m, hm, hmv⟩
    rw [hv] at hold
    cases hold
  · refine List.pairwise_append.mpr ⟨h.sorted, List.pairwise_singleton _ _, fun m hm => ?_⟩
    rw [List.forall_mem_singleton, hdepth]
    exact hwindow m hm
  · -- The depth of any live match lies between `cur`'s and one more.
    refine List.forall_mem_cons.mpr ⟨(hall _).mpr ⟨hwindow, Nat.le_of_eq hdepth⟩,
      List.forall_mem_append.mpr ⟨fun p hp => (hall _).mpr
        ⟨h.window p (List.mem_cons_of_mem _ hp), ?_⟩, List.forall_mem_singleton.mpr
          ((hall _).mpr ⟨fun m hm => ?_, Nat.le_succ _⟩)⟩⟩
    · have hle := hleast p hp
      omega
    · have hle := hwindow m hm
      omega
  · have hle := h.depth_le cur hcur
    omega
  · intro pre m post hsplit
    rcases List.eq_nil_or_concat post with rfl | ⟨post', x, rfl⟩
    · -- The new match itself: its parent is `cur`.
      obtain ⟨hpre, hm⟩ := List.append_inj' hsplit rfl
      rw [List.cons.injEq] at hm
      subst hpre
      exact ⟨cur, hcur, a, ha, hm.1.symm⟩
    · rw [List.concat_eq_append, ← List.cons_append, ← List.append_assoc] at hsplit
      obtain ⟨hpre, -⟩ := List.append_inj' hsplit rfl
      exact h.origin pre m post' hpre
  · have hle := h.length_le
    simp only [List.length_append, List.length_singleton]
    omega
  · refine (hall _).mpr ⟨fun m hm hcond => ?_, fun hcond => ?_⟩
    · exact h.near x hx m hm (hcond.imp_right fun hc => absurd hc (hseen x hx))
    · rcases hcond with hc | hc
      · have hold := hopen x hx
        rw [← hkey.symm.trans hc, hv] at hold
        cases hold
      · exact absurd hc (hseen x hx)

/-- The current match leaves `live` when its arcs are through. -/
theorem drop : Inv P root exam rest s :=
  { h with
    suffix := by
      obtain ⟨pre, hpre⟩ := h.suffix
      exact ⟨pre ++ [cur], by rw [List.append_assoc]; exact hpre⟩
    window := fun p hp => h.window p (List.mem_cons_of_mem _ hp)
    depthFlag := fun hd =>
      ⟨fun p hp => (h.depthFlag hd).1 p (List.mem_cons_of_mem _ hp), (h.depthFlag hd).2⟩ }

end

end Inv

/-! ### The loops keep the invariant -/

section Loop

variable [DecidableEq V] {cur : M} {a : A}

/-- What the inner loop can do with an arc. -/
inductive ScanStep (P : Problem V A M σ ε) (cur : M) (a : A) (s : State V M σ) : State V M σ → Prop
  | seen (hv : s.visited (P.target a) = true) : ScanStep P cur a s s
  | deep (hv : s.visited (P.target a) = false) (hd : P.depth cur = P.maxDepth) :
      ScanStep P cur a s { s with depthLimited := true }
  | full (hv : s.visited (P.target a) = false) (hlen : s.found.length = P.limit) :
      ScanStep P cur a s { s with resultLimited := true }
  | accept {x : σ} (hv : s.visited (P.target a) = false) (hd : P.depth cur ≠ P.maxDepth)
      (hlen : s.found.length ≠ P.limit) (hx : P.visit cur a (P.extend cur a) s.extra = .ok x) :
      ScanStep P cur a s
        { s with
          visited := Function.update s.visited (P.target a) true
          pending := s.pending ++ [P.extend cur a]
          found := s.found ++ [P.extend cur a]
          extra := x }

/-- What scanning one arc can do. -/
theorem scanStep (hs : scanArc P cur s a = .ok s') : ScanStep P cur a s s' := by
  unfold scanArc at hs
  split_ifs at hs with hv hd hlen
  · cases hs
    exact .seen hv
  · cases hs
    exact .deep (eq_false_of_ne_true hv) hd
  · cases hs
    exact .full (eq_false_of_ne_true hv) hlen
  · cases hx : P.visit cur a (P.extend cur a) s.extra with
    | error e => simp [hx, bind, Except.bind] at hs
    | ok x =>
      simp only [hx, bind, Except.bind] at hs
      cases hs
      exact .accept (eq_false_of_ne_true hv) hd hlen hx

/-- The loop over the arcs, one arc at a time. -/
theorem scan_cons {as : List A} (hs : scan P cur (a :: as) s = .ok s') :
    ∃ s₁, ScanStep P cur a s s₁ ∧ scan P cur as s₁ = .ok s' := by
  simp only [scan, bind, Except.bind] at hs
  split at hs
  · cases hs
  · rename_i s₁ hstep
    exact ⟨s₁, scanStep hstep, hs⟩

/-- A round of the outer loop, if there is one. -/
theorem loop_succ {fuel : Nat} (hs : loop P (fuel + 1) s = .ok s') :
    (s.pending = [] ∧ s' = s) ∨ ∃ m rest s₁, s.pending = m :: rest ∧
      scan P m (P.arcs (P.key m)) { s with pending := rest, extra := P.enter m s.extra } = .ok s₁ ∧
      loop P fuel s₁ = .ok s' := by
  simp only [loop, bind, Except.bind] at hs
  split at hs
  · rename_i hnil
    exact Or.inl ⟨hnil, (Except.ok.inj hs).symm⟩
  · rename_i m rest hcons
    split at hs
    · cases hs
    · rename_i s₁ hscan
      exact Or.inr ⟨m, rest, s₁, hcons, hscan, hs⟩

/-- What every arc keeps, the inner loop keeps. -/
theorem scan_keeps {Q : State V M σ → Prop}
    (hstep : ∀ a s s', ScanStep P cur a s s' → Q s → Q s') (as : List A) {s : State V M σ}
    (h : Q s) (hs : scan P cur as s = .ok s') : Q s' := by
  induction as generalizing s with
  | nil =>
    cases hs
    exact h
  | cons a as ih =>
    obtain ⟨s₁, hfirst, hrest⟩ := scan_cons hs
    exact ih (hstep a s s₁ hfirst h) hrest

/-- What a match adds to the queue it also adds to the result. -/
theorem scan_queue (as : List A) (hs : scan P cur as s = .ok s') :
    ∃ new, s'.found = s.found ++ new ∧ s'.pending = s.pending ++ new := by
  refine scan_keeps (Q := fun s' => ∃ new, s'.found = s.found ++ new ∧
    s'.pending = s.pending ++ new) ?_ as ⟨[], by simp, by simp⟩ hs
  rintro a s₁ s₂ hstep ⟨new, hf, hp⟩
  cases hstep with
  | seen | deep | full => exact ⟨new, hf, hp⟩
  | accept hv hd hlen hx => exact ⟨new ++ [P.extend cur a], by simp [hf], by simp [hp]⟩

section

variable (hP : Lawful P root)
include hP

/-- One arc keeps the invariant. -/
theorem ScanStep.inv (h : Inv P root exam (cur :: s.pending) s) (ha : a ∈ P.arcs (P.key cur))
    (hs : ScanStep P cur a s s') : Inv P root ((cur, a) :: exam) (cur :: s'.pending) s' := by
  cases hs with
  | seen hv => exact h.examine ha id id (Or.inl hv) Or.inl Or.inl
  | deep hv hd =>
    exact h.examine ha (fun _ => rfl) id (Or.inr (Or.inl ⟨hd, rfl⟩)) (fun _ => Or.inr ⟨hv, hd⟩)
      Or.inl
  | full hv hlen =>
    exact h.examine ha id (fun _ => rfl) (Or.inr (Or.inr ⟨hlen, rfl⟩)) Or.inl
      (fun _ => Or.inr ⟨hv, hlen⟩)
  | accept hv hd hlen hx => exact h.accept hP ha hv hd hlen

/-- The inner loop keeps the invariant. -/
theorem scan_inv (as : List A) (has : ∀ a ∈ as, a ∈ P.arcs (P.key cur))
    (exam : List (M × A)) (s : State V M σ) (h : Inv P root exam (cur :: s.pending) s)
    (hs : scan P cur as s = .ok s') :
    ∃ exam', Inv P root exam' (cur :: s'.pending) s' ∧ (∀ x ∈ exam, x ∈ exam') ∧
      ∀ a ∈ as, (cur, a) ∈ exam' := by
  induction as generalizing exam s with
  | nil =>
    cases hs
    exact ⟨exam, h, fun x hx => hx, nofun⟩
  | cons a as ih =>
    obtain ⟨s₁, hstep, hrest⟩ := scan_cons hs
    obtain ⟨exam', h', hsub, hall⟩ := ih (fun b hb => has b (List.mem_cons_of_mem _ hb)) _ s₁
      (hstep.inv hP h (has a List.mem_cons_self)) hrest
    exact ⟨exam', h', fun x hx => hsub x (List.mem_cons_of_mem _ hx),
      List.forall_mem_cons.mpr ⟨hsub _ List.mem_cons_self, hall⟩⟩

end

variable (P) in
/-- What the search leaves behind: the queue is empty, the invariant
holds with nothing live, and every arc of every queued match was
examined. -/
structure Final (root : M) (s : State V M σ) : Prop where
  pending : s.pending = []
  inv : ∃ exam, Inv P root exam [] s ∧
    ∀ m ∈ root :: s.found, ∀ a ∈ P.arcs (P.key m), (m, a) ∈ exam

/-- The outer loop reaches `Final`. The fuel counts the queue plus
the room left under the limit; a round takes one match away, and
what it queues it also finds. -/
theorem loop_final (hP : Lawful P root) (fuel : Nat) (exam : List (M × A)) (pre : List M)
    (s : State V M σ) (h : Inv P root exam s.pending s) (hpre : pre ++ s.pending = root :: s.found)
    (hdone : ∀ m ∈ pre, ∀ a ∈ P.arcs (P.key m), (m, a) ∈ exam)
    (hfuel : s.pending.length + (P.limit - s.found.length) ≤ fuel)
    (hs : loop P fuel s = .ok s') : Final P root s' := by
  have hend : s.pending = [] → Final P root s := by
    intro hnil
    rw [hnil] at h
    rw [hnil, List.append_nil] at hpre
    exact ⟨hnil, exam, h, hpre ▸ hdone⟩
  induction fuel generalizing exam pre s with
  | zero =>
    cases hs
    exact hend (List.length_eq_zero_iff.mp (by omega))
  | succ fuel ih =>
    rcases loop_succ hs with ⟨hnil, rfl⟩ | ⟨m, rest, s₁, hcons, hscan, hrest⟩
    · exact hend hnil
    · rw [hcons] at h hpre hfuel
      -- the invariant does not read the caller's data, nor the queue itself
      have hstart : Inv P root exam (m :: rest)
        { s with pending := rest, extra := P.enter m s.extra } := { h with }
      obtain ⟨exam', h', hsub, hall⟩ := scan_inv hP _ (fun _ ha => ha) exam _ hstart hscan
      obtain ⟨new, hf, hp⟩ := scan_queue _ hscan
      simp only at hf hp
      have hpre' : (pre ++ [m]) ++ s₁.pending = root :: s₁.found := by
        rw [hp, hf, ← List.cons_append, ← hpre]
        simp
      have hdone' : ∀ p ∈ pre ++ [m], ∀ a ∈ P.arcs (P.key p), (p, a) ∈ exam' :=
        List.forall_mem_append.mpr ⟨fun p hpm a ha => hsub _ (hdone p hpm a ha),
          List.forall_mem_singleton.mpr hall⟩
      have hfuel' : s₁.pending.length + (P.limit - s₁.found.length) ≤ fuel := by
        have hle := h'.length_le
        rw [List.length_cons] at hfuel
        rw [hf, List.length_append] at hle ⊢
        rw [hp, List.length_append]
        omega
      refine ih exam' (pre ++ [m]) s₁ h'.drop hpre' hdone' hfuel' hrest fun hnil => ?_
      rw [hnil, List.append_nil] at hpre'
      exact ⟨hnil, exam', hnil ▸ h'.drop, hpre' ▸ hdone'⟩

variable (P) in
/-- The invariant holds at the start. -/
theorem start_inv (hP : Lawful P root) (extra : σ) :
    Inv P root [] [root] (start P root extra) where
  suffix := ⟨[], rfl⟩
  visited_iff v := by simp [start, eq_comm]
  nodup := by simp [start]
  sorted := by simp [start]
  window := by simp [start]
  depth_le := by simp [start, hP.depth_root]
  origin pre m post h := by simp [start] at h
  length_le := Nat.zero_le _
  examined := nofun
  closed := nofun
  near := nofun
  depthFlag := nofun
  resultFlag := nofun

/-- A search that succeeds is `Final`. -/
theorem search_final (hP : Lawful P root) {extra : σ} (hs : search P root extra = .ok s) :
    Final P root s := by
  refine loop_final hP (P.limit + 1) [] [] (start P root extra) (start_inv P hP extra) rfl
    nofun ?_ hs
  show 1 + (P.limit - 0) ≤ P.limit + 1
  omega

end Loop

/-! ### What a search carries along

The state besides the queue is the caller's. A relation `J` between it, the matches that were
taken from the queue and the matches that were found holds at the end, as soon as taking a match
and visiting one keep it. At the end all matches have been taken. -/

section Carry

variable [DecidableEq V] {J : List M → List M → σ → Prop}
  (henter : ∀ m taken found x, J taken found x → J (taken ++ [m]) found (P.enter m x))
  (hvisit : ∀ m a taken found x x', J taken found x →
    P.visit m a (P.extend m a) x = .ok x' → J taken (found ++ [P.extend m a]) x')
include henter hvisit

/-- A property of what was taken, found and carried along is kept by
the loop if it is kept when a match is taken and when one is found. -/
theorem loop_carries (fuel : Nat) {taken : List M} {s : State V M σ}
    (hqueue : taken ++ s.pending = root :: s.found) (h : J taken s.found s.extra)
    (hs : loop P fuel s = .ok s') :
    ∃ taken', taken' ++ s'.pending = root :: s'.found ∧ J taken' s'.found s'.extra := by
  induction fuel generalizing s taken with
  | zero =>
    cases hs
    exact ⟨taken, hqueue, h⟩
  | succ fuel ih =>
    rcases loop_succ hs with ⟨-, rfl⟩ | ⟨m, rest, s₁, hcons, hscan, hrest⟩
    · exact ⟨taken, hqueue, h⟩
    · obtain ⟨new, hf, hp⟩ := scan_queue _ hscan
      have hqueue' : (taken ++ [m]) ++ s₁.pending = root :: s₁.found := by
        rw [hcons] at hqueue
        rw [hf, hp, ← List.cons_append, ← hqueue]
        simp
      refine ih hqueue' (scan_keeps (Q := fun s => J (taken ++ [m]) s.found s.extra) ?_ _
        (henter m taken s.found s.extra h) hscan) hrest
      rintro a s₁ s₂ (hv | ⟨hv, hd⟩ | ⟨hv, hlen⟩ | ⟨hv, hd, hlen, hx⟩) h
      · exact h
      · exact h
      · exact h
      · exact hvisit _ _ _ _ _ _ h hx

/-- The same for a whole search, in which all that was found is
taken in the end. -/
theorem search_carries (hP : Lawful P root) {extra : σ} (hstart : J [] [] extra)
    (hs : search P root extra = .ok s) : J (root :: s.found) s.found s.extra := by
  obtain ⟨taken, hqueue, h⟩ := loop_carries henter hvisit (P.limit + 1)
    (show [] ++ (start P root extra).pending = _ from rfl) hstart hs
  rw [(search_final hP hs).pending, List.append_nil] at hqueue
  exact hqueue ▸ h

end Carry

/-! ### What a finished search has found -/

namespace Final

/-- Any walk from the root either ends in a match no deeper than the
walk is long, or bounds every depth: the walk left the visited set
at a dropped vertex, and from then on no match got deeper. -/
theorem walk_bound (hP : Lawful P root) (h : Final P root s) {n : Nat} {v : V}
    (w : Walk (Arc P) (P.key root) n v) :
    (∃ m ∈ root :: s.found, P.key m = v ∧ P.depth m ≤ n) ∨
      ∀ m ∈ root :: s.found, P.depth m ≤ n := by
  obtain ⟨exam, hinv, hexam⟩ := h.inv
  induction w with
  | refl => exact Or.inl ⟨root, by simp, rfl, Nat.le_of_eq hP.depth_root⟩
  | @snoc n v w _ arc ih =>
    cases ih with
    | inr hall => exact Or.inr fun m hm => Nat.le_succ_of_le (hall m hm)
    | inl hmatch =>
      obtain ⟨p, hp, rfl, hpn⟩ := hmatch
      obtain ⟨a, ha, rfl⟩ := arc
      have hnear : ∀ m ∈ root :: s.found, P.key m = P.target a ∨
          s.visited (P.target a) = false → P.depth m ≤ P.depth p + 1 :=
        hinv.near (p, a) (hexam p hp a ha)
      cases hv : s.visited (P.target a) with
      | true =>
        obtain ⟨m, hm, hmv⟩ := (hinv.visited_iff _).mp hv
        have := hnear m hm (Or.inl hmv)
        exact Or.inl ⟨m, hm, hmv, by omega⟩
      | false =>
        refine Or.inr fun m hm => ?_
        have := hnear m hm (Or.inr hv)
        omega

/-- Two matches of the queue with one key are the same match. -/
theorem key_inj (h : Final P root s) {m m' : M} (hm : m ∈ root :: s.found)
    (hm' : m' ∈ root :: s.found) (hk : P.key m = P.key m') : m = m' := by
  obtain ⟨exam, hinv, -⟩ := h.inv
  exact List.inj_on_of_nodup_map hinv.nodup hm hm' hk

/-- A match's depth is at most the length of any walk to its vertex. -/
theorem depth_le_walk (hP : Lawful P root) (h : Final P root s) {m : M}
    (hm : m ∈ root :: s.found) {n : Nat} (w : Walk (Arc P) (P.key root) n (P.key m)) :
    P.depth m ≤ n := by
  cases h.walk_bound hP w with
  | inr hall => exact hall m hm
  | inl hmatch =>
    obtain ⟨m', hm', hk, hle⟩ := hmatch
    rwa [← h.key_inj hm' hm hk]

/-- Induction along the ancestry of the matches. `Q pre m` may speak
about the matches `pre` found before `m`; a match's parent is the
root or one of them. -/
theorem found_induction (h : Final P root s) {Q : List M → M → Prop}
    (hroot : ∀ pre, ∀ a ∈ P.arcs (P.key root), Q pre (P.extend root a))
    (hstep : ∀ pre p mid, ∀ a ∈ P.arcs (P.key p), Q pre p →
      Q (pre ++ p :: mid) (P.extend p a)) :
    ∀ pre m post, s.found = pre ++ m :: post → Q pre m := by
  obtain ⟨exam, hinv, -⟩ := h.inv
  intro pre
  induction hn : pre.length using Nat.strongRecOn generalizing pre with
  | ind n ih =>
    intro m post hsplit
    obtain ⟨p, hp, a, ha, rfl⟩ := hinv.origin pre m post hsplit
    cases List.mem_cons.mp hp with
    | inl hp =>
      subst hp
      exact hroot pre a ha
    | inr hp =>
      obtain ⟨pre₁, mid, rfl⟩ := List.append_of_mem hp
      refine hstep pre₁ p mid a ha ?_
      refine ih pre₁.length ?_ pre₁ rfl p (mid ++ P.extend p a :: post) ?_
      · rw [← hn, List.length_append, List.length_cons]
        omega
      · rw [hsplit, List.append_assoc]
        rfl

section

variable (hP : Lawful P root) (h : Final P root s)
include hP h

/-- A match's path leads from the root to its vertex, one arc per
level, and each proper prefix is the path of a match found before. -/
theorem trail (path : M → List A)
    (hroot : path root = []) (hpath : ∀ m a, path (P.extend m a) = path m ++ [a]) :
    ∀ pre m post, s.found = pre ++ m :: post →
      Trail P (P.key root) (path m) (P.key m) ∧ (path m).length = P.depth m ∧
        ∀ k, 0 < k → k < (path m).length → ∃ p ∈ pre, path p = (path m).take k := by
  refine h.found_induction ?_ ?_
  · intro pre a ha
    rw [hpath, hroot, hP.key_extend root a ha, hP.depth_extend, hP.depth_root]
    refine ⟨.snoc .nil ha, rfl, fun k hk0 hk => ?_⟩
    simp only [List.nil_append, List.length_singleton] at hk
    omega
  · intro pre p mid a ha ⟨htrail, hlen, hprefix⟩
    rw [hpath, hP.key_extend p a ha, hP.depth_extend, List.length_append,
      List.length_singleton]
    refine ⟨.snoc htrail ha, by omega, fun k hk0 hk => ?_⟩
    rw [List.take_append_of_le_length (by omega)]
    cases Nat.lt_or_ge k (path p).length with
    | inl hkp =>
      obtain ⟨q, hq, hqk⟩ := hprefix k hk0 hkp
      exact ⟨q, List.mem_append_left _ hq, hqk⟩
    | inr hkp =>
      refine ⟨p, List.mem_append_right _ List.mem_cons_self, ?_⟩
      rw [List.take_of_length_le hkp]

/-- Every queued match is reached from the root by a walk as long as
its depth. -/
theorem walk {m : M} (hm : m ∈ root :: s.found) :
    Walk (Arc P) (P.key root) (P.depth m) (P.key m) := by
  cases List.mem_cons.mp hm with
  | inl hm =>
    subst hm
    rw [hP.depth_root]
    exact .refl
  | inr hm =>
    obtain ⟨pre, post, hsplit⟩ := List.append_of_mem hm
    refine h.found_induction
      (Q := fun _ m => Walk (Arc P) (P.key root) (P.depth m) (P.key m)) ?_ ?_
      pre m post hsplit
    · intro _ a ha
      rw [hP.depth_extend, hP.key_extend root a ha, hP.depth_root]
      exact .snoc .refl ⟨a, ha, rfl⟩
    · intro _ p _ a ha ih
      rw [hP.depth_extend, hP.key_extend p a ha]
      exact .snoc ih ⟨a, ha, rfl⟩

/-- The depth of a match is its distance from the root. -/
theorem isDistance {m : M} (hm : m ∈ root :: s.found) :
    IsDistance (Arc P) (P.key root) (P.key m) (P.depth m) :=
  ⟨h.walk hP hm, fun _ w => h.depth_le_walk hP hm w⟩

/-- A match other than the root lies at depth at least one. -/
theorem depth_pos {m : M} (hm : m ∈ s.found) :
    1 ≤ P.depth m := by
  obtain ⟨pre, post, hsplit⟩ := List.append_of_mem hm
  refine h.found_induction (Q := fun _ m => 1 ≤ P.depth m) ?_ ?_ pre m post hsplit
  · intro _ a _
    rw [hP.depth_extend]
    omega
  · intro _ p _ a _ _
    rw [hP.depth_extend]
    omega

end

/-- The root is not among the matches, and no vertex is matched
twice. -/
theorem found_nodup (h : Final P root s) :
    (s.found.map P.key).Nodup ∧ ∀ m ∈ s.found, P.key m ≠ P.key root := by
  obtain ⟨exam, hinv, -⟩ := h.inv
  have hnd := hinv.nodup
  rw [List.map_cons, List.nodup_cons] at hnd
  exact ⟨hnd.2, fun m hm hk => hnd.1 (hk ▸ List.mem_map_of_mem hm)⟩

/-- With room left under the limit, every vertex within the depth
bound is matched. The induction runs along a walk, whose vertices
are matched no deeper than they lie on it. -/
theorem matched_of_walk (hP : Lawful P root) (h : Final P root s)
    (hlen : s.found.length < P.limit) {n : Nat} {v : V}
    (w : Walk (Arc P) (P.key root) n v) (hn : n ≤ P.maxDepth) :
    ∃ m ∈ root :: s.found, P.key m = v := by
  obtain ⟨exam, hinv, hexam⟩ := h.inv
  induction w with
  | refl => exact ⟨root, List.mem_cons_self, rfl⟩
  | @snoc n u v init arc ih =>
    obtain ⟨p, hp, rfl⟩ := ih (by omega)
    obtain ⟨a, ha, rfl⟩ := arc
    have hle := h.depth_le_walk hP hp init
    cases hinv.closed (p, a) (hexam p hp a ha) with
    | inl hv => exact (hinv.visited_iff _).mp hv
    | inr hcut =>
      cases hcut with
      | inl hdepth =>
        have : P.depth p = P.maxDepth := hdepth.1
        omega
      | inr hfull =>
        omega

/-- A flag is up exactly when a vertex reachable from the root is
neither the root nor matched. -/
theorem truncated_iff (hP : Lawful P root) (h : Final P root s) :
    s.depthLimited = true ∨ s.resultLimited = true ↔
      ∃ v, Relation.ReflTransGen (Arc P) (P.key root) v ∧
        ∀ m ∈ root :: s.found, P.key m ≠ v := by
  obtain ⟨exam, hinv, hexam⟩ := h.inv
  have hmiss : ∀ v, s.visited v = false ↔ ∀ m ∈ root :: s.found, P.key m ≠ v := by
    intro v
    rw [← Bool.not_eq_true, hinv.visited_iff]
    push Not
    rfl
  constructor
  · intro hflag
    obtain ⟨x, hx, hxv⟩ : ∃ x ∈ exam, s.visited (P.target x.2) = false := by
      cases hflag with
      | inl hd => exact (hinv.depthFlag hd).2
      | inr hr => exact (hinv.resultFlag hr).2
    obtain ⟨hqueue, harc⟩ := hinv.examined x hx
    refine ⟨P.target x.2, ?_, (hmiss _).mp hxv⟩
    exact .tail (h.walk hP hqueue).reflTransGen ⟨x.2, harc, rfl⟩
  · rintro ⟨v, hreach, hv⟩
    -- Follow the walk to its first vertex without a match.
    by_contra hflag
    rw [not_or, Bool.not_eq_true, Bool.not_eq_true] at hflag
    have hall : ∀ w, Relation.ReflTransGen (Arc P) (P.key root) w →
        ∃ m ∈ root :: s.found, P.key m = w := by
      intro w hw
      induction hw with
      | refl => exact ⟨root, List.mem_cons_self, rfl⟩
      | tail _ arc ih =>
        obtain ⟨p, hp, rfl⟩ := ih
        obtain ⟨a, ha, rfl⟩ := arc
        have hclosed := hinv.closed (p, a) (hexam p hp a ha)
        simp only [hflag.1, hflag.2, Bool.false_eq_true, and_false, or_false] at hclosed
        exact (hinv.visited_iff _).mp hclosed
    obtain ⟨m, hm, hmv⟩ := hall v hreach
    exact hv m hm hmv

end Final

end KubeAtlas.Lib.Search
