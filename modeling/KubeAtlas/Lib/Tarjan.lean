import Mathlib.Data.Fintype.Card

/-!
# `KubeAtlas.Lib.Tarjan`: strongly connected components by Tarjan's algorithm

The graph on `V` is given by successor lists `adj`. `strongConnect`
is the recursive depth-first search with index, lowlink and an
explicit stack; `components` runs it from every vertex that was not
visited yet. The recursion is bounded by `fuel`, and as many units
as there are vertices are enough (`components_spec`).

The proof speaks of the vertices whose calls are still running, a
set that only the proof knows. Every other visited vertex is
finished, and has visited successors only. `Inv` holds between any
two steps, and `Call` says what one call of `strongConnect` leaves
behind for its caller.
-/

set_option autoImplicit false

namespace KubeAtlas.Lib.Tarjan

open Function (update)
open Relation

/-! ### The algorithm -/

/-- The bookkeeping of the search. `index` is `none` for a vertex
that was not visited, and the top of the stack comes first. -/
structure State (V : Type) where
  index : V → Option Nat
  lowlink : V → Nat
  onStack : V → Bool
  stack : List V
  counter : Nat
  components : List (List V)

section Algorithm

variable {V : Type} [DecidableEq V]

/-- Before the search. -/
def State.new : State V := ⟨fun _ => none, fun _ => 0, fun _ => false, [], 0, []⟩

/-- Visits `v`. -/
def State.enter (v : V) (t : State V) : State V :=
  { t with
    index := update t.index v (some t.counter)
    lowlink := update t.lowlink v t.counter
    counter := t.counter + 1
    stack := v :: t.stack
    onStack := update t.onStack v true }

/-- Lowers the lowlink of `v` to `low`, if that is less. -/
def State.lower (v : V) (low : Nat) (t : State V) : State V :=
  { t with
    lowlink := if low < t.lowlink v then update t.lowlink v low else t.lowlink }

/-- Pops the stack down to `v`: what was popped, and what is left.
The stack has `v` in it whenever this is called. -/
def popTo (v : V) : List V → List V × List V
  | [] => ([], [])
  | w :: stack =>
    if w = v then ([w], stack) else (w :: (popTo v stack).1, (popTo v stack).2)

/-- The end of a call: when `v` is the root of a component, the
component is popped. -/
def State.close (v : V) (t : State V) : State V :=
  if t.index v = some (t.lowlink v) then
    { t with
      stack := (popTo v t.stack).2
      onStack := fun u => if u ∈ (popTo v t.stack).1 then false else t.onStack u
      components := t.components ++ [(popTo v t.stack).1] }
  else t

/-- One successor `w` of `v`, with `rec` for the recursive call. -/
def visit (rec : V → State V → Option (State V)) (v : V) (t : State V) (w : V) :
    Option (State V) :=
  match t.index w with
  | none => (rec w t).map fun t => t.lower v (t.lowlink w)
  | some i => some (if t.onStack w then t.lower v i else t)

/-- The search from `v`; `none` when the fuel is used up. -/
def strongConnect (adj : V → List V) : Nat → V → State V → Option (State V)
  | 0, _, _ => none
  | fuel + 1, v, t =>
    ((adj v).foldlM (visit (strongConnect adj fuel) v) (t.enter v)).map (State.close v)

/-- One round of the outer loop. -/
def start (adj : V → List V) (fuel : Nat) (t : State V) (v : V) : Option (State V) :=
  match t.index v with
  | none => strongConnect adj fuel v t
  | some _ => some t

/-- The components found by searching from each vertex of `vs` in
turn. -/
def components (adj : V → List V) (fuel : Nat) (vs : List V) : Option (List (List V)) :=
  (vs.foldlM (start adj fuel) State.new).map State.components

end Algorithm

/-! ### Reachability -/

section Graph

variable {V : Type}

/-- A path along successors. -/
def Reach (adj : V → List V) : V → V → Prop := ReflTransGen fun u w => w ∈ adj u

/-- Two vertices of one strongly connected component. -/
def Linked (adj : V → List V) (u w : V) : Prop := Reach adj u w ∧ Reach adj w u

variable {adj : V → List V}

/-- To be linked is an equivalence. -/
theorem Linked.symm {u w : V} (h : Linked adj u w) : Linked adj w u := ⟨h.2, h.1⟩

/-- Two nodes linked to a third are linked. -/
theorem Linked.trans {u w x : V} (h : Linked adj u w) (h' : Linked adj w x) : Linked adj u x :=
  ⟨ReflTransGen.trans h.1 h'.1, ReflTransGen.trans h'.2 h.2⟩

/-- A set that no arc leaves is left by no path. -/
theorem Reach.mem {P : V → Prop} (hclosed : ∀ u, P u → ∀ w ∈ adj u, P w) {u w : V}
    (h : Reach adj u w) (hu : P u) : P w := by
  induction h with
  | refl => exact hu
  | tail _ harc ih => exact hclosed _ ih _ harc

end Graph

/-! ### The invariant -/

section Invariant

variable {V : Type}

/-- The index of a visited vertex. -/
def State.num (t : State V) (v : V) : Nat := (t.index v).getD 0

variable {t : State V} {v : V}

/-- `num` is the index of a visited node. -/
theorem State.num_of_index {i : Nat} (h : t.index v = some i) :
    t.num v = i := by
  unfold State.num
  rw [h]
  rfl

/-- A visited node has `num` as its index. -/
theorem State.index_of_num (h : t.index v ≠ none) :
    t.index v = some (t.num v) := by
  obtain ⟨i, hi⟩ := Option.ne_none_iff_exists'.mp h
  rw [State.num_of_index hi, hi]

/-- `num` only depends on the index. -/
theorem State.num_congr {t t' : State V} (h : t'.index v = t.index v) :
    t'.num v = t.num v := by
  unfold State.num
  rw [h]

/-- What holds between two steps of the search, with `running` for
the vertices whose calls have not returned. -/
structure Inv (adj : V → List V) (running : Set V) (t : State V) : Prop where
  visited : ∀ v, t.index v ≠ none ↔ v ∈ t.stack ∨ v ∈ t.components.flatten
  nodup : (t.components.flatten ++ t.stack).Nodup
  onStack : ∀ v, t.onStack v = true ↔ v ∈ t.stack
  bound : ∀ v i, t.index v = some i → i < t.counter
  order : t.stack.Pairwise fun upper lower => t.num lower < t.num upper
  path : t.stack.Pairwise fun upper lower => Reach adj lower upper
  onStack_of_running : ∀ v ∈ running, v ∈ t.stack
  toRunning : ∀ v ∈ t.stack, ∃ g ∈ running, t.num g ≤ t.num v ∧ Reach adj v g
  finished : ∀ v, t.index v ≠ none → v ∉ running → ∀ w ∈ adj v, t.index w ≠ none
  closed : ∀ v ∈ t.components.flatten, ∀ w ∈ adj v, w ∈ t.components.flatten
  component : ∀ C ∈ t.components, C ≠ [] ∧ ∀ u ∈ C, ∀ w, w ∈ C ↔ Linked adj u w

/-- Nothing is visited and no call is running. -/
theorem inv_new (adj : V → List V) : Inv adj ∅ (State.new : State V) where
  visited v := iff_of_false (fun hne => hne rfl) (by simp [State.new])
  nodup := List.nodup_nil
  onStack v := iff_of_false Bool.false_ne_true List.not_mem_nil
  bound := nofun
  order := List.Pairwise.nil
  path := List.Pairwise.nil
  onStack_of_running := nofun
  toRunning := nofun
  finished v hv := absurd rfl hv
  closed := nofun
  component := nofun

namespace Inv

variable {adj : V → List V} {running : Set V} {t : State V} (h : Inv adj running t)
include h

variable {v : V}

/-- What is on the stack was visited. -/
theorem index_of_mem (hv : v ∈ t.stack) : t.index v ≠ none :=
  (h.visited v).mpr (Or.inl hv)

/-- Its number was given out. -/
theorem num_lt_counter (hv : v ∈ t.stack) : t.num v < t.counter :=
  h.bound v _ (State.index_of_num (h.index_of_mem hv))

/-- A popped vertex is not on the stack. -/
theorem not_mem_stack (hv : v ∈ t.components.flatten) : v ∉ t.stack :=
  fun hstack => (List.nodup_append.mp h.nodup).2.2 v hv v hstack rfl

/-- What was not visited is nowhere yet. -/
theorem not_mem_of_unvisited (hv : t.index v = none) :
    v ∉ t.stack ∧ v ∉ t.components.flatten :=
  ⟨fun hmem => (h.visited v).mpr (Or.inl hmem) hv, fun hmem => (h.visited v).mpr (Or.inr hmem) hv⟩

/-- Lowlinks are no part of the invariant. -/
theorem lower [DecidableEq V] (v : V) (low : Nat) : Inv adj running (t.lower v low) := { h with }

/-- Visiting a new vertex that every running call can reach makes
its call a running one. -/
theorem enter [DecidableEq V] (hv : t.index v = none) (hreach : ∀ g ∈ running, Reach adj g v) :
    Inv adj (insert v running) (t.enter v) := by
  obtain ⟨hstack, hpopped⟩ := h.not_mem_of_unvisited hv
  have hindex : ∀ u, u ≠ v → (t.enter v).index u = t.index u := fun u hu =>
    Function.update_of_ne hu _ _
  have hindex_v : (t.enter v).index v = some t.counter := Function.update_self ..
  have hne : ∀ u ∈ t.stack, u ≠ v := fun u hu heq => hstack (heq ▸ hu)
  have hnum : ∀ u ∈ t.stack, (t.enter v).num u = t.num u := fun u hu =>
    State.num_congr (hindex u (hne u hu))
  have hold : ∀ u, t.index u ≠ none → (t.enter v).index u ≠ none := by
    intro u hu
    rw [hindex u (fun heq => hu (heq ▸ hv))]
    exact hu
  exact
    { visited := by
        intro u
        show _ ↔ u ∈ v :: t.stack ∨ _
        by_cases hu : u = v
        · simp [hu, hindex_v]
        · rw [hindex u hu, h.visited u, List.mem_cons, or_iff_right hu]
          rfl
      nodup := by
        show (t.components.flatten ++ v :: t.stack).Nodup
        rw [List.nodup_middle, List.nodup_cons, List.mem_append]
        exact ⟨fun hmem => hmem.elim hpopped hstack, h.nodup⟩
      onStack := by
        intro u
        show update t.onStack v true u = true ↔ u ∈ v :: t.stack
        by_cases hu : u = v <;> simp [hu, h.onStack]
      bound := by
        intro u i hi
        show i < t.counter + 1
        by_cases hu : u = v
        · rw [hu, hindex_v] at hi
          have hcounter := Option.some.inj hi
          omega
        · exact (h.bound u i (hindex u hu ▸ hi)).trans (Nat.lt_succ_self _)
      order := by
        refine List.pairwise_cons.mpr ⟨?_, ?_⟩
        · intro u hu
          rw [hnum u hu, State.num_of_index hindex_v]
          exact h.num_lt_counter hu
        · refine h.order.imp_of_mem ?_
          intro upper lower hupper hlower hlt
          rw [hnum upper hupper, hnum lower hlower]
          exact hlt
      path := by
        -- whatever is on the stack reaches a running call, and from there `v`
        refine List.pairwise_cons.mpr ⟨?_, h.path⟩
        intro u hu
        obtain ⟨g, hg, -, hug⟩ := h.toRunning u hu
        exact ReflTransGen.trans hug (hreach g hg)
      onStack_of_running := by
        rintro u (rfl | hu)
        · exact List.mem_cons_self
        · exact List.mem_cons_of_mem _ (h.onStack_of_running u hu)
      toRunning := by
        intro u hu
        rcases List.mem_cons.mp hu with rfl | hu
        · exact ⟨u, Set.mem_insert u running, le_rfl, ReflTransGen.refl⟩
        · obtain ⟨g, hg, hle, hug⟩ := h.toRunning u hu
          refine ⟨g, Set.mem_insert_of_mem v hg, ?_, hug⟩
          rw [hnum g (h.onStack_of_running g hg), hnum u hu]
          exact hle
      finished := by
        intro u hu hrunning w hw
        have huv : u ≠ v := fun heq => hrunning (heq ▸ Set.mem_insert v running)
        rw [hindex u huv] at hu
        exact hold w (h.finished u hu (fun hmem => hrunning (Set.mem_insert_of_mem v hmem)) w hw)
      closed := h.closed
      component := h.component }

end Inv

end Invariant

/-! ### One call -/

section Call

variable {V : Type}

/-- What a call from `v` in the state `t` leaves for its caller in
`t'`. The vertices of `top` are the ones it left on the stack.
Either there are none, or the lowlink of `v` is the index of a
vertex further down that `v` can reach; and every arc from `top` to
the stack of `t` is accounted for in it. -/
structure Call (adj : V → List V) (running : Set V) (v : V) (t : State V) (top : List V)
    (t' : State V) : Prop where
  inv : Inv adj running t'
  stack : t'.stack = top ++ t.stack
  index : ∀ u, t.index u ≠ none → t'.index u = t.index u
  lowlink : ∀ u, t.index u ≠ none → t'.lowlink u = t.lowlink u
  fresh : ∀ u ∈ top, t.index u = none
  visited : t'.index v ≠ none
  low_le : ∀ u ∈ top, ∀ w ∈ adj u, w ∈ t.stack → t'.lowlink v ≤ t.num w
  low_mem : (top = [] ∧ t.counter ≤ t'.lowlink v) ∨
    ∃ w ∈ t.stack, t.num w = t'.lowlink v ∧ Reach adj v w

/-- Inside a call from `v` that began in the state `t₀`, with the
successors in `done` already seen. `low` is what the lowlink of `v`
has to be lowered to. -/
structure Frame (adj : V → List V) (running : Set V) (v : V) (t₀ : State V) (top done : List V)
    (low : Nat) (t : State V) : Prop where
  inv : Inv adj (insert v running) t
  stack : t.stack = top ++ v :: t₀.stack
  unvisited : t₀.index v = none
  index_self : t.index v = some t₀.counter
  index : ∀ u, t₀.index u ≠ none → t.index u = t₀.index u
  lowlink : ∀ u, t₀.index u ≠ none → t.lowlink u = t₀.lowlink u
  fresh : ∀ u ∈ top, t₀.index u = none
  visited : ∀ w ∈ done, t.index w ≠ none
  low_le : ∀ u ∈ top, ∀ w ∈ adj u, w ∈ t₀.stack → low ≤ t.num w
  low_le_done : ∀ w ∈ done, w ∈ t₀.stack → low ≤ t.num w
  low_mem : ∃ w ∈ v :: t₀.stack, t.num w = low ∧ Reach adj v w

variable {adj : V → List V} {running : Set V} {v : V} {t₀ t : State V} {top done : List V}
  {low : Nat}

namespace Frame

variable (h : Frame adj running v t₀ top done low t)
include h

variable {w : V}

/-- The old stack and the running node stay on the stack. -/
theorem mem_stack (hw : w ∈ v :: t₀.stack) : w ∈ t.stack := by
  rw [h.stack]
  exact List.mem_append_right _ hw

/-- In particular the old stack does. -/
theorem mem_stack_of_old (hw : w ∈ t₀.stack) : w ∈ t.stack :=
  h.mem_stack (List.mem_cons_of_mem _ hw)

/-- What a call has pushed after its own vertex has greater indexes
than what it has not. -/
theorem num_lt_of_top {u w : V} (hu : u ∈ top) (hw : w ∈ v :: t₀.stack) : t.num w < t.num u := by
  have horder := h.inv.order
  rw [h.stack, List.pairwise_append] at horder
  exact horder.2.2 u hu w hw

/-- What was there before the call has smaller indexes. -/
theorem num_lt_of_old (hw : w ∈ t₀.stack) : t.num w < t.num v := by
  have horder := h.inv.order
  rw [h.stack, List.pairwise_append, List.pairwise_cons] at horder
  exact horder.2.1.1 w hw

/-- A low value is at most the number of its own node. -/
theorem low_le_self : low ≤ t.num v := by
  obtain ⟨w, hw, rfl, -⟩ := h.low_mem
  rcases List.mem_cons.mp hw with rfl | hw
  · exact le_rfl
  · exact (h.num_lt_of_old hw).le

/-- A smaller value for `low`, if it is the index of a vertex on the
stack that `v` can reach. -/
theorem low_mem_min {low' : Nat}
    (hlow : low' < low → ∃ w ∈ t.stack, t.num w = low' ∧ Reach adj v w) :
    ∃ w ∈ v :: t₀.stack, t.num w = min low' low ∧ Reach adj v w := by
  by_cases hlt : low' < low
  · obtain ⟨w, hw, hnum, hreach⟩ := hlow hlt
    rw [min_eq_left hlt.le]
    refine ⟨w, ?_, hnum, hreach⟩
    rw [h.stack, List.mem_append] at hw
    refine hw.resolve_left fun htop => ?_
    -- the vertices above `v` have greater indexes than `v`
    have hgt := h.num_lt_of_top htop List.mem_cons_self
    have hle := h.low_le_self
    omega
  · rw [min_eq_right (Nat.le_of_not_lt hlt)]
    exact h.low_mem

/-- A successor that was popped before. -/
theorem visit_popped (hvisited : t.index w ≠ none) (hstack : w ∉ t.stack) :
    Frame adj running v t₀ top (done ++ [w]) low t where
  __ := h
  visited := List.forall_mem_append.mpr ⟨h.visited, List.forall_mem_singleton.mpr hvisited⟩
  low_le_done := List.forall_mem_append.mpr ⟨h.low_le_done,
    List.forall_mem_singleton.mpr fun hold => absurd (h.mem_stack_of_old hold) hstack⟩

/-- A successor on the stack: its index is one of the candidates for
the lowlink. -/
theorem visit_stack (harc : w ∈ adj v) (hstack : w ∈ t.stack) :
    Frame adj running v t₀ top (done ++ [w]) (min (t.num w) low) t where
  __ := h
  visited := List.forall_mem_append.mpr
    ⟨h.visited, List.forall_mem_singleton.mpr (h.inv.index_of_mem hstack)⟩
  low_le u hu x hx hold := (min_le_right _ _).trans (h.low_le u hu x hx hold)
  low_le_done := List.forall_mem_append.mpr
    ⟨fun x hx hold => (min_le_right _ _).trans (h.low_le_done x hx hold),
      List.forall_mem_singleton.mpr fun _ => min_le_left _ _⟩
  low_mem := h.low_mem_min fun _ => ⟨w, hstack, rfl, ReflTransGen.single harc⟩

/-- A new successor: its call has accounted for the arcs of what it
left on the stack. -/
theorem visit_new {t' : State V} {top' : List V} (harc : w ∈ adj v) (hw : t.index w = none)
    (hcall : Call adj (insert v running) w t top' t') :
    Frame adj running v t₀ (top' ++ top) (done ++ [w]) (min (t'.lowlink w) low) t' := by
  have hnum : ∀ x ∈ t.stack, t'.num x = t.num x := fun x hx =>
    State.num_congr (hcall.index x (h.inv.index_of_mem hx))
  have hvisited : ∀ u, t₀.index u ≠ none → t.index u ≠ none := by
    intro u hu
    rw [h.index u hu]
    exact hu
  have hlow : t'.lowlink w < low → ∃ x ∈ t.stack, t.num x = t'.lowlink w ∧ Reach adj v x := by
    intro hlt
    rcases hcall.low_mem with ⟨-, hle⟩ | ⟨x, hx, hnum', hreach⟩
    · -- a component that was popped has indexes beyond that of `v`
      have hself := h.inv.num_lt_counter (h.mem_stack List.mem_cons_self)
      have hle' := h.low_le_self
      omega
    · exact ⟨x, hx, hnum', ReflTransGen.head harc hreach⟩
  exact
    { inv := hcall.inv
      stack := by rw [hcall.stack, h.stack, List.append_assoc]
      unvisited := h.unvisited
      index_self := by
        rw [hcall.index v (h.inv.index_of_mem (h.mem_stack List.mem_cons_self))]
        exact h.index_self
      index := fun u hu => (hcall.index u (hvisited u hu)).trans (h.index u hu)
      lowlink := fun u hu => (hcall.lowlink u (hvisited u hu)).trans (h.lowlink u hu)
      fresh := List.forall_mem_append.mpr
        ⟨fun u hu => not_not.mp fun hold => hvisited u hold (hcall.fresh u hu), h.fresh⟩
      visited := List.forall_mem_append.mpr
        ⟨fun x hx => (hcall.index x (h.visited x hx)).symm ▸ h.visited x hx,
          List.forall_mem_singleton.mpr hcall.visited⟩
      low_le := by
        intro u hu x hx hold
        rw [hnum x (h.mem_stack_of_old hold)]
        rcases List.mem_append.mp hu with hu | hu
        · exact (min_le_left _ _).trans (hcall.low_le u hu x hx (h.mem_stack_of_old hold))
        · exact (min_le_right _ _).trans (h.low_le u hu x hx hold)
      low_le_done := by
        intro x hx hold
        rw [hnum x (h.mem_stack_of_old hold)]
        rcases List.mem_append.mp hx with hx | hx
        · exact (min_le_right _ _).trans (h.low_le_done x hx hold)
        · rw [List.mem_singleton.mp hx] at hold
          exact absurd hw (h.inv.index_of_mem (h.mem_stack_of_old hold))
      low_mem := by
        obtain ⟨x, hx, hnum', hreach⟩ := h.low_mem_min hlow
        exact ⟨x, hx, (hnum x (h.mem_stack hx)).trans hnum', hreach⟩ }

end Frame

variable [DecidableEq V]

/-- Lowering takes the minimum. -/
theorem lowlink_lower_self (k : Nat) : (t.lower v k).lowlink v = min k (t.lowlink v) := by
  show (if k < t.lowlink v then update t.lowlink v k else t.lowlink) v = _
  by_cases h : k < t.lowlink v
  · rw [if_pos h, Function.update_self, min_eq_left h.le]
  · rw [if_neg h, min_eq_right (Nat.le_of_not_lt h)]

/-- It touches one node. -/
theorem lowlink_lower_of_ne {u : V} (hu : u ≠ v) (k : Nat) :
    (t.lower v k).lowlink u = t.lowlink u := by
  show (if k < t.lowlink v then update t.lowlink v k else t.lowlink) u = _
  by_cases h : k < t.lowlink v
  · rw [if_pos h, Function.update_of_ne hu]
  · rw [if_neg h]

/-- The first thing a call does is to visit its vertex. -/
theorem frame_enter (h : Inv adj running t) (hv : t.index v = none)
    (hreach : ∀ g ∈ running, Reach adj g v) :
    Frame adj running v t [] [] t.counter (t.enter v) := by
  have hne : ∀ u, t.index u ≠ none → u ≠ v := fun u hu heq => hu (heq ▸ hv)
  have hself : (t.enter v).index v = some t.counter := Function.update_self ..
  exact
    { inv := h.enter hv hreach
      stack := rfl
      unvisited := hv
      index_self := hself
      index := fun u hu => Function.update_of_ne (hne u hu) _ _
      lowlink := fun u hu => Function.update_of_ne (hne u hu) _ _
      fresh := nofun
      visited := nofun
      low_le := nofun
      low_le_done := nofun
      low_mem := ⟨v, List.mem_cons_self, State.num_of_index hself, ReflTransGen.refl⟩ }

/-- Writing the lowlink of `v` changes nothing that the frame speaks
of. -/
theorem Frame.lower (h : Frame adj running v t₀ top done low t) (k : Nat) :
    Frame adj running v t₀ top done low (t.lower v k) where
  __ := h
  inv := h.inv.lower v k
  lowlink u hu := by
    have hne : u ≠ v := fun heq => hu (heq ▸ h.unvisited)
    rw [lowlink_lower_of_ne hne]
    exact h.lowlink u hu

end Call

/-! ### The end of a call -/

section Close

variable {V : Type} {adj : V → List V} {running : Set V} {v : V} {t₀ t : State V}
  {top : List V} {low : Nat}

/-- Popping to a node takes what lies above it, and the node. -/
theorem popTo_append [DecidableEq V] {rest : List V} (hv : v ∉ top) :
    popTo v (top ++ v :: rest) = (top ++ [v], rest) := by
  induction top with
  | nil =>
    show (if v = v then _ else _) = _
    rw [if_pos rfl]
    rfl
  | cons u top ih =>
    have hne : u ≠ v := fun heq => hv (heq ▸ List.mem_cons_self)
    rw [List.cons_append, popTo, if_neg hne, ih (fun hmem => hv (List.mem_cons_of_mem _ hmem))]
    rfl

namespace Frame

variable (h : Frame adj running v t₀ top (adj v) low t) (h₀ : Inv adj running t₀)
include h

/-- The running node is not above itself. -/
theorem not_mem_top : v ∉ top := fun hmem =>
  absurd (h.num_lt_of_top hmem List.mem_cons_self) (Nat.lt_irrefl _)

/-- A number once given stays. -/
theorem num_of_old {w : V} (hw : t₀.index w ≠ none) : t.num w = t₀.num w :=
  State.num_congr (h.index w hw)

variable {u : V}

/-- The component that a root pops. -/
theorem mem_stack_iff : u ∈ t.stack ↔ u ∈ top ++ [v] ∨ u ∈ t₀.stack := by
  rw [h.stack, show top ++ v :: t₀.stack = (top ++ [v]) ++ t₀.stack by simp, List.mem_append]

/-- The arcs to what was there before the call are accounted for. -/
theorem low_le_of_mem {u w : V} (hu : u ∈ top ++ [v]) (hw : w ∈ adj u) (hold : w ∈ t₀.stack) :
    low ≤ t.num w := by
  rcases List.mem_append.mp hu with htop | hself
  · exact h.low_le u htop w hw hold
  · rw [List.mem_singleton.mp hself] at hw
    exact h.low_le_done w hw hold

/-- A node that is visited and not running has only visited
successors. -/
theorem finished_of_close (hu : t.index u ≠ none) (hrunning : u ∉ running) :
    ∀ w ∈ adj u, t.index w ≠ none := by
  by_cases huv : u = v
  · subst huv
    exact h.visited
  · refine h.inv.finished u hu fun hmem => ?_
    exact hmem.elim huv hrunning

include h₀

/-- The new part of the stack and the old one have no node in
common. -/
theorem not_mem_old (hu : u ∈ top ++ [v]) : u ∉ t₀.stack := by
  intro hold
  rcases List.mem_append.mp hu with htop | hself
  · exact h₀.index_of_mem hold (h.fresh u htop)
  · rw [List.mem_singleton.mp hself] at hold
    exact h₀.index_of_mem hold h.unvisited

/-- When the call ends, every vertex that it has pushed has visited
successors only. -/
theorem visited_of_mem {u w : V} (hu : u ∈ top ++ [v]) (hw : w ∈ adj u) : t.index w ≠ none := by
  by_cases huv : u = v
  · subst huv
    exact h.visited w hw
  · refine h.inv.finished u (h.inv.index_of_mem (h.mem_stack_iff.mpr (Or.inl hu))) ?_ w hw
    intro hmem
    rcases hmem with heq | hrunning
    · exact huv heq
    · exact h.not_mem_old h₀ hu (h₀.onStack_of_running u hrunning)

/-- From the component of a root, arcs lead to itself and to
components popped before. -/
theorem mem_of_arc (hroot : low = t.num v) {u w : V} (hu : u ∈ top ++ [v]) (hw : w ∈ adj u) :
    w ∈ top ++ [v] ∨ w ∈ t.components.flatten := by
  rcases (h.inv.visited w).mp (h.visited_of_mem h₀ hu hw) with hstack | hpopped
  · refine Or.inl ((h.mem_stack_iff.mp hstack).resolve_right fun hold => ?_)
    have hle := h.low_le_of_mem hu hw hold
    have hlt := h.num_lt_of_old hold
    omega
  · exact Or.inr hpopped

/-- From a root, one does not get out of the new part of the stack
except into components that are closed already. Induction on the
path: the last node on the stack has its successors above the root,
because no low value leads below it. -/
theorem mem_of_reach (hroot : low = t.num v) {u w : V} (hu : u ∈ top ++ [v])
    (hreach : Reach adj u w) : w ∈ top ++ [v] ∨ w ∈ t.components.flatten := by
  refine hreach.mem (P := fun x => x ∈ top ++ [v] ∨ x ∈ t.components.flatten) ?_ (Or.inl hu)
  rintro x (hx | hx) y hy
  · exact h.mem_of_arc h₀ hroot hx hy
  · exact Or.inr (h.inv.closed x hx y hy)

/-- Every vertex above a root is reached from it and reaches it. -/
theorem linked_root (hroot : low = t.num v) (hu : u ∈ top ++ [v]) : Linked adj v u := by
  have hstack : ∀ x ∈ top ++ [v], x ∈ t.stack := fun x hx => h.mem_stack_iff.mpr (Or.inl hx)
  constructor
  · rcases List.mem_append.mp hu with htop | hself
    · have hpath := h.inv.path
      rw [h.stack, List.pairwise_append] at hpath
      exact hpath.2.2 u htop v List.mem_cons_self
    · rw [List.mem_singleton.mp hself]
      exact ReflTransGen.refl
  · -- it reaches a running call, and by the arcs above this can only be that of the root
    obtain ⟨g, hg, -, hreach⟩ := h.inv.toRunning u (hstack u hu)
    have hgstack := h.inv.onStack_of_running g hg
    have hgtop : g ∈ top ++ [v] := (h.mem_of_reach h₀ hroot hu hreach).resolve_right
      fun hpopped => h.inv.not_mem_stack hpopped hgstack
    rcases hg with rfl | hrunning
    · exact hreach
    · exact absurd (h₀.onStack_of_running g hrunning) (h.not_mem_old h₀ hgtop)

/-- What a root pops is a strongly connected component. -/
theorem component_root (hroot : low = t.num v) (hu : u ∈ top ++ [v]) (w : V) :
    w ∈ top ++ [v] ↔ Linked adj u w := by
  constructor
  · intro hw
    exact (h.linked_root h₀ hroot hu).symm.trans (h.linked_root h₀ hroot hw)
  · intro hlinked
    refine (h.mem_of_reach h₀ hroot hu hlinked.1).resolve_right fun hpopped => ?_
    -- nothing leads back from a component that was popped before
    have hback : u ∈ t.components.flatten := hlinked.2.mem h.inv.closed hpopped
    exact h.inv.not_mem_stack hback (h.mem_stack_iff.mpr (Or.inl hu))

/-- The stack below a root is as it was when the call began. -/
theorem toRunning_old {w : V} (hw : w ∈ t₀.stack) :
    ∃ g ∈ running, t.num g ≤ t.num w ∧ Reach adj w g := by
  obtain ⟨g, hg, hle, hreach⟩ := h₀.toRunning w hw
  refine ⟨g, hg, ?_, hreach⟩
  rw [h.num_of_old (h₀.index_of_mem (h₀.onStack_of_running g hg)),
    h.num_of_old (h₀.index_of_mem hw)]
  exact hle

/-- A root pops its component, and the caller finds the stack as it
was. -/
theorem close_root [DecidableEq V] (hlow : t.lowlink v = low) (hroot : low = t.num v) :
    Call adj running v t₀ [] (t.close v) := by
  have hpop : popTo v t.stack = (top ++ [v], t₀.stack) := by
    rw [h.stack]
    exact popTo_append h.not_mem_top
  have hclose : t.close v =
      { t with
        stack := t₀.stack
        onStack := fun u => if u ∈ top ++ [v] then false else t.onStack u
        components := t.components ++ [top ++ [v]] } := by
    have hindex : t.index v = some (t.lowlink v) := by
      rw [hlow, hroot]
      exact State.index_of_num (h.inv.index_of_mem (h.mem_stack List.mem_cons_self))
    unfold State.close
    rw [if_pos hindex, hpop]
  have hflatten :
      (t.components ++ [top ++ [v]]).flatten = t.components.flatten ++ (top ++ [v]) := by
    rw [List.flatten_append, List.flatten_singleton]
  have horder := h.inv.order
  have hpath := h.inv.path
  rw [h.stack, List.pairwise_append, List.pairwise_cons] at horder hpath
  rw [hclose]
  exact
    { inv :=
        { visited := by
            intro u
            show t.index u ≠ none ↔ u ∈ t₀.stack ∨ u ∈ (t.components ++ [top ++ [v]]).flatten
            rw [h.inv.visited u, h.mem_stack_iff, hflatten,
              List.mem_append (s := t.components.flatten)]
            tauto
          nodup := by
            show ((t.components ++ [top ++ [v]]).flatten ++ t₀.stack).Nodup
            have hnodup := h.inv.nodup
            rw [h.stack] at hnodup
            simpa using hnodup
          onStack := by
            intro u
            show (if u ∈ top ++ [v] then false else t.onStack u) = true ↔ u ∈ t₀.stack
            by_cases hu : u ∈ top ++ [v]
            · rw [if_pos hu]
              exact iff_of_false Bool.false_ne_true (h.not_mem_old h₀ hu)
            · rw [if_neg hu, h.inv.onStack u, h.mem_stack_iff]
              exact or_iff_right hu
          bound := h.inv.bound
          order := horder.2.1.2
          path := hpath.2.1.2
          onStack_of_running := h₀.onStack_of_running
          toRunning := fun w hw => h.toRunning_old h₀ hw
          finished := fun u hu hrunning => h.finished_of_close hu hrunning
          closed := by
            intro u hu w hw
            change u ∈ (t.components ++ [top ++ [v]]).flatten at hu
            show w ∈ (t.components ++ [top ++ [v]]).flatten
            rw [hflatten, List.mem_append] at hu ⊢
            rcases hu with hu | hu
            · exact Or.inl (h.inv.closed u hu w hw)
            · exact (h.mem_of_arc h₀ hroot hu hw).symm
          component := by
            intro C hC
            rcases List.mem_append.mp hC with hC | hC
            · exact h.inv.component C hC
            · rw [List.mem_singleton.mp hC]
              exact ⟨List.append_ne_nil_of_right_ne_nil _ (List.cons_ne_nil _ _),
                fun u hu w => h.component_root h₀ hroot hu w⟩ }
      stack := rfl
      index := h.index
      lowlink := h.lowlink
      fresh := nofun
      visited := h.inv.index_of_mem (h.mem_stack List.mem_cons_self)
      low_le := nofun
      low_mem := by
        refine Or.inl ⟨rfl, ?_⟩
        show t₀.counter ≤ t.lowlink v
        rw [hlow, hroot, State.num_of_index h.index_self] }

/-- A vertex that is not a root stays on the stack: it reaches a
vertex further down, and from there a call that is still running. -/
theorem close_inner [DecidableEq V] (hlow : t.lowlink v = low) (hroot : low ≠ t.num v) :
    Call adj running v t₀ (top ++ [v]) (t.close v) := by
  have hself := h.inv.index_of_mem (h.mem_stack List.mem_cons_self)
  have hclose : t.close v = t := by
    refine if_neg fun hindex => hroot ?_
    rw [← hlow]
    exact (State.num_of_index hindex).symm
  obtain ⟨x, hx, hxnum, hvx⟩ := h.low_mem
  have hxold : x ∈ t₀.stack := by
    rcases List.mem_cons.mp hx with rfl | hx
    · exact absurd hxnum.symm hroot
    · exact hx
  rw [hclose]
  exact
    { inv :=
        { h.inv with
          onStack_of_running := fun g hg => h.mem_stack_of_old (h₀.onStack_of_running g hg)
          toRunning := by
            intro u hu
            obtain ⟨g, hg, hle, hreach⟩ := h.inv.toRunning u hu
            rcases hg with rfl | hrunning
            · obtain ⟨g', hg', hle', hreach'⟩ := h.toRunning_old h₀ hxold
              refine ⟨g', hg', ?_, hreach.trans (hvx.trans hreach')⟩
              have hlt := h.num_lt_of_old hxold
              omega
            · exact ⟨g, hrunning, hle, hreach⟩
          finished := fun u hu hrunning => h.finished_of_close hu hrunning }
      stack := by rw [h.stack, List.append_assoc]; rfl
      index := h.index
      lowlink := h.lowlink
      fresh := List.forall_mem_append.mpr ⟨h.fresh, List.forall_mem_singleton.mpr h.unvisited⟩
      visited := hself
      low_le := by
        intro u hu w hw hold
        rw [hlow, ← h.num_of_old (h₀.index_of_mem hold)]
        exact h.low_le_of_mem hu hw hold
      low_mem := by
        refine Or.inr ⟨x, hxold, ?_, hvx⟩
        rw [hlow, ← hxnum, h.num_of_old (h₀.index_of_mem hxold)] }

end Frame

end Close

/-! ### The search -/

section Search

variable {V : Type} [Fintype V]

/-- The number of vertices that were not visited, which bounds the
depth of the recursion. -/
def State.unvisited (t : State V) : Nat := (Finset.univ.filter fun v => t.index v = none).card

/-- Visiting makes fewer nodes unvisited. -/
theorem unvisited_le {t t' : State V} (h : ∀ u, t.index u ≠ none → t'.index u ≠ none) :
    t'.unvisited ≤ t.unvisited := by
  refine Finset.card_le_card fun u hu => ?_
  rw [Finset.mem_filter] at hu ⊢
  refine ⟨hu.1, ?_⟩
  by_contra hvisited
  exact h u hvisited hu.2

variable [DecidableEq V] {adj : V → List V} {t : State V}

/-- Entering a node makes one less unvisited, which is why the
recursion ends. -/
theorem unvisited_enter_lt {v : V} (hv : t.index v = none) :
    (t.enter v).unvisited < t.unvisited := by
  have herase : (Finset.univ.filter fun u => (t.enter v).index u = none)
      = (Finset.univ.filter fun u => t.index u = none).erase v := by
    ext u
    simp only [Finset.mem_erase, Finset.mem_filter, Finset.mem_univ, true_and]
    by_cases hu : u = v <;> simp [hu, State.enter]
  unfold State.unvisited
  rw [herase]
  exact Finset.card_erase_lt_of_mem (by simp [hv])

/-- What is to be shown of a call with enough fuel: it returns, and
keeps its contract. -/
def Correct (adj : V → List V) (fuel : Nat) (rec : V → State V → Option (State V)) : Prop :=
  ∀ (running : Set V) (v : V) (t : State V), t.unvisited ≤ fuel → Inv adj running t →
    t.index v = none → (∀ g ∈ running, Reach adj g v) →
    ∃ top t', rec v t = some t' ∧ Call adj running v t top t'

variable {running : Set V} {v : V} {t₀ t : State V} {top done : List V} {low fuel : Nat}
  {rec : V → State V → Option (State V)}

/-- One successor. -/
theorem Frame.visit (h : Frame adj running v t₀ top done low t) (hrec : Correct adj fuel rec)
    (hreach : ∀ g ∈ running, Reach adj g v) (hlow : t.lowlink v = low)
    (hfuel : t.unvisited ≤ fuel) {w : V} (harc : w ∈ adj v) :
    ∃ top' low' t', Tarjan.visit rec v t w = some t' ∧
      Frame adj running v t₀ top' (done ++ [w]) low' t' ∧ t'.lowlink v = low' ∧
      t'.unvisited ≤ fuel := by
  unfold Tarjan.visit
  cases hw : t.index w with
  | none =>
    have hreach' : ∀ g ∈ insert v running, Reach adj g w := by
      rintro g (rfl | hg)
      · exact ReflTransGen.single harc
      · exact (hreach g hg).tail harc
    obtain ⟨top', t', hcall, hspec⟩ := hrec (insert v running) w t hfuel h.inv hw hreach'
    refine ⟨_, _, t'.lower v (t'.lowlink w), ?_, (h.visit_new harc hw hspec).lower _, ?_, ?_⟩
    · show (rec w t).map _ = _
      rw [hcall]
      rfl
    · rw [lowlink_lower_self, hspec.lowlink v
        (h.inv.index_of_mem (h.mem_stack List.mem_cons_self)), hlow]
    · refine (unvisited_le fun u hu => ?_).trans hfuel
      show t'.index u ≠ none
      rw [hspec.index u hu]
      exact hu
  | some i =>
    have hvisited : t.index w ≠ none := by
      rw [hw]
      exact Option.some_ne_none i
    by_cases hstack : w ∈ t.stack
    · refine ⟨_, _, t.lower v i, ?_, (h.visit_stack harc hstack).lower i, ?_, hfuel⟩
      · show some (if t.onStack w = true then _ else _) = _
        rw [if_pos ((h.inv.onStack w).mpr hstack)]
      · rw [lowlink_lower_self, State.num_of_index hw, hlow]
    · refine ⟨_, _, t, ?_, h.visit_popped hvisited hstack, hlow, hfuel⟩
      show some (if t.onStack w = true then _ else _) = _
      rw [if_neg (fun hon => hstack ((h.inv.onStack w).mp hon))]

/-- All successors. -/
theorem Frame.visitAll (hrec : Correct adj fuel rec) (hreach : ∀ g ∈ running, Reach adj g v)
    (ws : List V) {done : List V} {top : List V} {low : Nat}
    (h : Frame adj running v t₀ top done low t) (hlow : t.lowlink v = low)
    (hfuel : t.unvisited ≤ fuel) (hws : ∀ w ∈ ws, w ∈ adj v) :
    ∃ top' low' t', ws.foldlM (Tarjan.visit rec v) t = some t' ∧
      Frame adj running v t₀ top' (done ++ ws) low' t' ∧ t'.lowlink v = low' := by
  induction ws generalizing done top low t with
  | nil =>
    refine ⟨top, low, t, rfl, ?_, hlow⟩
    rw [List.append_nil]
    exact h
  | cons w ws ih =>
    obtain ⟨top₁, low₁, t₁, hvisit, h₁, hlow₁, hfuel₁⟩ :=
      h.visit hrec hreach hlow hfuel (hws w List.mem_cons_self)
    obtain ⟨top', low', t', hrest, h', hlow'⟩ :=
      ih h₁ hlow₁ hfuel₁ (fun x hx => hws x (List.mem_cons_of_mem _ hx))
    refine ⟨top', low', t', ?_, ?_, hlow'⟩
    · rw [List.foldlM_cons, hvisit]
      exact hrest
    · rw [show done ++ w :: ws = done ++ [w] ++ ws by simp]
      exact h'

/-- A call with as much fuel as there are unvisited vertices keeps
its contract. -/
theorem strongConnect_correct (adj : V → List V) (fuel : Nat) :
    Correct adj fuel (strongConnect adj fuel) := by
  induction fuel with
  | zero =>
    intro running v t hfuel _ hv _
    -- `v` itself is unvisited
    have hlt := unvisited_enter_lt hv
    omega
  | succ fuel ih =>
    intro running v t hfuel hinv hv hreach
    have hlt := unvisited_enter_lt hv
    obtain ⟨top, low, t', hloop, hframe, hlow⟩ :=
      Frame.visitAll ih hreach (adj v) (frame_enter hinv hv hreach)
        (show (t.enter v).lowlink v = t.counter from Function.update_self ..) (by omega)
        (fun w hw => hw)
    have hresult : strongConnect adj (fuel + 1) v t = some (t'.close v) := by
      show Option.map _ (List.foldlM _ _ (adj v)) = _
      rw [hloop]
      rfl
    by_cases hroot : low = t'.num v
    · exact ⟨[], t'.close v, hresult, hframe.close_root hinv hlow hroot⟩
    · exact ⟨top ++ [v], t'.close v, hresult, hframe.close_inner hinv hlow hroot⟩

/-- Between two rounds of the outer loop no call is running. -/
theorem foldlM_start (adj : V → List V) (fuel : Nat) (vs : List V) (h : Inv adj ∅ t)
    (hfuel : t.unvisited ≤ fuel) :
    ∃ t', vs.foldlM (start adj fuel) t = some t' ∧ Inv adj ∅ t' ∧
      (∀ u, t.index u ≠ none → t'.index u ≠ none) ∧ ∀ v ∈ vs, t'.index v ≠ none := by
  induction vs generalizing t with
  | nil => exact ⟨t, rfl, h, fun u hu => hu, nofun⟩
  | cons v vs ih =>
    -- one round visits `v` and forgets nothing
    have hround : ∃ t₁, start adj fuel t v = some t₁ ∧ Inv adj ∅ t₁ ∧ t₁.index v ≠ none ∧
        ∀ u, t.index u ≠ none → t₁.index u ≠ none := by
      unfold start
      cases hv : t.index v with
      | none =>
        obtain ⟨top, t₁, hcall, hspec⟩ := strongConnect_correct adj fuel ∅ v t hfuel h hv
          nofun
        refine ⟨t₁, hcall, hspec.inv, hspec.visited, fun u hu => ?_⟩
        rw [hspec.index u hu]
        exact hu
      | some i => exact ⟨t, rfl, h, by rw [hv]; exact Option.some_ne_none i, fun u hu => hu⟩
    obtain ⟨t₁, hstart, h₁, hv₁, hkept⟩ := hround
    obtain ⟨t', hrest, h', hkept', hvs⟩ := ih h₁ ((unvisited_le hkept).trans hfuel)
    refine ⟨t', ?_, h', fun u hu => hkept' u (hkept u hu), ?_⟩
    · rw [List.foldlM_cons, hstart]
      exact hrest
    · exact List.forall_mem_cons.mpr ⟨hkept' v hv₁, hvs⟩

/-- The search returns, and what it returns is the partition of the
graph into its strongly connected components: every vertex is listed
once, and each list holds all that is linked to any of its members,
and nothing else. -/
theorem components_spec (adj : V → List V) (vs : List V) (hvs : ∀ v, v ∈ vs) :
    ∃ comps, components adj (Fintype.card V) vs = some comps ∧ comps.flatten.Nodup ∧
      (∀ v, v ∈ comps.flatten) ∧
      ∀ C ∈ comps, C ≠ [] ∧ ∀ u ∈ C, ∀ w, w ∈ C ↔ Linked adj u w := by
  obtain ⟨t, hrun, hinv, -, hvisited⟩ := foldlM_start adj (Fintype.card V) vs (inv_new adj)
    (Finset.card_filter_le _ _)
  -- no call is running, so nothing is left on the stack
  have hstack : ∀ v, v ∉ t.stack := by
    intro v hv
    obtain ⟨g, hg, -⟩ := hinv.toRunning v hv
    exact Set.notMem_empty g hg
  refine ⟨t.components, ?_, (List.nodup_append.mp hinv.nodup).1, fun v => ?_, hinv.component⟩
  · unfold components
    rw [hrun]
    rfl
  · exact ((hinv.visited v).mp (hvisited v (hvs v))).resolve_left (hstack v)

end Search

end KubeAtlas.Lib.Tarjan
