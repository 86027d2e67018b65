import KubeAtlas.Graph.Encoding
import KubeAtlas.Graph.Ledger
import KubeAtlas.Proofs.Projection.Noninterference

/-!
# `KubeAtlas.Proofs.Projection.Bound`: the projection budget bounds what is kept

The builder charges for a resource or an edge before it keeps it.
Here the charges are compared with the JSON text of what is kept.

`Pays` describes a method of the builder on machine integers: it
takes its cost from the budget or fails, and in both cases nothing
overflows. The costs are those of the builder without machine
integers, so the two agree on every call (`perform_follows`).
`len_encode_projected_lt` bounds the text of a projected value by
its cost; the induction is over the shape. `Bounded` is the
invariant, and every call keeps it, also one that fails.
-/

set_option autoImplicit false

namespace KubeAtlas.Proofs.Projection

open KubeAtlas.Graph Lib
open Lib.Budget (cost cost_cons cost_nil)
open Lib.Strings (len)
open KubeAtlas.Store

/-! ### Charges on machine integers -/

/-- The budget is in the range of the options, and nothing went
wrong so far. -/
structure Sound (b : Ledger) : Prop where
  nonneg : 0 ≤ b.remaining
  le : b.remaining ≤ 2 ^ 26
  exact : b.overflowed = false
  positive : b.negative = false

variable {b : Ledger}

theorem Sound.left (h : Sound b) {n : Int} (hn : 0 ≤ n) (hle : n ≤ b.remaining) :
    Sound { b with remaining := n } :=
  ⟨hn, hle.trans h.le, h.exact, h.positive⟩

/-- What a method returns, and the builder after it. -/
def after {α : Type} (m : Building α) (b : Ledger) : Except SnapshotError α × Ledger :=
  m.run.run b

variable {α : Type}

@[simp] theorem after_pure (a : α) (b : Ledger) : after (pure a) b = (.ok a, b) := rfl

@[simp] theorem after_get (b : Ledger) : after get b = (.ok b, b) := rfl

@[simp] theorem after_modify (f : Ledger → Ledger) (b : Ledger) :
    after (modify f) b = (.ok (), f b) := rfl

theorem after_bind {α β : Type} (m : Building α) (f : α → Building β) (b : Ledger) :
    after (m >>= f) b = match after m b with
      | (.ok a, b') => after (f a) b'
      | (.error e, b') => (.error e, b') := by
  unfold after
  rw [ExceptT.run_bind, StateT.run_bind]
  generalize m.run.run b = outcome
  obtain ⟨result, b'⟩ := outcome
  cases result <;> rfl

/-- `m` returns `a` and takes `c` from the budget. If `c` does not
fit, then `m` fails, with part of it taken. -/
def Pays {α : Type} (m : Building α) (a : α) (c : Nat) : Prop :=
  ∀ b, Sound b →
    if (c : Int) ≤ b.remaining then after m b = (.ok a, { b with remaining := b.remaining - c })
    else ∃ n, 0 ≤ n ∧ n ≤ b.remaining ∧ after m b = (.error .limit, { b with remaining := n })

theorem Pays.pure (a : α) : Pays (Pure.pure a) a 0 := by
  intro b hb
  rw [if_pos (by exact_mod_cast hb.nonneg), after_pure, Nat.cast_zero, Int.sub_zero]

theorem Pays.bind {α β : Type} {m : Building α} {f : α → Building β} {a : α} {a' : β} {c d : Nat}
    (hm : Pays m a c) (hf : Pays (f a) a' d) : Pays (m >>= f) a' (c + d) := by
  intro b hb
  have hfirst := hm b hb
  rw [after_bind]
  by_cases hc : (c : Int) ≤ b.remaining
  · rw [if_pos hc] at hfirst
    have hrest := hf _ (hb.left (n := b.remaining - c) (by omega) (by omega))
    rw [hfirst]
    simp only at hrest ⊢
    by_cases hd : (d : Int) ≤ b.remaining - c
    · rw [if_pos hd] at hrest
      rw [if_pos (by omega), hrest]
      simp only [Nat.cast_add, Int.sub_sub]
    · rw [if_neg hd] at hrest
      rw [if_neg (by omega)]
      obtain ⟨n, hn, hle, hrest⟩ := hrest
      exact ⟨n, hn, by omega, hrest⟩
  · rw [if_neg hc] at hfirst
    rw [if_neg (by omega)]
    obtain ⟨n, hn, hle, hfirst⟩ := hfirst
    exact ⟨n, hn, hle, by rw [hfirst]⟩

/-- A number of the range of `int` does not wrap around. -/
theorem after_int {x : Int} (hlow : -2 ^ 63 ≤ x) (hhigh : x < 2 ^ 63) (b : Ledger) :
    after (Ledger.int x) b = (.ok x, b) := by
  have hmod : x.bmod (2 ^ 64) = x := Int.bmod_eq_of_le (by omega) (by omega)
  unfold Ledger.int
  rw [hmod, after_bind, after_modify]
  simp

theorem after_spend (hb : Sound b) {amount : Int} (hamount : 0 ≤ amount)
    (hfits : amount ≤ b.remaining) :
    after (Ledger.spend amount) b = (.ok (), { b with remaining := b.remaining - amount }) := by
  have hle := hb.le
  unfold Ledger.spend
  rw [after_bind, after_get]
  simp only
  rw [after_bind, after_int (by omega) (by omega)]
  have hsign : decide (b.remaining - amount < 0) = false := decide_eq_false (by omega)
  simp only [after_modify, hsign, Bool.or_false]

/-- A method that takes an amount before the rest, and fails if
there is not that much. -/
theorem Pays.first {m m' : Building α} {a : α} {c amount : Nat} (hm : Pays m a c)
    (h : ∀ b, Sound b → after m' b = if (amount : Int) ≤ b.remaining then after m { b with
      remaining := b.remaining - amount } else (.error .limit, b)) :
    Pays m' a (amount + c) := by
  intro b hb
  rw [h b hb]
  by_cases hamount : (amount : Int) ≤ b.remaining
  · rw [if_pos hamount]
    have hrest := hm _ (hb.left (n := b.remaining - amount) (by omega) (by omega))
    simp only at hrest
    by_cases hfits : (c : Int) ≤ b.remaining - amount
    · rw [if_pos hfits] at hrest
      rw [if_pos (by omega), hrest]
      simp only [Nat.cast_add, Int.sub_sub]
    · rw [if_neg hfits] at hrest
      rw [if_neg (by omega)]
      obtain ⟨n, hn, hle, hrest⟩ := hrest
      exact ⟨n, hn, by omega, hrest⟩
  · rw [if_neg hamount, if_neg (by omega)]
    exact ⟨b.remaining, hb.nonneg, le_refl _, rfl⟩

theorem chargeFields_pays (fields : List String) :
    Pays (Ledger.chargeFields fields) () (cost 0 fields) := by
  induction fields with
  | nil => exact Pays.pure ()
  | cons field fields ih =>
    rw [cost_cons]
    refine ih.first fun b hb => ?_
    have hle := hb.le
    -- the division rounds down, so the product is what is compared
    have hdiv : b.remaining.tdiv 6 = b.remaining / 6 := Int.tdiv_eq_ediv_of_nonneg hb.nonneg
    rw [Ledger.chargeFields, after_bind, after_get]
    simp only [hdiv]
    split_ifs with hbig hfits hfits
    · omega
    · rfl
    · rw [after_bind, after_int (by omega) (by omega)]
      simp only
      rw [after_bind, after_spend hb (by omega) (by omega), Nat.cast_mul, Int.mul_comm]
      rfl
    · omega

/-- A charge takes its cost. -/
theorem charge_pays (overhead : Nat) (fields : List String) :
    Pays (Ledger.charge overhead fields) () (cost overhead fields) := by
  have hcost : cost overhead fields = overhead + cost 0 fields := by
    simp [cost]
  rw [hcost]
  refine (chargeFields_pays fields).first fun b hb => ?_
  rw [Ledger.charge, after_bind, after_get]
  simp only
  split_ifs with hbig hfits hfits
  · omega
  · rfl
  · rw [after_bind, after_spend hb (by omega) (by omega)]
  · omega

/-! ### Projections -/

theorem Pays.map {α β : Type} {m : Building α} {a : α} {c : Nat} (h : Pays m a c) (f : α → β) :
    Pays (m >>= fun x => Pure.pure (f x)) (f a) c := by
  have hbind := h.bind (f := fun x => Pure.pure (f x)) (Pays.pure (f a))
  rwa [Nat.add_zero] at hbind

theorem Pays.mapM {project : Json → Building Json} {copy : Json → Json} {bytes : Json → Nat}
    (h : ∀ v, Pays (project v) (copy v) (bytes v)) (items : List Json) :
    Pays (items.mapM project) (items.map copy) (items.map bytes).sum := by
  induction items with
  | nil => exact Pays.pure []
  | cons item items ih =>
    rw [List.mapM_cons]
    exact (h item).bind (ih.map _)

mutual

/-- The projection on machine integers returns the same value, for
the same cost. -/
theorem projectImpactValue_pays : ∀ (shape : ImpactFieldShape) (value : Json),
    Pays (Ledger.projectImpactValue shape value) (projected shape value)
      (projectionCost shape value)
  | .string, value => by
    refine (charge_pays 32 []).bind ?_
    cases value with
    | str text => exact (charge_pays 0 [text]).map _
    | _ => exact Pays.pure Json.null
  | .presenceString, value => by
    unfold Ledger.projectImpactValue projected projectionCost
    refine (charge_pays 32 []).bind ?_
    cases value with
    | str text =>
      by_cases htext : text = ""
      · simp only [htext, if_true]
        exact Pays.pure (Json.str "")
      · simp only [htext, if_false]
        exact (charge_pays 0 _).map _
    | _ => exact Pays.pure Json.null
  | .boolean, value => by
    -- A flag costs nothing beyond the overhead.
    refine (charge_pays 32 []).bind (d := 0) ?_
    cases value with
    | bool flag => exact Pays.pure (Json.bool flag)
    | _ => exact Pays.pure Json.null
  | .object fields, value => by
    refine (charge_pays 32 []).bind ?_
    cases value with
    | obj object => exact (projectFields_pays fields object).map _
    | _ => exact Pays.pure Json.null
  | .array element, value => by
    refine (charge_pays 32 []).bind ?_
    cases value with
    | arr items => exact (Pays.mapM (projectImpactValue_pays element) items).map _
    | _ => exact Pays.pure Json.null

theorem projectFields_pays : ∀ (fields : List ImpactProjectionField) (object : Object),
    Pays (Ledger.projectFields fields object) (projectedFields fields object)
      (fieldsCost fields object)
  | [], _ => Pays.pure []
  | field :: fields, object => by
    exact (projectField_pays field object).bind ((projectFields_pays fields object).map _)

theorem projectField_pays : ∀ (field : ImpactProjectionField) (object : Object),
    Pays (Ledger.projectField field object) (projectedField field object)
      (fieldCost field object)
  | .mk name shape, object => by
    unfold Ledger.projectField projectedField fieldCost
    cases object.lookup name with
    | none => exact Pays.pure []
    | some entry => exact (charge_pays 8 [name]).bind ((projectImpactValue_pays shape entry).map _)

end

theorem projectReferenceFields_pays (r : Resource) :
    Pays (Ledger.projectReferenceFields r) (projectedRaw r) (rawCost r) := by
  unfold Ledger.projectReferenceFields projectedRaw rawCost
  cases impactReferenceShape r.kind r.groupVersion with
  | none => exact Pays.pure none
  | some shape =>
    cases r.raw with
    | none => exact Pays.pure none
    | some raw =>
      simp only
      split
      · exact Pays.pure none
      · refine Pays.bind (d := 0) (projectImpactValue_pays shape (.obj raw)) ?_
        -- only an object with a member is kept
        cases projected shape (.obj raw) with
        | obj members =>
          cases members with
          | nil => exact Pays.pure none
          | cons m ms => exact Pays.pure _
        | _ => exact Pays.pure none

theorem chargeOwners_pays (owners : List OwnerRef) :
    Pays (Ledger.chargeOwners owners) ()
      (owners.map fun owner => cost 64 [owner.kind, owner.name, owner.uid]).sum := by
  induction owners with
  | nil => exact Pays.pure ()
  | cons owner owners ih => exact (charge_pays 64 _).bind ih

theorem projectResource_pays (r : Resource) :
    Pays (Ledger.projectResource r) (projectedResource r) (resourceCost r) := by
  refine (charge_pays 512 _).bind ((chargeOwners_pays _).bind ?_)
  exact (projectReferenceFields_pays r).map _

/-! ### Calls -/

/-- The builder without machine integers. -/
def builder (b : Ledger) : ImpactProjectionBuilder := ⟨b.graph, b.opts, b.remaining.toNat⟩

/-- The call on the builder without machine integers. -/
def stepOf (b : ImpactProjectionBuilder) :
    BuilderCall → Except SnapshotError ImpactProjectionBuilder
  | .addResource r => b.addResource r
  | .addEdge e => b.addEdge e

/-- A call that succeeds leaves what it leaves without machine
integers. A call that fails may have taken some of the budget. -/
def Follows (b : Ledger) (outcome : Except SnapshotError ImpactProjectionBuilder)
    (performed : Except SnapshotError Unit × Ledger) : Prop :=
  match outcome with
  | .ok next => performed = (.ok (), { b with graph := next.graph, remaining := next.remaining })
  | .error e =>
    ∃ n, 0 ≤ n ∧ n ≤ b.remaining ∧ performed = (.error e, { b with remaining := n })

/-- The call takes nothing and changes nothing. -/
theorem Follows.skip (hb : Sound b) : Follows b (.ok (builder b)) (.ok (), b) := by
  show (Except.ok (), b) = (Except.ok (), { b with remaining := (b.remaining.toNat : Int) })
  rw [Int.toNat_of_nonneg hb.nonneg]

theorem Follows.full (hb : Sound b) : Follows b (.error .limit) (.error .limit, b) :=
  ⟨b.remaining, hb.nonneg, le_refl _, rfl⟩

/-- A method that pays, and then adds to the graph. -/
theorem Follows.pays {m : Building α} {a : α} {c : Nat} (hm : Pays m a c) (hb : Sound b)
    (add : α → Graph → Graph) :
    Follows b (if b.remaining.toNat < c then .error .limit
        else .ok { builder b with graph := add a b.graph, remaining := b.remaining.toNat - c })
      (after (m >>= fun a => modify fun b => { b with graph := add a b.graph }) b) := by
  have hpays := hm b hb
  rw [after_bind]
  by_cases hc : (c : Int) ≤ b.remaining
  · rw [if_pos hc] at hpays
    rw [if_neg (by omega), hpays]
    show (Except.ok (), { b with graph := add a b.graph, remaining := b.remaining - c })
      = (Except.ok (), { b with
          graph := add a b.graph, remaining := ((b.remaining.toNat - c : Nat) : Int) })
    congr 2
    omega
  · rw [if_neg hc] at hpays
    rw [if_pos (by omega)]
    obtain ⟨n, hn, hle, hpays⟩ := hpays
    exact ⟨n, hn, hle, by rw [hpays]⟩

/-- A method that does nothing if `out` holds, and fails if `full`
does. -/
theorem Follows.guarded {m : Building α} {a : α} {c : Nat} (hm : Pays m a c) (hb : Sound b)
    (add : α → Graph → Graph) {out full : Prop} [Decidable out] [Decidable full] :
    Follows b (if out then .ok (builder b)
        else if full ∨ b.remaining.toNat < c then .error .limit
        else .ok { builder b with graph := add a b.graph, remaining := b.remaining.toNat - c })
      (after (if out then Pure.pure () else if full then throw .limit
        else m >>= fun a => modify fun b => { b with graph := add a b.graph }) b) := by
  by_cases hout : out
  · rw [if_pos hout, if_pos hout]
    exact Follows.skip hb
  · rw [if_neg hout, if_neg hout]
    by_cases hfull : full
    · rw [if_pos hfull, if_pos (Or.inl hfull)]
      exact Follows.full hb
    · rw [if_neg hfull, if_congr (or_iff_right hfull) rfl rfl]
      exact Follows.pays hm hb add

theorem addResource_follows (hb : Sound b) (r : Resource) :
    Follows b ((builder b).addResource r) (after (Ledger.addResource r) b) := by
  rw [addResource_eq, Ledger.addResource, after_bind, after_get]
  exact Follows.guarded (projectResource_pays (sanitizeResource r)) hb
    fun projected g => { g with resources := g.resources ++ [projected] }

theorem addEdge_follows (hb : Sound b) (e : Edge) :
    Follows b ((builder b).addEdge e) (after (Ledger.addEdge e) b) := by
  have hout : (!impactIDInCluster e.fromID b.opts.clusterID ||
      !impactIDInCluster e.toID b.opts.clusterID) = !edgeInCluster b.opts.clusterID e.key :=
    (Bool.not_and _ _).symm
  rw [addEdge_eq, Ledger.addEdge, after_bind, after_get]
  simp only [hout, Bool.not_eq_true']
  exact Follows.guarded (charge_pays 96 [e.fromID, e.toID, e.type]) hb
    fun _ g => { g with edges := g.edges ++ [bareEdge e.key] }

theorem perform_follows (hb : Sound b) (call : BuilderCall) :
    Follows b (stepOf (builder b) call) (call.perform b) := by
  cases call with
  | addResource r => exact addResource_follows hb r
  | addEdge e => exact addEdge_follows hb e

variable {call : BuilderCall}

/-- A successful call changes nothing, or adds a resource or an edge
that the budget has room for. -/
theorem stepOf_cases {b next : ImpactProjectionBuilder} (h : stepOf b call = .ok next) :
    next = b ∨
      (∃ r, (b.graph.resources.length : Int) ≠ b.opts.maxResources ∧
        resourceCost (sanitizeResource r) ≤ b.remaining ∧ next = pushResource b r) ∨
      ∃ e, (b.graph.edges.length : Int) ≠ b.opts.maxEdges ∧
        edgeCost e.key ≤ b.remaining ∧ next = pushEdge b e := by
  cases call with
  | addResource r =>
    change b.addResource r = .ok next at h
    rw [addResource_eq] at h
    split_ifs at h with hcluster hlimit
    · exact Or.inl (Except.ok.inj h).symm
    · rw [not_or, not_lt] at hlimit
      exact Or.inr (Or.inl ⟨r, hlimit.1, hlimit.2, (Except.ok.inj h).symm⟩)
  | addEdge e =>
    change b.addEdge e = .ok next at h
    rw [addEdge_eq] at h
    split_ifs at h with hcluster hlimit
    · exact Or.inl (Except.ok.inj h).symm
    · rw [not_or, not_lt] at hlimit
      exact Or.inr (Or.inr ⟨e, hlimit.1, hlimit.2, (Except.ok.inj h).symm⟩)

/-! ### The size of what is kept -/

section Size

variable {escape : String → String}

theorem len_encode_null (escape : String → String) : len (JsonText.encode escape .null) = 4 := by
  rw [JsonText.encode]
  decide

mutual

/-- The text of a projected value and a comma take no more than the
projection costs. -/
theorem len_encode_projected_lt (h : JsonText.Sixfold escape) :
    ∀ (shape : ImpactFieldShape) (value : Json),
      len (JsonText.encode escape (projected shape value)) + 1 ≤ projectionCost shape value
  | .string, value => by
    unfold projected projectionCost
    cases value with
    | str text =>
      have hquoted := JsonText.len_quoted_le h text
      simp only [JsonText.encode, cost_cons, cost_nil]
      omega
    | _ =>
      simp only [len_encode_null]
      omega
  | .presenceString, value => by
    unfold projected projectionCost
    cases value with
    | str text =>
      by_cases htext : text = ""
      · have hquoted := JsonText.len_quoted_le h ""
        rw [show len "" = 0 by decide] at hquoted
        simp only [htext, if_true, JsonText.encode]
        omega
      · have hquoted := JsonText.len_quoted_le h impactPresentString
        simp only [htext, if_false, JsonText.encode, cost_cons, cost_nil]
        omega
    | _ =>
      simp only [len_encode_null]
      omega
  | .boolean, value => by
    unfold projected projectionCost
    cases value with
    | bool flag =>
      simp only [JsonText.encode]
      cases flag <;> decide
    | _ =>
      simp only [len_encode_null]
      omega
  | .object fields, value => by
    unfold projected projectionCost
    cases value with
    | obj object =>
      have hobject := JsonText.len_encode_obj_le escape (projectedFields fields object)
      have hfields := len_encode_projectedFields_le h fields object
      simp only
      omega
    | _ =>
      simp only [len_encode_null]
      omega
  | .array element, value => by
    unfold projected projectionCost
    cases value with
    | arr items =>
      have harray := JsonText.len_encode_arr_le escape (items.map (projected element))
      have hitems : ((items.map (projected element)).map fun v =>
          len (JsonText.encode escape v) + 1).sum ≤ (items.map (projectionCost element)).sum := by
        rw [List.map_map]
        exact List.sum_le_sum fun v _ => len_encode_projected_lt h element v
      simp only
      omega
    | _ =>
      simp only [len_encode_null]
      omega

theorem len_encode_projectedFields_le (h : JsonText.Sixfold escape) :
    ∀ (fields : List ImpactProjectionField) (object : Object),
      ((projectedFields fields object).map fun m => len (JsonText.quoted escape m.1) +
          len (JsonText.encode escape m.2) + 2).sum ≤ fieldsCost fields object
  | [], _ => Nat.le_refl _
  | field :: fields, object => by
    unfold projectedFields fieldsCost
    rw [List.map_append, List.sum_append]
    exact Nat.add_le_add (len_encode_projectedField_le h field object)
      (len_encode_projectedFields_le h fields object)

theorem len_encode_projectedField_le (h : JsonText.Sixfold escape) :
    ∀ (field : ImpactProjectionField) (object : Object),
      ((projectedField field object).map fun m => len (JsonText.quoted escape m.1) +
          len (JsonText.encode escape m.2) + 2).sum ≤ fieldCost field object
  | .mk name shape, object => by
    unfold projectedField fieldCost
    cases object.lookup name with
    | none => exact Nat.le_refl _
    | some entry =>
      have hname := JsonText.len_quoted_le h name
      have hentry := len_encode_projected_lt h shape entry
      simp only [cost_cons, cost_nil, List.map_singleton, List.sum_singleton]
      omega

end

/-- The bytes of the members of an object, each with a colon and a
comma. -/
def memberBytes (members : List (String × String)) : Nat :=
  (members.map fun m => len m.1 + len m.2 + 2).sum

@[simp] theorem memberBytes_nil : memberBytes [] = 0 := rfl

@[simp] theorem memberBytes_cons (name value : String) (members : List (String × String)) :
    memberBytes (jsonField name value :: members)
      = len name + len value + 4 + memberBytes members := by
  unfold memberBytes jsonField
  rw [List.map_cons, List.sum_cons]
  simp only [Strings.len_append, show len "\"" = 1 by decide]
  omega

@[simp] theorem memberBytes_append (members members' : List (String × String)) :
    memberBytes (members ++ members') = memberBytes members + memberBytes members' := by
  unfold memberBytes
  rw [List.map_append, List.sum_append]

section

variable (h : JsonText.Sixfold escape)
include h

theorem memberBytes_encodeNonEmpty_le (name text : String) :
    memberBytes (encodeNonEmpty escape name text) ≤ len name + 6 + 6 * len text := by
  have hquoted := JsonText.len_quoted_le h text
  unfold encodeNonEmpty
  split_ifs
  · exact Nat.zero_le _
  · rw [memberBytes_cons, memberBytes_nil]
    omega

/-- The text of an object whose members are texts. -/
theorem len_object_quoted_le (fields : List (String × String)) :
    len (JsonText.object (fields.map fun f => jsonField f.1 (JsonText.quoted escape f.2)))
      ≤ 2 + (fields.map fun f => len f.1 + 6 + 6 * len f.2).sum := by
  refine (JsonText.len_object_le _).trans (Nat.add_le_add_left ?_ 2)
  change memberBytes _ ≤ _
  induction fields with
  | nil => exact Nat.le_refl _
  | cons f fields ih =>
    have hquoted := JsonText.len_quoted_le h f.2
    rw [List.map_cons, memberBytes_cons, List.map_cons, List.sum_cons]
    omega

/-- The text of an owner reference takes no more than is charged for
it. -/
theorem len_encode_owner_le (owner : OwnerRef) :
    len (owner.encode escape) + 1 ≤ cost 64 [owner.kind, owner.name, owner.uid] := by
  have hobject := len_object_quoted_le h
    [("kind", owner.kind), ("name", owner.name), ("uid", owner.uid)]
  change len (owner.encode escape) ≤ _ at hobject
  simp only [List.map_cons, List.map_nil, List.sum_cons, List.sum_nil,
    show len "kind" = 4 by decide, show len "name" = 4 by decide, show len "uid" = 3 by decide]
    at hobject
  simp only [cost_cons, cost_nil]
  omega

/-- The text of a resource without labels. -/
theorem len_encode_resource_le {r : Resource} (hlabels : r.labels = []) :
    len (r.encode escape) ≤
      200 + memberBytes (encodeNonEmptyMap escape "annotations" r.annotations) +
      6 * (len r.kind + len r.name + len r.ns + len r.clusterID +
        len r.groupVersion + len r.uid + len r.resourceVersion) +
      (r.ownerReferences.map fun owner => cost 64 [owner.kind, owner.name, owner.uid]).sum := by
  have hkind := JsonText.len_quoted_le h r.kind
  have hname := JsonText.len_quoted_le h r.name
  have hns := JsonText.len_quoted_le h r.ns
  have hversion := memberBytes_encodeNonEmpty_le h "groupVersion" r.groupVersion
  have huid := memberBytes_encodeNonEmpty_le h "uid" r.uid
  have hresource := memberBytes_encodeNonEmpty_le h "resourceVersion" r.resourceVersion
  have hcluster := memberBytes_encodeNonEmpty_le h "clusterId" r.clusterID
  have howners : memberBytes (if r.ownerReferences.isEmpty then []
      else [jsonField "ownerReferences"
        (JsonText.array (r.ownerReferences.map (OwnerRef.encode escape)))])
      ≤ 21 +
        (r.ownerReferences.map fun owner => cost 64 [owner.kind, owner.name, owner.uid]).sum := by
    have harray := JsonText.len_array_le (r.ownerReferences.map (OwnerRef.encode escape))
    have hsum : ((r.ownerReferences.map (OwnerRef.encode escape)).map fun s => len s + 1).sum
        ≤ (r.ownerReferences.map fun owner => cost 64 [owner.kind, owner.name, owner.uid]).sum := by
      rw [List.map_map]
      exact List.sum_le_sum fun owner _ => len_encode_owner_le h owner
    split_ifs
    · exact Nat.zero_le _
    · rw [memberBytes_cons, memberBytes_nil, show len "ownerReferences" = 15 by decide]
      omega
  refine (JsonText.len_object_le _).trans ?_
  change 2 + memberBytes _ ≤ _
  have hempty : encodeNonEmptyMap escape "labels" [] = [] := rfl
  rw [hlabels, hempty]
  simp only [memberBytes_append, memberBytes_cons, memberBytes_nil]
  rw [show len "groupVersion" = 12 by decide] at hversion
  rw [show len "uid" = 3 by decide] at huid
  rw [show len "resourceVersion" = 15 by decide] at hresource
  rw [show len "clusterId" = 9 by decide] at hcluster
  rw [show len "kind" = 4 by decide, show len "name" = 4 by decide,
    show len "namespace" = 9 by decide]
  omega

/-- The text of a raw object takes no more than its projection
costs. -/
theorem len_rawText_le (r : Resource) :
    len (Resource.rawText escape { r with raw := projectedRaw r }) ≤ rawCost r := by
  unfold Resource.rawText projectedRaw rawCost
  cases impactReferenceShape r.kind r.groupVersion with
  | none => exact Nat.le_refl _
  | some shape =>
    cases r.raw with
    | none => exact Nat.le_refl _
    | some raw =>
      simp only
      have hvalue := len_encode_projected_lt h shape (.obj raw)
      split_ifs
      · exact Nat.le_refl _
      · split
        · exact Nat.zero_le _
        · rename_i object hobject
          split at hobject
          · rename_i hprojected
            rw [← Option.some.inj hobject, ← hprojected]
            omega
          · cases hobject

/-- The annotation of a reference fits the overhead of a resource. -/
theorem memberBytes_referenceOnly_le (ns name clusterID : String) :
    memberBytes (encodeNonEmptyMap escape "annotations"
      (secretReferenceResource ns name clusterID).annotations) ≤ 300 := by
  have hkey := JsonText.len_quoted_le h referenceOnlyAnnotation
  have hvalue := JsonText.len_quoted_le h "true"
  have hobject := JsonText.len_object_le
    [(JsonText.quoted escape referenceOnlyAnnotation, JsonText.quoted escape "true")]
  show memberBytes [jsonField "annotations" (JsonText.object
    [(JsonText.quoted escape referenceOnlyAnnotation, JsonText.quoted escape "true")])] ≤ 300
  rw [memberBytes_cons, memberBytes_nil, show len "annotations" = 11 by decide]
  rw [show len referenceOnlyAnnotation = 27 by decide] at hkey
  rw [show len "true" = 4 by decide] at hvalue
  simp only [List.map_cons, List.map_nil, List.sum_cons, List.sum_nil] at hobject
  omega

/-- The texts of a projected resource and its raw object take no
more than is charged. -/
theorem len_encode_projectedResource_le (r : Resource) :
    len ((projectedResource (sanitizeResource r)).encode escape) + 1 +
        (len ((projectedResource (sanitizeResource r)).rawText escape) + 1)
      ≤ resourceCost (sanitizeResource r) := by
  by_cases hsecret : r.kind = "Secret"
  · have hsanitized : sanitizeResource r = secretReferenceResource r.ns r.name r.clusterID := by
      rw [sanitizeResource_of_secret r hsecret]
    have hprojected : projectedResource (secretReferenceResource r.ns r.name r.clusterID)
        = secretReferenceResource r.ns r.name r.clusterID := by
      unfold projectedResource
      rfl
    have hannotations := memberBytes_referenceOnly_le h r.ns r.name r.clusterID
    have hresource := len_encode_resource_le h
      (r := secretReferenceResource r.ns r.name r.clusterID) rfl
    have hraw : len ((secretReferenceResource r.ns r.name r.clusterID).rawText escape) = 0 := rfl
    rw [hsanitized, hprojected, hraw]
    unfold resourceCost
    simp only [cost_cons, cost_nil] at hresource ⊢
    omega
  · have hprojected := projectedResource_of_ne hsecret
    have hresource := len_encode_resource_le h (r := projectedResource r) (by rw [hprojected])
    have hraw : len ((projectedResource r).rawText escape) ≤ rawCost r := by
      rw [hprojected]
      exact len_rawText_le h r
    have hempty : memberBytes (encodeNonEmptyMap escape "annotations" []) = 0 := rfl
    rw [sanitizeResource_of_ne r hsecret]
    unfold resourceCost
    simp only [cost_cons, cost_nil]
    rw [hprojected] at hresource hraw ⊢
    simp only [cost_cons, cost_nil, hempty] at hresource
    omega

/-- The text of an edge takes no more than is charged. -/
theorem len_encode_bareEdge_le (k : EdgeKey) :
    len ((bareEdge k).encode escape) + 1 ≤ edgeCost k := by
  have hobject := len_object_quoted_le h [("from", k.fromID), ("to", k.toID), ("type", k.type)]
  change len ((bareEdge k).encode escape) ≤ _ at hobject
  simp only [List.map_cons, List.map_nil, List.sum_cons, List.sum_nil,
    show len "from" = 4 by decide, show len "to" = 2 by decide, show len "type" = 4 by decide]
    at hobject
  simp only [edgeCost, cost_cons, cost_nil]
  omega

end

end Size

/-! ### The bound -/

/-- What holds of a builder with the options `o`, after any calls. -/
structure Bounded (escape : String → String) (o : ImpactSnapshotOptions) (b : Ledger) : Prop where
  opts : b.opts = o
  /-- The budget is not negative and was not negative, and no charge overflowed. -/
  sound : Sound b
  resources : (b.graph.resources.length : Int) ≤ o.maxResources
  edges : (b.graph.edges.length : Int) ≤ o.maxEdges
  /-- What is kept takes no more bytes than were charged. -/
  bytes : (b.graph.encodedBytes escape : Int) ≤ o.maxBytes - b.remaining

variable {opts : ImpactSnapshotOptions}

/-- A builder that has kept nothing yet. -/
theorem new_bounded (escape : String → String) (h : Ledger.new opts = .ok b) :
    Bounded escape b.opts b ∧ newImpactProjectionBuilder opts = .ok (builder b) := by
  unfold Ledger.new at h
  cases ho : opts.normalize with
  | error e =>
    rw [ho] at h
    cases h
  | ok o =>
    rw [ho] at h
    obtain rfl := Except.ok.inj h
    have hvalid := ho
    unfold ImpactSnapshotOptions.normalize at hvalid
    simp only at hvalid
    split_ifs at hvalid with hrange
    obtain rfl := Except.ok.inj hvalid
    simp only [Bool.or_eq_true, decide_eq_true_eq, not_or, not_lt] at hrange
    obtain ⟨⟨⟨⟨⟨⟨-, hresources⟩, -⟩, hedges⟩, -⟩, hbytes⟩, hmax⟩ := hrange
    refine ⟨⟨rfl, ⟨?_, ?_, rfl, rfl⟩, ?_, ?_, ?_⟩, ?_⟩
    · exact le_trans (by decide) hbytes
    · exact le_trans hmax (by decide)
    · exact le_trans Int.one_nonneg hresources
    · exact le_trans Int.one_nonneg hedges
    · show ((0 : Nat) : Int) ≤ _
      simp
    · unfold newImpactProjectionBuilder
      rw [ho]
      rfl

variable {escape : String → String} {o : ImpactSnapshotOptions} {b : Ledger}

theorem Bounded.left (hb : Bounded escape o b) {n : Int} (hn : 0 ≤ n) (hle : n ≤ b.remaining) :
    Bounded escape o { b with remaining := n } where
  opts := hb.opts
  sound := hb.sound.left hn hle
  resources := hb.resources
  edges := hb.edges
  bytes := le_trans hb.bytes (Int.sub_le_sub_left hle _)

/-- The graph grows by no more bytes than are charged. -/
theorem Bounded.grow (hb : Bounded escape o b) {g : Graph} {c : Nat} (hcost : c ≤ b.remaining.toNat)
    (hresources : (g.resources.length : Int) ≤ o.maxResources)
    (hedges : (g.edges.length : Int) ≤ o.maxEdges)
    (hsize : g.encodedBytes escape ≤ b.graph.encodedBytes escape + c) :
    Bounded escape o { b with graph := g, remaining := ((b.remaining.toNat - c : Nat) : Int) } := by
  have hnonneg := hb.sound.nonneg
  have hbytes := hb.bytes
  have hleft : ((b.remaining.toNat - c : Nat) : Int) = b.remaining - c := by omega
  have hsound := hb.sound.left (n := b.remaining - c) (by omega) (by omega)
  rw [hleft]
  refine ⟨hb.opts, ⟨hsound.nonneg, hsound.le, hsound.exact, hsound.positive⟩, hresources,
    hedges, ?_⟩
  show (g.encodedBytes escape : Int) ≤ o.maxBytes - (b.remaining - c)
  omega

/-- A call keeps the bound, whatever it returns. -/
theorem Bounded.follows (hescape : JsonText.Sixfold escape) (hb : Bounded escape o b)
    {performed : Except SnapshotError Unit × Ledger}
    (h : Follows b (stepOf (builder b) call) performed) : Bounded escape o performed.2 := by
  have hresources := hb.resources
  have hedges := hb.edges
  cases hstep : stepOf (builder b) call with
  | error e =>
    rw [hstep] at h
    obtain ⟨n, hn, hle, rfl⟩ := h
    exact hb.left hn hle
  | ok next =>
    rw [hstep] at h
    obtain rfl := h
    rcases stepOf_cases hstep with rfl | ⟨r, hroom, hcost, rfl⟩ | ⟨e, hroom, hcost, rfl⟩
    · have hsame : ((builder b).remaining : Int) = b.remaining :=
        Int.toNat_of_nonneg hb.sound.nonneg
      rw [hsame]
      exact hb
    · have hsize := len_encode_projectedResource_le hescape r
      have hroom : (b.graph.resources.length : Int) ≠ o.maxResources := hb.opts ▸ hroom
      refine hb.grow hcost ?_ hedges ?_
      · show ((b.graph.resources ++ [_]).length : Int) ≤ _
        rw [List.length_append, List.length_singleton]
        omega
      · unfold Graph.encodedBytes
        show ((b.graph.resources ++ [_]).map _).sum + (b.graph.edges.map _).sum ≤ _
        rw [List.map_append, List.sum_append, List.map_singleton, List.sum_singleton]
        omega
    · have hsize := len_encode_bareEdge_le hescape e.key
      have hroom : (b.graph.edges.length : Int) ≠ o.maxEdges := hb.opts ▸ hroom
      refine hb.grow hcost hresources ?_ ?_
      · show ((b.graph.edges ++ [_]).length : Int) ≤ _
        rw [List.length_append, List.length_singleton]
        omega
      · unfold Graph.encodedBytes
        show (b.graph.resources.map _).sum + ((b.graph.edges ++ [_]).map _).sum ≤ _
        rw [List.map_append, List.sum_append, List.map_singleton, List.sum_singleton]
        omega

theorem performAll_bounded (hescape : JsonText.Sixfold escape) (calls : List BuilderCall)
    (hb : Bounded escape o b) : Bounded escape o (BuilderCall.performAll b calls).2 := by
  induction calls generalizing b with
  | nil => exact hb
  | cons call calls ih => exact ih (hb.follows hescape (perform_follows hb.sound call))

/-- The builder after a call that succeeds is sound, and is the one
without machine integers. -/
theorem Follows.ok (hb : Sound b) {next : ImpactProjectionBuilder}
    (hstep : stepOf (builder b) call = .ok next) :
    ∃ b', call.perform b = (.ok (), b') ∧ Sound b' ∧ builder b' = next := by
  have hfollows := perform_follows hb call
  rw [hstep] at hfollows
  have hle : next.remaining ≤ (builder b).remaining ∧ next.opts = b.opts := by
    rcases stepOf_cases hstep with rfl | ⟨r, -, -, rfl⟩ | ⟨e, -, -, rfl⟩
    · exact ⟨le_refl _, rfl⟩
    · exact ⟨Nat.sub_le _ _, rfl⟩
    · exact ⟨Nat.sub_le _ _, rfl⟩
  have hremaining : (next.remaining : Int) ≤ b.remaining :=
    le_trans (Int.ofNat_le.mpr hle.1) (le_of_eq (Int.toNat_of_nonneg hb.nonneg))
  refine ⟨_, hfollows, ⟨Int.natCast_nonneg _, hremaining.trans hb.le, hb.exact, hb.positive⟩, ?_⟩
  show ImpactProjectionBuilder.mk next.graph b.opts (next.remaining : Int).toNat = next
  rw [Int.toNat_natCast, ← hle.2]

/-- The loops of a snapshot stop at the first call that fails. -/
theorem foldlM_stepOf (calls : List BuilderCall) (hb : Sound b) :
    match calls.foldlM stepOf (builder b) with
    | .ok next =>
      (∀ result ∈ (BuilderCall.performAll b calls).1, result = .ok ()) ∧
        (BuilderCall.performAll b calls).2.graph = next.graph
    | .error _ => ∃ result ∈ (BuilderCall.performAll b calls).1, result ≠ .ok () := by
  induction calls generalizing b with
  | nil => exact ⟨fun _ hresult => absurd hresult List.not_mem_nil, rfl⟩
  | cons call calls ih =>
    rw [List.foldlM_cons]
    cases hstep : stepOf (builder b) call with
    | error e =>
      have hfollows := perform_follows hb call
      rw [hstep] at hfollows
      obtain ⟨n, -, -, hperform⟩ := hfollows
      simp only [BuilderCall.performAll, hperform]
      exact ⟨.error e, List.mem_cons_self, by simp⟩
    | ok next =>
      obtain ⟨b', hperform, hsound, rfl⟩ := Follows.ok hb hstep
      have hrest := ih hsound
      simp only [BuilderCall.performAll, hperform]
      show match calls.foldlM stepOf (builder b') with
        | .ok next => _
        | .error _ => _
      cases hfold : calls.foldlM stepOf (builder b') with
      | error e =>
        rw [hfold] at hrest
        obtain ⟨result, hmem, hfailed⟩ := hrest
        exact ⟨result, List.mem_cons_of_mem _ hmem, hfailed⟩
      | ok last =>
        rw [hfold] at hrest
        exact ⟨List.forall_mem_cons.mpr ⟨rfl, hrest.1⟩, hrest.2⟩

/-- The calls of `SnapshotImpact`. -/
def snapshotCalls (range : MapOrder) (store : MemoryStore) : List BuilderCall :=
  (GoMap.values range store.resources).map .addResource ++
    (store.outgoing.values range).map .addEdge

theorem snapshotImpact_eq_calls (range : MapOrder) (store : MemoryStore)
    {first : ImpactProjectionBuilder} (h : newImpactProjectionBuilder opts = .ok first) :
    store.snapshotImpact range opts
      = ((snapshotCalls range store).foldlM stepOf first).map ImpactProjectionBuilder.graph := by
  show _ = ImpactProjectionBuilder.graph <$> _
  rw [MemoryStore.snapshotImpact, snapshotCalls, h, List.foldlM_append, map_bind]
  simp only [List.foldlM_map, map_eq_pure_bind]
  rfl

/-- The budget is a bound for every sequence of calls. A snapshot
returns a graph only if none of its calls failed. -/
theorem budget_bounds_projection (escape : String → String) (hescape : JsonText.Sixfold escape)
    (opts : ImpactSnapshotOptions) (b : Ledger) (hnew : Ledger.new opts = .ok b) :
    (∀ calls, Bounded escape b.opts (BuilderCall.performAll b calls).2) ∧
      ∀ (range : MapOrder) (store : MemoryStore),
        match store.snapshotImpact range opts with
        | .ok g =>
          (∀ result ∈ (BuilderCall.performAll b (snapshotCalls range store)).1, result = .ok ()) ∧
            (BuilderCall.performAll b (snapshotCalls range store)).2.graph = g
        | .error _ =>
          ∃ result ∈ (BuilderCall.performAll b (snapshotCalls range store)).1,
            result ≠ .ok () := by
  obtain ⟨hb, hbuilder⟩ := new_bounded escape hnew
  refine ⟨fun calls => performAll_bounded hescape calls hb, fun range store => ?_⟩
  have hfold := foldlM_stepOf (snapshotCalls range store) hb.sound
  rw [snapshotImpact_eq_calls range store hbuilder]
  cases hcalls : (snapshotCalls range store).foldlM stepOf (builder b) with
  | error | ok =>
    rw [hcalls] at hfold
    exact hfold

/-- A builder with room for one Pod. -/
def smallBudget : Ledger where
  graph := ⟨[], []⟩
  opts := { maxResources := 5, maxEdges := 5, maxBytes := 1000 }
  remaining := 1000

def smallCalls : List BuilderCall :=
  [.addResource { kind := "Pod", name := "web", ns := "shop" },
    .addEdge ⟨"shop/Pod/web", "shop/ConfigMap/c", .usesConfigMap, []⟩,
    .addResource { kind := "Pod", name := "api", ns := "shop" }]

/-- The first two calls are charged 572 and 348 bytes. The third one
fails, and the bound still holds. -/
theorem budget_bounds_projection_small :
    Ledger.new { maxResources := 5, maxEdges := 5, maxBytes := 1000 } = .ok smallBudget ∧
      (BuilderCall.performAll smallBudget smallCalls).1.map Except.toBool = [true, true, false] ∧
      (BuilderCall.performAll smallBudget smallCalls).2.remaining = 80 ∧
      Bounded id smallBudget.opts (BuilderCall.performAll smallBudget smallCalls).2 := by
  have hsixfold : JsonText.Sixfold id := fun s => Nat.le_mul_of_pos_left _ (by decide)
  have hnew : Ledger.new { maxResources := 5, maxEdges := 5, maxBytes := 1000 }
      = .ok smallBudget := rfl
  refine ⟨hnew, ?_, ?_, (budget_bounds_projection id hsixfold _ _ hnew).1 smallCalls⟩
  · decide +kernel
  · decide +kernel

end KubeAtlas.Proofs.Projection
