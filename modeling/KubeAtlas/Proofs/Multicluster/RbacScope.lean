import KubeAtlas.Multicluster.RbacScope
import Mathlib.Data.Finset.Insert

/-!
# `KubeAtlas.Proofs.Multicluster.RbacScope`: rules that share a token

The scope stores each rule under the hash of its token, in place of
an earlier rule with the same token. So the clusters of a token are
those of its last rule. They are all that the rules grant to it, in
every order of the rules, if and only if the rules of a token have
the same clusters.
-/

set_option autoImplicit false

namespace KubeAtlas.Proofs.Multicluster

open Lib.Strings KubeAtlas.Multicluster

/-- The rule is for the token that is presented. -/
def IsFor (r : RBACRule) (tok : String) : Prop := tok ≠ "" ∧ trimSpace r.token = tok

/-- The outcome of a request is what the rules for its token grant
together. -/
def Granted (rules : List RBACRule) (tok : String) (out : Option (Finset String) × Nat) : Prop :=
  (out = (none, if tok = "" then 401 else 403) ∧ ∀ r ∈ rules, ¬IsFor r tok) ∨
    (∃ r ∈ rules, IsFor r tok) ∧
      ∃ set, out = (some set, 0) ∧ ∀ c, c ∈ set ↔ ∃ r ∈ rules, IsFor r tok ∧ c ∈ r.set

/-- Every request gets what the rules grant together, whatever their
order. -/
def Accumulates (hashToken : String → String) (rules : List RBACRule) : Prop :=
  ∀ rules', rules'.Perm rules → ∀ authorization,
    Granted rules (bearerToken authorization)
      ((newRBACScope hashToken rules').visibleClusters hashToken authorization)

/-- The token of every rule can be presented. -/
theorem bearerToken_bearer {token : String} (h : trimSpace token ≠ "") :
    bearerToken ("Bearer " ++ token) = trimSpace token := by
  have hne : token ≠ "" := by
    rintro rfl
    exact h rfl
  have hlen : 7 < len ("Bearer " ++ token) := by
    have hpos : 0 < len token := Nat.pos_of_ne_zero fun hzero =>
      hne (String.utf8ByteSize_eq_zero_iff.mp hzero)
    have hseven : len "Bearer " = 7 := rfl
    rw [len_append]
    omega
  unfold bearerToken
  simp only [String.toList_append]
  rw [if_pos ⟨hlen, by rfl⟩]
  exact congrArg trimSpace String.ofList_toList

section Scope

variable {hashToken : String → String} (hinj : Function.Injective hashToken)

include hinj

/-- The last rule of a token decides. -/
theorem lookup_append_singleton {tok : String} (htok : tok ≠ "") (rules : List RBACRule)
    (r : RBACRule) :
    (newRBACScope hashToken (rules ++ [r])).byTokenHash.lookup (hashToken tok)
      = if trimSpace r.token = tok then some r.set
        else (newRBACScope hashToken rules).byTokenHash.lookup (hashToken tok) := by
  rw [newRBACScope, List.foldl_append]
  show (RBACScope.addRule hashToken (newRBACScope hashToken rules) r).byTokenHash.lookup _ = _
  unfold RBACScope.addRule
  by_cases hblank : trimSpace r.token = ""
  · simp [hblank, Ne.symm htok]
  · by_cases hsame : trimSpace r.token = tok
    · simp [hsame, htok]
    · simp [hblank, hsame, AList.lookup_insert_ne (hinj.ne (Ne.symm hsame))]

/-- What is stored for a token is the set of one of its rules. -/
theorem lookup_cases {tok : String} (htok : tok ≠ "") (rules : List RBACRule) :
    ((newRBACScope hashToken rules).byTokenHash.lookup (hashToken tok) = none ∧
        ∀ r ∈ rules, trimSpace r.token ≠ tok) ∨
      ∃ r ∈ rules, trimSpace r.token = tok ∧
        (newRBACScope hashToken rules).byTokenHash.lookup (hashToken tok) = some r.set := by
  induction rules using List.reverseRecOn with
  | nil => exact .inl ⟨rfl, by simp⟩
  | append_singleton rules r ih =>
    rw [lookup_append_singleton hinj htok]
    by_cases hsame : trimSpace r.token = tok
    · exact .inr ⟨r, by simp, hsame, if_pos hsame⟩
    · rw [if_neg hsame]
      rcases ih with ⟨hnone, hall⟩ | ⟨r', hr', htoken, hset⟩
      · refine .inl ⟨hnone, fun r' hr' => ?_⟩
        rcases List.mem_append.mp hr' with hr' | hr'
        · exact hall r' hr'
        · rwa [List.mem_singleton.mp hr']
      · exact .inr ⟨r', List.mem_append_left _ hr', htoken, hset⟩

section Requests

variable {rules : List RBACRule} (hrules : ∃ r ∈ rules, trimSpace r.token ≠ "")

include hrules

theorem visibleClusters_newRBACScope (authorization : String) :
    (newRBACScope hashToken rules).visibleClusters hashToken authorization
      = if bearerToken authorization = "" then (none, 401)
        else ((newRBACScope hashToken rules).byTokenHash.lookup
          (hashToken (bearerToken authorization))).elim (none, 403) fun set => (some set, 0) := by
  -- the rule with a token is stored, so the scope is not the one that allows all
  have henabled : (newRBACScope hashToken rules).enabled = true := by
    obtain ⟨r, hr, htok⟩ := hrules
    rcases lookup_cases hinj htok rules with ⟨-, hall⟩ | ⟨r', -, -, hset⟩
    · exact absurd rfl (hall r hr)
    · rw [RBACScope.enabled, Bool.not_eq_true', List.isEmpty_eq_false_iff]
      intro hempty
      rw [AList.lookup, hempty] at hset
      cases hset
  simp only [RBACScope.visibleClusters, henabled, Bool.not_true, Bool.false_eq_true, if_false]
  cases (newRBACScope hashToken rules).byTokenHash.lookup _ <;> rfl

/-- A request is rejected, or gets the set of one of the rules for
its token. -/
theorem visibleClusters_cases (authorization : String) :
    let out := (newRBACScope hashToken rules).visibleClusters hashToken authorization
    let tok := bearerToken authorization
    (out = (none, if tok = "" then 401 else 403) ∧ ∀ r ∈ rules, ¬IsFor r tok) ∨
      ∃ r ∈ rules, IsFor r tok ∧ out = (some r.set, 0) := by
  intro out tok
  have hout : out = _ := visibleClusters_newRBACScope hinj hrules authorization
  by_cases htok : tok = ""
  · exact .inl ⟨by rw [hout, if_pos htok, if_pos htok], fun _ _ h => h.1 htok⟩
  · rw [if_neg htok] at hout
    rcases lookup_cases hinj htok rules with ⟨hnone, hall⟩ | ⟨r, hr, htoken, hset⟩
    · refine .inl ⟨?_, fun r hr h => hall r hr h.2⟩
      rw [hout, hnone, if_neg htok]
      rfl
    · refine .inr ⟨r, hr, ⟨htok, htoken⟩, ?_⟩
      rw [hout, hset]
      rfl

end Requests

/-- A rule that is put last is the one stored, and then has to grant
all that another one does. -/
theorem Accumulates.subset {rules : List RBACRule} (h : Accumulates hashToken rules)
    {r r' : RBACRule} (hr : r ∈ rules) (hr' : r' ∈ rules) (htok : trimSpace r.token ≠ "")
    (hsame : trimSpace r.token = trimSpace r'.token) : r.set ⊆ r'.set := by
  intro c hc
  have hlast := h (rules.erase r' ++ [r'])
    ((List.perm_append_singleton r' _).trans (List.perm_cons_erase hr').symm)
    ("Bearer " ++ r.token)
  rw [visibleClusters_newRBACScope hinj ⟨r', by simp, hsame ▸ htok⟩, bearerToken_bearer htok,
    if_neg htok, lookup_append_singleton hinj htok, if_pos hsame.symm] at hlast
  rcases hlast with ⟨hnone, -⟩ | ⟨-, set, hset, hmem⟩
  · cases hnone
  · cases hset
    exact (hmem c).mpr ⟨r, hr, ⟨htok, rfl⟩, hc⟩

end Scope

/-- Rules accumulate if and only if those that share a token have
the same clusters: of the rules of a token only the last is kept. -/
theorem accumulates_iff (hashToken : String → String) (hinj : Function.Injective hashToken)
    (rules : List RBACRule) (hrules : ∃ r ∈ rules, trimSpace r.token ≠ "") :
    Accumulates hashToken rules ↔
      ∀ r ∈ rules, ∀ r' ∈ rules, trimSpace r.token ≠ "" →
        trimSpace r.token = trimSpace r'.token → r.set = r'.set := by
  constructor
  · intro h r hr r' hr' htok hsame
    exact (h.subset hinj hr hr' htok hsame).antisymm
      (h.subset hinj hr' hr (hsame ▸ htok) hsame.symm)
  · intro h rules' hp authorization
    have hrules' : ∃ r ∈ rules', trimSpace r.token ≠ "" := by
      obtain ⟨r, hr, htok⟩ := hrules
      exact ⟨r, hp.symm.subset hr, htok⟩
    rcases visibleClusters_cases hinj hrules' authorization with ⟨hout, hall⟩ | ⟨r, hr, hfor, hout⟩
    · exact .inl ⟨hout, fun r hr => hall r (hp.symm.subset hr)⟩
    · have hr := hp.subset hr
      refine .inr ⟨⟨r, hr, hfor⟩, r.set, hout, fun c => ⟨fun hc => ⟨r, hr, hfor, hc⟩, ?_⟩⟩
      rintro ⟨r', hr', hfor', hc⟩
      rwa [h r hr r' hr' (hfor.2 ▸ hfor.1) (hfor.2.trans hfor'.2.symm)]

/-- One token in two rules, with one cluster each. -/
def sharedToken : List RBACRule := [⟨"t", ["a"]⟩, ⟨" t ", ["b"]⟩]

/-- The second rule replaces the first, and in the other order the
first the second. -/
theorem visibleClusters_last_rule :
    (newRBACScope id sharedToken).visibleClusters id "Bearer t" = (some {"b"}, 0) ∧
      (newRBACScope id sharedToken.reverse).visibleClusters id "Bearer t" = (some {"a"}, 0) := by
  decide +kernel

theorem not_accumulates_sharedToken :
    (∃ r ∈ sharedToken, trimSpace r.token ≠ "") ∧ ¬Accumulates id sharedToken := by
  have hrules : ∃ r ∈ sharedToken, trimSpace r.token ≠ "" := by decide +kernel
  rw [accumulates_iff id Function.injective_id sharedToken hrules]
  decide +kernel

end KubeAtlas.Proofs.Multicluster
