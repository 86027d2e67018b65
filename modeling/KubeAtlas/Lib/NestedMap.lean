import Mathlib.Data.List.AList
import KubeAtlas.Lib.RangeOrder

/-!
# `KubeAtlas.Lib.NestedMap`: Go maps, and maps of maps

A Go `map[K]V` is Mathlib's `AList`: entries with pairwise distinct
keys. What a loop sees of one is its entries in some order, and a
`MapOrder` says which.

A `NestedMap R P V` is a `map[R]map[P]V`, the usual shape of an
adjacency index. An absent row and an empty row read alike through
`get?`, and the lemmas below say what each update does to every
`get?`, so that a development states its invariants in terms of
`get?` and never looks at rows.
-/

set_option autoImplicit false

namespace KubeAtlas.Lib

/-- A Go `map[K]V`. -/
abbrev GoMap (K V : Type) := AList (fun _ : K => V)

/-- An order for the entries of every map a program ranges over. -/
abbrev MapOrder := ∀ α : Type, RangeOrder α

open Classical in
/-- A program may meet the entries of a map in whatever order. -/
theorem MapOrder.exists_order {α : Type} {l l' : List α} (h : l'.Perm l) :
    ∃ range : MapOrder, (range α).order l = l' := by
  let chosen : RangeOrder α :=
    { order := fun keys => if keys = l then l' else keys
      perm := by
        intro keys
        by_cases hkeys : keys = l
        · rw [if_pos hkeys, hkeys]
          exact h
        · rw [if_neg hkeys] }
  refine ⟨fun β => if hβ : β = α then hβ ▸ chosen else RangeOrder.inserted β, ?_⟩
  dsimp only
  rw [dif_pos rfl]
  exact if_pos rfl

namespace GoMap

variable {K V : Type}

/-- What `for k := range m` visits. -/
def keys (range : MapOrder) (m : GoMap K V) : List K :=
  ((range _).order m.entries).map Sigma.fst

/-- What `for _, v := range m` visits. -/
def values (range : MapOrder) (m : GoMap K V) : List V :=
  ((range _).order m.entries).map Sigma.snd

/-- After a write, a key reads what was written at it, or what it
read before. -/
theorem of_lookup_insert [DecidableEq K] {m : GoMap K V} {k k' : K} {v x : V}
    (h : (m.insert k v).lookup k' = some x) : (k' = k ∧ x = v) ∨ m.lookup k' = some x := by
  by_cases hk : k' = k
  · subst hk
    rw [AList.lookup_insert] at h
    exact Or.inl ⟨rfl, (Option.some.inj h).symm⟩
  · rw [AList.lookup_insert_ne hk] at h
    exact Or.inr h

section Range

variable [DecidableEq K] (range : MapOrder) (m : GoMap K V)

/-- Ranging over the keys meets each key, in whatever order. -/
theorem mem_keys {k : K} : k ∈ keys range m ↔ ∃ v, m.lookup k = some v := by
  unfold keys
  rw [((range _).perm m.entries).map Sigma.fst |>.mem_iff]
  show k ∈ m ↔ _
  rw [← AList.lookup_isSome, Option.isSome_iff_exists]

/-- Ranging over the values meets each value. -/
theorem mem_values {v : V} : v ∈ values range m ↔ ∃ k, m.lookup k = some v := by
  unfold values
  rw [((range _).perm m.entries).map Sigma.snd |>.mem_iff, List.mem_map]
  constructor
  · rintro ⟨⟨k, _⟩, hmem, rfl⟩
    exact ⟨k, AList.mem_lookup_iff.mpr hmem⟩
  · rintro ⟨k, hk⟩
    exact ⟨⟨k, v⟩, AList.mem_lookup_iff.mp hk, rfl⟩

/-- A map whose values know their own keys is ranged over without
repetition. -/
theorem nodup_map_values {key : V → K} (hkey : ∀ k v, m.lookup k = some v → key v = k) :
    ((values range m).map key).Nodup := by
  have hkeys : (values range m).map key = keys range m := by
    unfold values keys
    rw [List.map_map]
    apply List.map_congr_left
    intro entry hmem
    exact hkey entry.1 entry.2
      (AList.mem_lookup_iff.mpr (((range _).perm m.entries).mem_iff.mp hmem))
  rw [hkeys]
  exact (((range _).perm m.entries).map Sigma.fst).nodup_iff.mpr m.keys_nodup

end Range

end GoMap

/-- A Go `map[R]map[P]V`. -/
abbrev NestedMap (R P V : Type) := GoMap R (GoMap P V)

namespace NestedMap

variable {R P V : Type} [DecidableEq R] [DecidableEq P]

/-- `m[r]`: a missing row is a nil map, which reads as an empty one. -/
def row (m : NestedMap R P V) (r : R) : GoMap P V := (m.lookup r).getD ∅

/-- `m[r][p]`. -/
def get? (m : NestedMap R P V) (r : R) (p : P) : Option V := (m.row r).lookup p

/-- `m[r][p] = v`, after making the row if it is missing. -/
def put (m : NestedMap R P V) (r : R) (p : P) (v : V) : NestedMap R P V :=
  m.insert r ((m.row r).insert p v)

/-- `delete(m[r], p)`, guarded by a test that the row is there. -/
def remove (m : NestedMap R P V) (r : R) (p : P) : NestedMap R P V :=
  match m.lookup r with
  | none => m
  | some peers => m.insert r (peers.erase p)

/-- What two nested loops over the values visit. -/
def values (range : MapOrder) (m : NestedMap R P V) : List V :=
  (GoMap.values range m).flatMap (GoMap.values range)

variable (m : NestedMap R P V)

omit [DecidableEq P] in
/-- Writing a row leaves the other rows alone. -/
theorem row_insert (r r' : R) (peers : GoMap P V) :
    row (m.insert r peers) r' = if r' = r then peers else m.row r' := by
  unfold row
  by_cases h : r' = r
  · subst h
    rw [AList.lookup_insert, if_pos rfl, Option.getD_some]
  · rw [AList.lookup_insert_ne h, if_neg h]

/-- An entry that is written is read, and the others are as before. -/
theorem get?_put (r r' : R) (p p' : P) (v : V) :
    (m.put r p v).get? r' p' = if r' = r ∧ p' = p then some v else m.get? r' p' := by
  unfold get? put
  rw [row_insert]
  by_cases hr : r' = r
  · subst hr
    rw [if_pos rfl]
    by_cases hp : p' = p
    · subst hp
      rw [AList.lookup_insert, if_pos ⟨rfl, rfl⟩]
    · rw [AList.lookup_insert_ne hp, if_neg (fun h => hp h.2)]
  · rw [if_neg hr, if_neg (fun h => hr h.1)]

/-- An entry that is removed is gone, and the others are as before. -/
theorem get?_remove (r r' : R) (p p' : P) :
    (m.remove r p).get? r' p' = if r' = r ∧ p' = p then none else m.get? r' p' := by
  unfold get? remove
  cases hrow : m.lookup r with
  | none =>
    -- the row is missing, so there is nothing to remove from it
    by_cases h : r' = r ∧ p' = p
    · have hempty : m.row r = ∅ := by rw [row, hrow, Option.getD_none]
      rw [if_pos h, h.1, hempty, AList.lookup_empty]
    · rw [if_neg h]
  | some peers =>
    show (row (m.insert r (peers.erase p)) r').lookup p' = _
    rw [row_insert]
    by_cases hr : r' = r
    · have hpeers : m.row r' = peers := by rw [row, hr, hrow, Option.getD_some]
      rw [if_pos hr, hpeers]
      by_cases hp : p' = p
      · rw [hp, AList.lookup_erase, if_pos ⟨hr, rfl⟩]
      · rw [AList.lookup_erase_ne hp, if_neg (fun h => hp h.2)]
    · rw [if_neg hr, if_neg (fun h => hr h.1)]

/-- `delete(m, r)`. -/
theorem get?_erase (r r' : R) (p : P) :
    get? (m.erase r) r' p = if r' = r then none else m.get? r' p := by
  unfold get? row
  by_cases h : r' = r
  · rw [h, AList.lookup_erase, if_pos rfl, Option.getD_none, AList.lookup_empty]
  · rw [AList.lookup_erase_ne h, if_neg h]

/-- Removing one place for each item of a list. -/
theorem get?_foldl_remove {α : Type} (place : α → R × P) (items : List α) (r : R) (p : P) :
    (items.foldl (fun acc item => remove acc (place item).1 (place item).2) m).get? r p
      = if (r, p) ∈ items.map place then none else m.get? r p := by
  induction items generalizing m with
  | nil => rfl
  | cons item items ih =>
    rw [List.foldl_cons, ih, get?_remove, List.map_cons]
    by_cases htail : (r, p) ∈ items.map place
    · rw [if_pos htail, if_pos (List.mem_cons_of_mem _ htail)]
    · rw [if_neg htail]
      have hhead : (r = (place item).1 ∧ p = (place item).2) ↔
          (r, p) ∈ place item :: items.map place := by
        rw [List.mem_cons, or_iff_left htail, Prod.ext_iff]
      simp only [hhead]

section Range

variable (range : MapOrder)

/-- Ranging over a row meets the entries of the row. -/
theorem mem_row_values {r : R} {v : V} :
    v ∈ GoMap.values range (m.row r) ↔ ∃ p, m.get? r p = some v :=
  GoMap.mem_values range (m.row r)

/-- Every value of the map is visited. -/
theorem mem_values {v : V} : v ∈ m.values range ↔ ∃ r p, m.get? r p = some v := by
  unfold values
  rw [List.mem_flatMap]
  constructor
  · rintro ⟨peers, hpeers, hv⟩
    obtain ⟨r, hr⟩ := (GoMap.mem_values range m).mp hpeers
    obtain ⟨p, hp⟩ := (GoMap.mem_values range peers).mp hv
    exact ⟨r, p, by rw [get?, row, hr, Option.getD_some, hp]⟩
  · rintro ⟨r, p, h⟩
    cases hr : m.lookup r with
    | none => rw [get?, row, hr, Option.getD_none, AList.lookup_empty] at h; cases h
    | some peers =>
      rw [get?, row, hr, Option.getD_some] at h
      exact ⟨peers, (GoMap.mem_values range m).mpr ⟨r, hr⟩,
        (GoMap.mem_values range peers).mpr ⟨p, h⟩⟩

/-- No value is visited twice, when each value knows its row and its
place in it. -/
theorem nodup_values (rowOf : V → R) (placeOf : V → P)
    (hkey : ∀ r p v, m.get? r p = some v → rowOf v = r ∧ placeOf v = p) :
    (m.values range).Nodup := by
  have hrow : ∀ r peers, m.lookup r = some peers → m.row r = peers := by
    intro r peers hr
    rw [row, hr, Option.getD_some]
  have hplace : ∀ r peers, m.lookup r = some peers →
      ∀ p v, peers.lookup p = some v → rowOf v = r ∧ placeOf v = p := by
    intro r peers hr p v hv
    exact hkey r p v (by rw [get?, hrow r peers hr, hv])
  unfold values GoMap.values
  rw [List.flatMap_map, List.nodup_flatMap]
  constructor
  · intro entry hmem
    have hlookup : m.lookup entry.1 = some entry.2 :=
      AList.mem_lookup_iff.mpr (((range _).perm m.entries).mem_iff.mp hmem)
    exact List.Nodup.of_map placeOf
      (GoMap.nodup_map_values range entry.2 fun p v hv =>
        (hplace entry.1 entry.2 hlookup p v hv).2)
  · -- two rows share no value, since a value knows its row
    have hkeys : (((range _).order m.entries).map Sigma.fst).Nodup :=
      (((range _).perm m.entries).map Sigma.fst).nodup_iff.mpr m.keys_nodup
    refine (List.pairwise_map.mp hkeys).imp_of_mem ?_
    intro a b ha hb hne v hva hvb
    have hla : m.lookup a.1 = some a.2 :=
      AList.mem_lookup_iff.mpr (((range _).perm m.entries).mem_iff.mp ha)
    have hlb : m.lookup b.1 = some b.2 :=
      AList.mem_lookup_iff.mpr (((range _).perm m.entries).mem_iff.mp hb)
    obtain ⟨p, hp⟩ := (GoMap.mem_values range a.2).mp hva
    obtain ⟨q, hq⟩ := (GoMap.mem_values range b.2).mp hvb
    exact hne ((hplace a.1 a.2 hla p v hp).1.symm.trans (hplace b.1 b.2 hlb q v hq).1)

end Range

end NestedMap

end KubeAtlas.Lib
