import KubeAtlas.Lib.NestedMap

/-!
# `KubeAtlas.Lib.Objects`: maps of pointers

A Go `map[K]*V` shares its values: whoever holds a pointer sees the
writes of everyone else. The objects are a list here and a pointer
is a position in it, so that allocation appends, a write is
`List.modify`, and two pointers are equal exactly if they are the
same position.

`deref` reads a map of pointers; `addresses` gives the entries of a
map of values one fresh position each, and `bind_lookup_addresses`
says that reading the pointers back yields the values.
-/

set_option autoImplicit false

namespace KubeAtlas.Lib.GoMap

variable {K V W : Type}

/-- The same keys with other values. -/
def mapValues (f : V → W) (m : GoMap K V) : GoMap K W where
  entries := m.entries.map fun e => ⟨e.1, f e.2⟩
  nodupKeys := by
    have hkeys : (m.entries.map fun e => (⟨e.1, f e.2⟩ : Σ _ : K, W)).map Sigma.fst
        = m.entries.map Sigma.fst := by
      rw [List.map_map]
      rfl
    show ((m.entries.map fun e => (⟨e.1, f e.2⟩ : Σ _ : K, W)).map Sigma.fst).Nodup
    rw [hkeys]
    exact m.nodupKeys

/-- The number of entries. -/
def size (m : GoMap K V) : Nat := m.entries.length

/-- Changing values keeps the size. -/
theorem size_mapValues (f : V → W) (m : GoMap K V) : (m.mapValues f).size = m.size := by
  exact List.length_map ..

/-- What the pointers of a map point at. -/
def deref (objects : List V) (m : GoMap K Nat) : GoMap K V where
  entries := m.entries.filterMap fun e => objects[e.2]?.map fun v => ⟨e.1, v⟩
  nodupKeys := by
    have hsub : ((m.entries.filterMap fun e =>
        objects[e.2]?.map fun v => (⟨e.1, v⟩ : Σ _ : K, V)).map Sigma.fst).Sublist
          (m.entries.map Sigma.fst) := by
      induction m.entries with
      | nil => exact List.Sublist.slnil
      | cons e es ih =>
        cases hget : objects[e.2]? with
        | none =>
          rw [List.filterMap_cons_none (by rw [hget]; rfl)]
          exact ih.cons _
        | some v =>
          rw [List.filterMap_cons_some (b := ⟨e.1, v⟩) (by rw [hget]; rfl)]
          exact ih.cons_cons _
    exact hsub.nodup m.nodupKeys

/-- One position for each entry, counted from `base`. -/
def addresses (base : Nat) (m : GoMap K V) : GoMap K Nat where
  entries := (m.entries.zipIdx base).map fun e => ⟨e.1.1, e.2⟩
  nodupKeys := by
    have hkeys : ((m.entries.zipIdx base).map fun e => (⟨e.1.1, e.2⟩ : Σ _ : K, Nat)).map Sigma.fst
        = ((m.entries.zipIdx base).map Prod.fst).map Sigma.fst := by
      rw [List.map_map, List.map_map]
      rfl
    show (((m.entries.zipIdx base).map fun e => (⟨e.1.1, e.2⟩ : Σ _ : K, Nat)).map
      Sigma.fst).Nodup
    rw [hkeys, List.zipIdx_map_fst]
    exact m.nodupKeys

/-- The values in the order of their addresses. -/
def stored (m : GoMap K V) : List V := m.entries.map Sigma.snd

/-- So does giving them addresses. -/
theorem size_addresses (base : Nat) (m : GoMap K V) : (m.addresses base).size = m.size := by
  unfold size addresses
  rw [List.length_map, List.length_zipIdx]

/-- Reading through pointers finds at most one object for each. -/
theorem length_values_deref_le (range : MapOrder) (objects : List V) (m : GoMap K Nat) :
    (values range (m.deref objects)).length ≤ m.size := by
  unfold values
  rw [List.length_map, ((range _).perm _).length_eq]
  exact List.length_filterMap_le _ _

variable [DecidableEq K] {m : GoMap K V} {k : K}

/-- What is found is an entry. -/
theorem lookup_eq_some_iff {v : V} :
    m.lookup k = some v ↔ ⟨k, v⟩ ∈ m.entries :=
  AList.mem_lookup_iff

/-- A changed value is found where the value was. -/
theorem lookup_mapValues (f : V → W) (m : GoMap K V) (k : K) :
    (m.mapValues f).lookup k = (m.lookup k).map f := by
  apply Option.ext
  intro w
  rw [lookup_eq_some_iff, Option.map_eq_some_iff]
  show (⟨k, w⟩ : Σ _ : K, W) ∈ m.entries.map _ ↔ _
  rw [List.mem_map]
  constructor
  · rintro ⟨⟨k', v⟩, hmem, heq⟩
    cases heq
    exact ⟨v, lookup_eq_some_iff.mpr hmem, rfl⟩
  · rintro ⟨v, hget, rfl⟩
    exact ⟨⟨k, v⟩, lookup_eq_some_iff.mp hget, rfl⟩

/-- What an address points at is found under its key. -/
theorem lookup_deref (objects : List V) (m : GoMap K Nat) (k : K) :
    (m.deref objects).lookup k = (m.lookup k).bind fun p => objects[p]? := by
  apply Option.ext
  intro v
  rw [lookup_eq_some_iff, Option.bind_eq_some_iff]
  show (⟨k, v⟩ : Σ _ : K, V) ∈ m.entries.filterMap _ ↔ _
  rw [List.mem_filterMap]
  constructor
  · rintro ⟨⟨k', p⟩, hmem, heq⟩
    obtain ⟨v', hv', heq⟩ := Option.map_eq_some_iff.mp heq
    cases heq
    exact ⟨p, lookup_eq_some_iff.mpr hmem, hv'⟩
  · rintro ⟨p, hget, hv⟩
    exact ⟨⟨k, p⟩, lookup_eq_some_iff.mp hget, by rw [hv]; rfl⟩

variable {base : Nat} {p : Nat}

/-- The address of a key is the position of its entry, from the base
on. -/
theorem lookup_addresses :
    (m.addresses base).lookup k = some p
      ↔ base ≤ p ∧ ∃ v, m.entries[p - base]? = some ⟨k, v⟩ := by
  rw [lookup_eq_some_iff]
  show (⟨k, p⟩ : Σ _ : K, Nat) ∈ (m.entries.zipIdx base).map _ ↔ _
  rw [List.mem_map]
  constructor
  · rintro ⟨⟨⟨k', v⟩, i⟩, hmem, heq⟩
    cases heq
    obtain ⟨hle, hget⟩ := List.mk_mem_zipIdx_iff_le_and_getElem?_sub.mp hmem
    exact ⟨hle, v, hget⟩
  · rintro ⟨hle, v, hget⟩
    exact ⟨(⟨k, v⟩, p), List.mk_mem_zipIdx_iff_le_and_getElem?_sub.mpr ⟨hle, hget⟩, rfl⟩

/-- Fresh addresses lie above the base. -/
theorem le_of_lookup_addresses (h : (m.addresses base).lookup k = some p) :
    base ≤ p ∧ p < base + m.size := by
  obtain ⟨hle, v, hget⟩ := lookup_addresses.mp h
  obtain ⟨hlt, -⟩ := List.getElem?_eq_some_iff.mp hget
  exact ⟨hle, by rw [size]; omega⟩

/-- No two keys share an address. -/
theorem addresses_inj {k k' : K} (h : (m.addresses base).lookup k = some p)
    (h' : (m.addresses base).lookup k' = some p) :
    k = k' := by
  obtain ⟨-, v, hget⟩ := lookup_addresses.mp h
  obtain ⟨-, v', hget'⟩ := lookup_addresses.mp h'
  rw [hget] at hget'
  exact congrArg Sigma.fst (Option.some.inj hget')

/-- A new entry adds one. -/
theorem size_insert_le (k : K) (v : V) (m : GoMap K V) :
    GoMap.size (AList.insert k v m) ≤ m.size + 1 := by
  unfold size
  exact Nat.succ_le_succ (List.kerase_sublist k m.entries).length_le

/-- An entry that is replaced adds none. -/
theorem size_insert_of_lookup {v w : V} (h : m.lookup k = some w) :
    GoMap.size (AList.insert k v m) = m.size := by
  have hmem : k ∈ m.entries.keys := by
    have hsome : (m.lookup k).isSome = true := by rw [h]; rfl
    exact AList.mem_keys.mp (AList.lookup_isSome.mp hsome)
  obtain ⟨w', before, after, -, hsplit, herase⟩ := List.exists_of_kerase hmem
  unfold size
  rw [AList.entries_insert, List.length_cons, herase, hsplit]
  simp only [List.length_append, List.length_cons]
  omega

/-- A new key adds one to the size. -/
theorem size_insert_of_none {v : V} (h : m.lookup k = none) :
    GoMap.size (AList.insert k v m) = m.size + 1 := by
  have hnot : k ∉ m := AList.lookup_eq_none.mp h
  unfold size
  rw [AList.entries_insert_of_notMem hnot, List.length_cons]

/-- Reading freshly allocated objects back. -/
theorem bind_lookup_addresses (objects : List V) (m : GoMap K V) (k : K) :
    ((m.addresses objects.length).lookup k).bind (fun p => (objects ++ m.stored)[p]?)
      = m.lookup k := by
  apply Option.ext
  intro v
  rw [Option.bind_eq_some_iff, lookup_eq_some_iff]
  have hread : ∀ p, objects.length ≤ p →
      (objects ++ m.stored)[p]? = m.entries[p - objects.length]?.map Sigma.snd := by
    intro p hle
    rw [List.getElem?_append_right hle, stored, List.getElem?_map]
  constructor
  · rintro ⟨p, hp, hv⟩
    obtain ⟨hle, v', hget⟩ := lookup_addresses.mp hp
    rw [hread p hle, hget] at hv
    cases hv
    exact List.mem_of_getElem? hget
  · intro hmem
    obtain ⟨i, hget⟩ := List.getElem?_of_mem hmem
    have hpos : objects.length + i - objects.length = i := Nat.add_sub_cancel_left _ _
    refine ⟨objects.length + i,
      lookup_addresses.mpr ⟨Nat.le_add_right _ _, v, by rw [hpos, hget]⟩, ?_⟩
    rw [hread _ (Nat.le_add_right _ _), hpos, hget]
    rfl

/-- Writing one entry for each key of a list. -/
theorem lookup_foldl_insert (f : K → V) (ks : List K) (m : GoMap K V) (k : K) :
    (ks.foldl (fun acc k => AList.insert k (f k) acc) m).lookup k
      = if k ∈ ks then some (f k) else m.lookup k := by
  induction ks generalizing m with
  | nil => simp
  | cons k' ks ih =>
    rw [List.foldl_cons, ih]
    by_cases hk : k ∈ ks
    · rw [if_pos hk, if_pos (List.mem_cons_of_mem _ hk)]
    · rw [if_neg hk]
      by_cases heq : k = k'
      · subst heq
        rw [AList.lookup_insert, if_pos List.mem_cons_self]
      · rw [AList.lookup_insert_ne heq, if_neg (by simp [heq, hk])]

end KubeAtlas.Lib.GoMap

/-! ### Writing objects -/

namespace KubeAtlas.Lib.Objects

variable {α β γ : Type}

/-- An object is an old one, or the one just allocated. -/
theorem getElem?_concat_eq_some {objects : List α} {a b : α} {i : Nat}
    (h : (objects ++ [a])[i]? = some b) :
    objects[i]? = some b ∨ i = objects.length ∧ b = a := by
  rw [List.getElem?_append] at h
  split at h
  · exact Or.inl h
  · rename_i hge
    rw [List.getElem?_singleton] at h
    split at h
    · exact Or.inr ⟨by omega, (Option.some.inj h).symm⟩
    · contradiction

/-- A write that keeps what `view` shows keeps it for all objects. -/
theorem map_modify_of_eq (view : α → β) (f : α → α) (hf : ∀ a, view (f a) = view a)
    (objects : List α) (i : Nat) : (objects.modify i f).map view = objects.map view := by
  apply List.ext_getElem?
  intro j
  rw [List.getElem?_map, List.getElem?_map, List.getElem?_modify]
  cases objects[j]? with
  | none => rfl
  | some a =>
    show some (view (if i = j then f a else a)) = some (view a)
    split
    · rw [hf a]
    · rfl

/-- Writing through several pointers, where a second write changes
nothing. -/
theorem getElem?_foldl_modify {f : α → α} (hf : ∀ a, f (f a) = f a) (p : γ → Bool)
    (pointer : γ → Nat) (es : List γ) (objects : List α) (i : Nat) :
    (es.foldl (fun objects e => if p e then objects.modify (pointer e) f else objects) objects)[i]?
      = if ∃ e ∈ es, p e = true ∧ pointer e = i then objects[i]?.map f else objects[i]? := by
  induction es generalizing objects with
  | nil => simp
  | cons e es ih =>
    rw [List.foldl_cons, ih]
    by_cases he : p e = true ∧ pointer e = i
    · have hwritten : (if p e then objects.modify (pointer e) f else objects)[i]?
          = objects[i]?.map f := by
        rw [if_pos he.1, he.2, List.getElem?_modify_eq]
        rfl
      rw [hwritten, if_pos (show ∃ x ∈ e :: es, p x = true ∧ pointer x = i from
        ⟨e, List.mem_cons_self, he⟩), Option.map_map, show f ∘ f = f from funext hf, ite_self]
    · have hkept : (if p e then objects.modify (pointer e) f else objects)[i]?
          = objects[i]? := by
        split
        · rename_i hp
          exact List.getElem?_modify_ne f objects fun heq => he ⟨hp, heq⟩
        · rfl
      rw [hkept]
      simp [he]

end KubeAtlas.Lib.Objects
