import Mathlib.Data.List.Basic

/-!
# `KubeAtlas.Lib.EvictingCache`: caches that may forget

A cache is known by its operations alone. A lookup returns the
cache, too, since it may change it: an LRU cache remembers what was
used. Nothing is said about which entry makes room for another one.

`CacheOps.Lawful` says what can be relied on, in terms of lookups
only. A value that is found was stored under its key, and what was
just stored or found is found again. Any other entry may be gone at
any time. `Lru.lawful`: an LRU cache is one of these.
-/

set_option autoImplicit false

namespace KubeAtlas.Lib

/-- The operations of a cache from keys to values, which is in one
of the states `S`: a new cache with room for some entries, a lookup
and a store. -/
structure CacheOps (S K V : Type) where
  new : Nat → S
  get : S → K → Option V × S
  add : S → K → V → S

variable {S K V : Type}

/-- What the operations of a cache keep to. -/
structure CacheOps.Lawful (ops : CacheOps S K V) : Prop where
  /-- Nothing is found in a new cache. -/
  get_new : ∀ size k, (ops.get (ops.new size) k).1 = none
  /-- A lookup stores nothing. -/
  of_get : ∀ s k k' v, (ops.get (ops.get s k).2 k').1 = some v → (ops.get s k').1 = some v
  /-- What is found after a store was stored by it, or would have been found before. -/
  of_add : ∀ s k v k' v', (ops.get (ops.add s k v) k').1 = some v' →
    (k' = k ∧ v' = v) ∨ (ops.get s k').1 = some v'
  /-- What was stored last is found. -/
  get_add : ∀ s k v, (ops.get (ops.add s k v) k).1 = some v
  /-- What a lookup has found is found again. -/
  get_get : ∀ s k v, (ops.get s k).1 = some v → (ops.get (ops.get s k).2 k).1 = some v

/-! ### LRU caches -/

/-- A cache that forgets what was used longest ago. The entry that
was used last is the first one. There is always room for it, and for
`spare` other ones. -/
structure Lru (K V : Type) where
  spare : Nat
  entries : List (K × V) := []

namespace Lru

variable [DecidableEq K]

/-- The value that is stored under a key. -/
def find (c : Lru K V) (k : K) : Option V := (c.entries.find? fun e => e.1 = k).map (·.2)

/-- The entry of a key becomes the first one, with the given value. -/
def touch (c : Lru K V) (k : K) (v : V) : Lru K V :=
  { c with entries := (k, v) :: (c.entries.filter fun e => e.1 ≠ k).take c.spare }

/-- The operations of an LRU cache. -/
def ops : CacheOps (Lru K V) K V where
  new size := { spare := size - 1 }
  get c k := (c.find k, (c.find k).elim c (c.touch k))
  add c k v := c.touch k v

/-- The entry that was used last is found. -/
theorem find_touch (c : Lru K V) (k : K) (v : V) : (c.touch k v).find k = some v := by
  simp [find, touch]

/-- To use an entry stores no other one. -/
theorem of_find_touch {c : Lru K V} {k k' : K} {v v' : V}
    (h : (c.touch k v).find k' = some v') : (k' = k ∧ v' = v) ∨ c.find k' = some v' := by
  by_cases hk : k' = k
  · subst hk
    rw [find_touch] at h
    exact .inl ⟨rfl, (Option.some.inj h).symm⟩
  · obtain ⟨e, hfind, rfl⟩ := Option.map_eq_some_iff.mp h
    unfold touch at hfind
    rw [List.find?_cons_of_neg (by simpa using Ne.symm hk)] at hfind
    have hkept := (List.take_prefix _ _).find?_eq_some hfind
    rw [List.find?_filter] at hkept
    refine .inr (Option.map_eq_some_iff.mpr ⟨e, ?_, rfl⟩)
    rw [← hkept]
    congr 1
    ext e
    by_cases he : e.1 = k'
    · simp [he, hk]
    · simp [he]

/-- An LRU cache keeps to the laws. -/
theorem lawful : (ops : CacheOps (Lru K V) K V).Lawful where
  get_new size k := rfl
  of_get c k k' v h := by
    cases hfind : c.find k with
    | none => simpa [ops, hfind] using h
    | some found =>
      rcases of_find_touch (by simpa [ops, hfind] using h) with ⟨rfl, rfl⟩ | hold
      · exact hfind
      · exact hold
  of_add c k v k' v' h := of_find_touch h
  get_add c k v := find_touch c k v
  get_get c k v h := by
    have hfind : c.find k = some v := h
    simp only [ops, hfind]
    exact find_touch c k v

end Lru

end KubeAtlas.Lib
