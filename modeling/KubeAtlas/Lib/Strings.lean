import Mathlib.Data.List.TakeWhile
import Mathlib.Data.String.Basic

/-!
# `KubeAtlas.Lib.Strings`: the part of Go's `strings` package in use

Go strings are byte sequences; here they are Lean strings, so texts
are valid UTF-8. The separators below are single ASCII characters,
which UTF-8 never uses inside the encoding of another character, and
byte order on UTF-8 is code point order. So `cut`, `splitN` and
`containsAny` on characters, and `<` on `String`, agree with Go's on
bytes. Lengths are byte lengths, as Go's `len` counts them.
-/

set_option autoImplicit false

namespace KubeAtlas.Lib.Strings

/-- Go's `len` of a string: bytes, not characters. -/
def len (s : String) : Nat := s.utf8ByteSize

/-- `strings.ContainsAny`. -/
def containsAny (s : String) (chars : List Char) : Bool :=
  s.toList.any (fun c => chars.contains c)

/-- `strings.Cut` at the first `sep`: the text before it, the text
after it, and whether it occurs. -/
def cut (s : String) (sep : Char) : String × String × Bool :=
  match s.toList.dropWhile (· != sep) with
  | [] => (s, "", false)
  | _ :: after => (String.ofList (s.toList.takeWhile (· != sep)), String.ofList after, true)

/-- `strings.SplitN` for `n ≥ 0`: at most `n` pieces, the last one
unsplit. -/
def splitN (sep : Char) : Nat → String → List String
  | 0, _ => []
  | 1, s => [s]
  | n + 2, s =>
    match cut s sep with
    | (_, _, false) => [s]
    | (before, after, true) => before :: splitN sep (n + 1) after

/-- `strings.Contains`. -/
def contains (s sub : String) : Bool :=
  s.toList.tails.any fun rest => sub.toList.isPrefixOf rest

/-- `strings.HasPrefix`. -/
def hasPrefix (s start : String) : Bool := start.toList.isPrefixOf s.toList

/-- `strings.HasSuffix`. -/
def hasSuffix (s stop : String) : Bool := stop.toList.isSuffixOf s.toList

/-- `s[strings.LastIndex(s, sep)+1:]`: the whole text when `sep`
does not occur. -/
def afterLast (s : String) (sep : Char) : String :=
  String.ofList (s.toList.reverse.takeWhile (· != sep)).reverse

/-- `unicode.IsSpace`. -/
def isSpace (c : Char) : Bool :=
  [0x09, 0x0a, 0x0b, 0x0c, 0x0d, 0x20, 0x85, 0xa0, 0x1680, 0x2028, 0x2029, 0x202f, 0x205f,
    0x3000].contains c.toNat || (0x2000 ≤ c.toNat && c.toNat ≤ 0x200a)

/-- `strings.TrimSpace`. -/
def trimSpace (s : String) : String :=
  String.ofList ((s.toList.dropWhile isSpace).reverse.dropWhile isSpace).reverse

/-- Bytes add up. -/
@[simp] theorem len_append (s t : String) : len (s ++ t) = len s + len t :=
  String.utf8ByteSize_append

/-- A character is in one of the two parts. -/
theorem containsAny_append (s t : String) (chars : List Char) :
    containsAny (s ++ t) chars = (containsAny s chars || containsAny t chars) := by
  simp [containsAny, String.toList_append, List.any_append]

/-- The text has none of the characters. -/
theorem containsAny_eq_false_iff (s : String) (chars : List Char) :
    containsAny s chars = false ↔ ∀ c ∈ s.toList, c ∉ chars := by
  simp [containsAny]

/-- The first separator tells where a list begins and ends. -/
theorem append_cons_inj {α : Type} {sep : α} {xs ys : List α} {xs' ys' : List α} (hxs : sep ∉ xs)
    (hys : sep ∉ ys) (h : xs ++ sep :: xs' = ys ++ sep :: ys') : xs = ys ∧ xs' = ys' := by
  induction xs generalizing ys with
  | nil =>
    cases ys with
    | nil => exact ⟨rfl, (List.cons.inj h).2⟩
    | cons y ys =>
      obtain ⟨rfl, -⟩ := List.cons.inj h
      exact absurd List.mem_cons_self hys
  | cons x xs ih =>
    cases ys with
    | nil =>
      obtain ⟨rfl, -⟩ := List.cons.inj h
      exact absurd List.mem_cons_self hxs
    | cons y ys =>
      obtain ⟨rfl, hrest⟩ := List.cons.inj h
      obtain ⟨rfl, hafter⟩ := ih (fun hmem => hxs (List.mem_cons_of_mem _ hmem))
        (fun hmem => hys (List.mem_cons_of_mem _ hmem)) hrest
      exact ⟨rfl, hafter⟩

/-! ### Separators

A text with a separator in it is `before ++ String.singleton sep ++ after`, where `before`
has none. `cut` finds exactly this form, so everything that is read off a text with `cut`
or `splitN` can be proved by writing the text in it. -/

section Separator

variable {sep : Char} {s before after : String}

/-- The characters of two texts with a separator between them. -/
theorem toList_join (sep : Char) (before after : String) :
    (before ++ String.singleton sep ++ after).toList = before.toList ++ sep :: after.toList := by
  rw [String.toList_append, String.toList_append, String.toList_singleton, List.append_assoc]
  rfl

/-- A text is cut at its first separator in one way. -/
theorem join_inj {before' after' : String} (h : sep ∉ before.toList) (h' : sep ∉ before'.toList)
    (heq : before ++ String.singleton sep ++ after = before' ++ String.singleton sep ++ after') :
    before = before' ∧ after = after' := by
  have hlist := congrArg String.toList heq
  rw [toList_join, toList_join] at hlist
  obtain ⟨hbefore, hafter⟩ := append_cons_inj h h' hlist
  exact ⟨String.toList_inj.mp hbefore, String.toList_inj.mp hafter⟩

/-- A text without the separator is not cut. -/
theorem cut_of_not_mem (h : sep ∉ s.toList) : cut s sep = (s, "", false) := by
  have hdrop : s.toList.dropWhile (· != sep) = [] := by
    rw [List.dropWhile_eq_nil_iff]
    intro c hc
    have hne : c ≠ sep := fun heq => h (heq ▸ hc)
    simpa using hne
  unfold cut
  rw [hdrop]

/-- A text with the separator is cut at the first one. -/
theorem cut_join (h : sep ∉ before.toList) :
    cut (before ++ String.singleton sep ++ after) sep = (before, after, true) := by
  have hbefore : ∀ c ∈ before.toList, (c != sep) = true := by
    intro c hc
    have hne : c ≠ sep := fun heq => h (heq ▸ hc)
    simpa using hne
  -- the loop passes over what comes first, and stops at the separator
  have hdrop : (before.toList ++ sep :: after.toList).dropWhile (· != sep)
      = sep :: after.toList := by
    rw [List.dropWhile_append_of_pos hbefore]
    simp
  have htake : (before.toList ++ sep :: after.toList).takeWhile (· != sep) = before.toList := by
    rw [List.takeWhile_append_of_pos hbefore]
    simp
  unfold cut
  rw [toList_join, hdrop, htake, String.ofList_toList]
  show (before, String.ofList after.toList, true) = _
  rw [String.ofList_toList]

/-- Every text is of one of the two forms. -/
theorem exists_join (sep : Char) (s : String) :
    sep ∉ s.toList ∨
      ∃ before after, sep ∉ before.toList ∧ s = before ++ String.singleton sep ++ after := by
  by_cases h : sep ∈ s.toList
  · obtain ⟨before, after, hsplit, hnot⟩ := List.eq_append_cons_of_mem h
    refine Or.inr ⟨String.ofList before, String.ofList after, ?_, ?_⟩
    · rw [String.toList_ofList]
      exact hnot
    · apply String.toList_inj.mp
      rw [toList_join, String.toList_ofList, String.toList_ofList]
      exact hsplit
  · exact Or.inl h

/-- Three pieces, of which only the last one may have the separator. -/
theorem splitN_three_iff {a b c : String} :
    splitN sep 3 s = [a, b, c] ↔
      sep ∉ a.toList ∧ sep ∉ b.toList ∧
        s = a ++ String.singleton sep ++ (b ++ String.singleton sep ++ c) := by
  constructor
  · intro h
    rcases exists_join sep s with hnone | ⟨a', rest, ha, rfl⟩
    · rw [splitN, cut_of_not_mem hnone] at h
      simp at h
    · rw [splitN, cut_join ha] at h
      change a' :: splitN sep 2 rest = _ at h
      rcases exists_join sep rest with hnone | ⟨b', c', hb, rfl⟩
      · rw [splitN, cut_of_not_mem hnone] at h
        simp at h
      · rw [splitN, cut_join hb] at h
        obtain ⟨rfl, rfl, rfl⟩ := h
        exact ⟨ha, hb, rfl⟩
  · rintro ⟨ha, hb, rfl⟩
    rw [splitN, cut_join ha]
    show a :: splitN sep 2 _ = _
    rw [splitN, cut_join hb]
    rfl

end Separator

/-- A separator that does not occur before itself is found again. -/
theorem append_slash_inj {s t s' t' : String} (hs : '/' ∉ s.toList) (ht : '/' ∉ t.toList)
    (h : s ++ "/" ++ s' = t ++ "/" ++ t') : s = t ∧ s' = t' :=
  join_inj hs ht h

end KubeAtlas.Lib.Strings
