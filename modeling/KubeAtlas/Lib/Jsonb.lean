import KubeAtlas.Lib.Json
import KubeAtlas.Lib.Strings
import Mathlib.Algebra.GroupWithZero.Nat
import Mathlib.Algebra.Order.BigOperators.Group.List

/-!
# `KubeAtlas.Lib.Jsonb`: the `jsonb` type of PostgreSQL

The operators and functions on `jsonb` that queries use, as the
manual describes them. SQL's `NULL` is `none`, which is not the JSON
value `null`. A `jsonb` object keeps its keys in an order of its
own; here the members stay in the order they were built in, since
nothing reads an object but by its keys, and its text has the same
length in any order.

`render` is the text of a value. It escapes a character into at most
six bytes for each byte of its encoding (`len_quote_le`), which is
the bound that byte budgets work with.
-/

set_option autoImplicit false

namespace KubeAtlas.Lib.Jsonb

open Lib.Strings (len len_append)

/-- The results of `jsonb_typeof`. -/
inductive JsonType where
  | null
  | boolean
  | number
  | string
  | array
  | object
  deriving DecidableEq, Repr

/-- `jsonb_typeof`. -/
def typeOf : Json → JsonType
  | .null => .null
  | .bool _ => .boolean
  | .num _ => .number
  | .str _ => .string
  | .arr _ => .array
  | .obj _ => .object

/-- The operator `->` with a key: `NULL` for a missing key, and for
a value that is not an object. -/
def get (value : Json) (key : String) : Option Json := value.members?.bind (List.lookup key)

/-! ### Text -/

/-- The characters with an escape of two bytes. -/
def shortEscapes : List (Char × String) :=
  [('"', "\\\""), ('\\', "\\\\"), ('\n', "\\n"), ('\r', "\\r"), ('\t', "\\t"),
    (Char.ofNat 8, "\\b"), (Char.ofNat 12, "\\f")]

/-- The escape of a character within a quoted text. -/
def escapeChar (c : Char) : String :=
  match shortEscapes.lookup c with
  | some s => s
  | none =>
    if c.toNat < 32 then
      "\\u00" ++ String.singleton (Nat.digitChar (c.toNat / 16)) ++
        String.singleton (Nat.digitChar (c.toNat % 16))
    else String.singleton c

/-- The characters of a text, escaped. -/
def escape : List Char → String
  | [] => ""
  | c :: cs => escapeChar c ++ escape cs

/-- A quoted text. -/
def quote (s : String) : String := "\"" ++ escape s.toList ++ "\""

/-- Texts with a comma and a blank between them. -/
def commaSep : List String → String
  | [] => ""
  | [s] => s
  | s :: t :: rest => s ++ ", " ++ commaSep (t :: rest)

mutual

/-- The cast of a value to `text`. -/
def render : Json → String
  | .null => "null"
  | .bool b => if b then "true" else "false"
  | .num n => toString n
  | .str s => quote s
  | .arr items => "[" ++ commaSep (renderItems items) ++ "]"
  | .obj members => "\x7b" ++ commaSep (renderMembers members) ++ "\x7d"

/-- The texts of the items of an array. -/
def renderItems : List Json → List String
  | [] => []
  | v :: vs => render v :: renderItems vs

/-- The texts of the members of an object. -/
def renderMembers : List (String × Json) → List String
  | [] => []
  | (key, v) :: ms => (quote key ++ ": " ++ render v) :: renderMembers ms

end

/-- The operator `->>` with a key. A JSON `null` becomes `NULL`, and
a text loses its quotes. -/
def getText (value : Json) (key : String) : Option String :=
  match get value key with
  | none => none
  | some .null => none
  | some (.str s) => some s
  | some v => some (render v)

/-! ### Building values -/

/-- A text as `jsonb`, with `NULL` as the JSON value. -/
def ofText : Option String → Json
  | none => .null
  | some s => .str s

mutual

/-- `jsonb_strip_nulls`. -/
def stripNulls : Json → Json
  | .arr items => .arr (stripItems items)
  | .obj members => .obj (stripMembers members)
  | v => v

def stripItems : List Json → List Json
  | [] => []
  | v :: vs => stripNulls v :: stripItems vs

def stripMembers : List (String × Json) → List (String × Json)
  | [] => []
  | (key, v) :: ms =>
    if typeOf v = .null then stripMembers ms else (key, stripNulls v) :: stripMembers ms

end

/-- The operator `||` on objects: the right one prevails. -/
def concat (left right : List (String × Json)) : List (String × Json) :=
  (left.filter fun m => (right.lookup m.1).isNone) ++ right

/-! ### Reading members -/

/-- A member that is a text, or is not there. -/
theorem getText_of_get {value : Json} {key : String} {text : Option String}
    (h : get value key = text.map Json.str) : getText value key = text := by
  unfold getText
  rw [h]
  cases text <;> rfl

/-! ### The length of a text -/

/-- A character is as long as its encoding. -/
theorem len_singleton (c : Char) : len (String.singleton c) = c.utf8Size := by
  unfold len
  rw [String.utf8ByteSize_singleton]

/-- A hexadecimal digit is one byte. -/
theorem len_digitChar {n : Nat} (h : n < 16) : len (String.singleton (Nat.digitChar n)) = 1 := by
  revert n
  decide

/-- An escape is at most six times as long as the character. -/
theorem len_escapeChar_le (c : Char) : len (escapeChar c) ≤ 6 * c.utf8Size := by
  have hpos : 0 < c.utf8Size := c.utf8Size_pos
  unfold escapeChar
  cases hshort : shortEscapes.lookup c with
  | some s =>
    have htwo : ∀ entry ∈ shortEscapes, len entry.2 = 2 := by decide
    obtain ⟨before, after, hsplit, -⟩ := List.lookup_eq_some_iff.mp hshort
    have hlen : len s = 2 := htwo (c, s) (hsplit ▸ List.mem_append_right _ List.mem_cons_self)
    show len s ≤ _
    omega
  | none =>
    show len (if c.toNat < 32 then _ else _) ≤ _
    split
    · rename_i hcontrol
      rw [len_append, len_append, len_digitChar (by omega), len_digitChar (by omega),
        show len "\\u00" = 4 by decide]
      omega
    · rw [len_singleton]
      omega

/-- So is the escaped text. -/
theorem len_escape_le (cs : List Char) : len (escape cs) ≤ 6 * len (String.ofList cs) := by
  induction cs with
  | nil => exact Nat.zero_le _
  | cons c cs ih =>
    have hc := len_escapeChar_le c
    rw [escape, String.ofList_cons, len_append, len_append, len_singleton]
    omega

/-- The quotes come on top. -/
theorem len_quote_le (s : String) : len (quote s) ≤ 2 + 6 * len s := by
  have h := len_escape_le s.toList
  rw [String.ofList_toList] at h
  rw [quote, len_append, len_append, show len "\"" = 1 by decide]
  omega

/-- A separator for each text is more than enough. -/
theorem len_commaSep_le (texts : List String) :
    len (commaSep texts) ≤ (texts.map fun s => len s + 2).sum := by
  induction texts with
  | nil => exact Nat.zero_le _
  | cons s texts ih =>
    cases texts with
    | nil => simp [commaSep]
    | cons t rest =>
      rw [commaSep, len_append, len_append, show len ", " = 2 by decide]
      rw [List.map_cons, List.sum_cons]
      omega

/-- The length of the members of an object, each with a separator. -/
def membersLen (members : List (String × Json)) : Nat :=
  (members.map fun m => len (quote m.1) + 4 + len (render m.2)).sum

/-- A member pays for its key, a colon, a comma and two blanks, and
its value. -/
theorem membersLen_cons (key : String) (v : Json) (members : List (String × Json)) :
    membersLen ((key, v) :: members)
      = len (quote key) + 4 + len (render v) + membersLen members := by
  unfold membersLen
  rw [List.map_cons, List.sum_cons]

/-- The members of two objects. -/
theorem membersLen_append (ms ms' : List (String × Json)) :
    membersLen (ms ++ ms') = membersLen ms + membersLen ms' := by
  unfold membersLen
  rw [List.map_append, List.sum_append]

/-- An object pays for its braces and its members. -/
theorem len_render_obj_le (members : List (String × Json)) :
    len (render (.obj members)) ≤ 2 + membersLen members := by
  have hmembers : ((renderMembers members).map fun s => len s + 2).sum = membersLen members := by
    induction members with
    | nil => rfl
    | cons m members ih =>
      rw [renderMembers, List.map_cons, List.sum_cons, membersLen_cons, ih, len_append, len_append,
        show len ": " = 2 by decide]
      omega
  have hsep := len_commaSep_le (renderMembers members)
  rw [render, len_append, len_append, show len "\x7b" = 1 by decide,
    show len "\x7d" = 1 by decide]
  omega

/-- The length of an array is at most that of its items. -/
theorem len_render_arr_le (items : List Json) :
    len (render (.arr items)) ≤ 2 + (items.map fun v => len (render v) + 2).sum := by
  have hitems : (renderItems items).map (fun s => len s + 2)
      = items.map fun v => len (render v) + 2 := by
    induction items with
    | nil => rfl
    | cons v items ih => rw [renderItems, List.map_cons, List.map_cons, ih]
  have hsep := len_commaSep_le (renderItems items)
  rw [hitems] at hsep
  rw [render, len_append, len_append, show len "[" = 1 by decide, show len "]" = 1 by decide]
  omega

end KubeAtlas.Lib.Jsonb
