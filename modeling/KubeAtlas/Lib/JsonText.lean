import KubeAtlas.Lib.Json
import KubeAtlas.Lib.Strings
import Mathlib.Algebra.GroupWithZero.Nat
import Mathlib.Algebra.Order.BigOperators.Group.List

/-!
# `KubeAtlas.Lib.JsonText`: compact JSON text

The text that an encoder without insignificant space writes. How it
escapes a text is a parameter: `escape s` is what stands between the
quotes. An encoder with `Sixfold escape` needs at most six bytes for
each byte, the cost of writing one as a code point in hexadecimal.

The lemmas bound the length of an array and of an object by that of
their parts, with one comma for each part.
-/

set_option autoImplicit false

namespace KubeAtlas.Lib.JsonText

open Lib.Strings (len len_append)

variable (escape : String → String)

/-- No byte takes more than six bytes when it is escaped. -/
def Sixfold : Prop := ∀ s, len (escape s) ≤ 6 * len s

/-- A quoted text. -/
def quoted (s : String) : String := "\"" ++ escape s ++ "\""

/-- Texts with a comma between them. -/
def commas : List String → String
  | [] => ""
  | [s] => s
  | s :: t :: rest => s ++ "," ++ commas (t :: rest)

/-- An array of encoded values. -/
def array (items : List String) : String := "[" ++ commas items ++ "]"

/-- An object with encoded keys and values. -/
def object (members : List (String × String)) : String :=
  "\x7b" ++ commas (members.map fun m => m.1 ++ ":" ++ m.2) ++ "\x7d"

mutual

/-- The text of a value. -/
def encode : Json → String
  | .null => "null"
  | .bool b => if b then "true" else "false"
  | .num n => toString n
  | .str s => quoted escape s
  | .arr items => array (encodeItems items)
  | .obj members => object (encodeMembers members)

/-- The texts of the items of an array. -/
def encodeItems : List Json → List String
  | [] => []
  | v :: vs => encode v :: encodeItems vs

/-- The keys and values of an object. -/
def encodeMembers : List (String × Json) → List (String × String)
  | [] => []
  | (key, v) :: ms => (quoted escape key, encode v) :: encodeMembers ms

end

/-! ### Lengths -/

variable {escape}

/-- A quoted text is at most six times as long, with two quotes. -/
theorem len_quoted_le (h : Sixfold escape) (s : String) :
    len (quoted escape s) ≤ 2 + 6 * len s := by
  have hs := h s
  rw [quoted, len_append, len_append, show len "\"" = 1 by decide]
  omega

/-- A list with commas, where each item pays for one comma. -/
theorem len_commas_le (texts : List String) :
    len (commas texts) ≤ (texts.map fun s => len s + 1).sum := by
  induction texts with
  | nil => exact Nat.zero_le _
  | cons s texts ih =>
    cases texts with
    | nil => simp [commas]
    | cons t rest =>
      rw [commas, len_append, len_append, show len "," = 1 by decide, List.map_cons,
        List.sum_cons]
      omega

/-- An array pays for its brackets and its items. -/
theorem len_array_le (items : List String) :
    len (array items) ≤ 2 + (items.map fun s => len s + 1).sum := by
  have h := len_commas_le items
  rw [array, len_append, len_append, show len "[" = 1 by decide, show len "]" = 1 by decide]
  omega

/-- An object pays for its braces, and each member for a colon and a
comma. -/
theorem len_object_le (members : List (String × String)) :
    len (object members) ≤ 2 + (members.map fun m => len m.1 + len m.2 + 2).sum := by
  have h := len_commas_le (members.map fun m => m.1 ++ ":" ++ m.2)
  have hparts : (members.map fun m => m.1 ++ ":" ++ m.2).map (fun s => len s + 1)
      = members.map fun m => len m.1 + len m.2 + 2 := by
    rw [List.map_map]
    refine List.map_congr_left fun m _ => ?_
    show len (m.1 ++ ":" ++ m.2) + 1 = _
    rw [len_append, len_append, show len ":" = 1 by decide]
    omega
  rw [hparts] at h
  rw [object, len_append, len_append, show len "\x7b" = 1 by decide, show len "\x7d" = 1 by decide]
  omega

variable (escape) in
/-- The length of an array, from the lengths of its items. -/
theorem len_encode_arr_le (items : List Json) :
    len (encode escape (.arr items)) ≤ 2 + (items.map fun v => len (encode escape v) + 1).sum := by
  have hitems : encodeItems escape items = items.map (encode escape) := by
    induction items with
    | nil => rfl
    | cons v vs ih => rw [encodeItems, List.map_cons, ih]
  have h := len_array_le (encodeItems escape items)
  rw [hitems, List.map_map] at h
  rw [encode, hitems]
  exact h

variable (escape) in
/-- The length of an object, from the lengths of its members. -/
theorem len_encode_obj_le (members : List (String × Json)) :
    len (encode escape (.obj members))
      ≤ 2 + (members.map fun m => len (quoted escape m.1) + len (encode escape m.2) + 2).sum := by
  have hmembers : encodeMembers escape members
      = members.map fun m => (quoted escape m.1, encode escape m.2) := by
    induction members with
    | nil => rfl
    | cons m ms ih =>
      rw [encodeMembers, List.map_cons, ih]
  have h := len_object_le (encodeMembers escape members)
  rw [hmembers, List.map_map] at h
  rw [encode, hmembers]
  exact h

end KubeAtlas.Lib.JsonText
