import Mathlib.Data.List.Basic

/-!
# `KubeAtlas.Lib.Json`: JSON values

The values `encoding/json` decodes into Go's `any`. An object is the
list of its members; a member is read by its first occurrence, so a
list with distinct keys is a Go map. A Go value can also hold a nil
map or a nil slice behind `any`, which no JSON text decodes to; such
values are not represented.
-/

set_option autoImplicit false

namespace KubeAtlas.Lib

/-- A JSON value. Numbers carry no meaning anywhere in this
development, so an integer stands for them. -/
inductive Json where
  | null
  | bool (value : Bool)
  | num (value : Int)
  | str (value : String)
  | arr (items : List Json)
  | obj (members : List (String × Json))

namespace Json

/-- The Go type assertion `value.(string)`, with `""` when it fails. -/
def text : Json → String
  | .str s => s
  | _ => ""

/-- `value.(string)`: the text, when the value is one. -/
def str? : Json → Option String
  | .str s => some s
  | _ => none

/-- `value.(bool)`: the flag, when the value is one. -/
def bool? : Json → Option Bool
  | .bool b => some b
  | _ => none

/-- `value.(map[string]any)`: the members, when the value is an
object. -/
def members? : Json → Option (List (String × Json))
  | .obj ms => some ms
  | _ => none

/-- `value.([]any)`: the items, when the value is an array. -/
def items? : Json → Option (List Json)
  | .arr xs => some xs
  | _ => none

end Json

end KubeAtlas.Lib
