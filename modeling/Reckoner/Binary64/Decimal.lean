import Reckoner.Binary64.Basic

/-!
# Decimal numerals for doubles

Reading takes the digits of a numeral and the count of those after the point, and rounds their
exact value once.  Writing looks for the fewest digits that read back.

* `Binary64.ofDecimal` — the double nearest to `digits / 10 ^ places`.
* `Decimal` — a whole number of tenths, hundredths, … or of tens, hundreds, …, with its positional
  text `Decimal.text`, which never has an exponent.
* `Binary64.shortest` — among the decimals with the fewest digits that read back, the one nearest
  to the value; of two equally near, the larger.
-/

namespace Reckoner

/-! ### Reading -/

/-- The value of one decimal digit. -/
def digitValue (c : Char) : Nat := c.toNat - '0'.toNat

/-- The number that a row of decimal digits stands for. -/
def digitsValue (digits : List Char) : Nat :=
  digits.foldl (fun n c => 10 * n + digitValue c) 0

/-- The double nearest to `digits / 10 ^ places`. -/
def Binary64.ofDecimal (digits places : Nat) : Binary64 :=
  .ofRatio false (digits * one) (Nat.pow 10 places)

/-! ### Positional text -/

/-- A decimal number, `digits * 10 ^ exponent`. -/
structure Decimal where
  /-- The significant digits, read as a number. -/
  digits : Nat
  /-- The power of ten that they count. -/
  exponent : Int
  deriving DecidableEq, Repr

namespace Decimal

/-- The decimal digits of a number, most significant first. -/
def digitRow (n : Nat) : List Char := Nat.toDigits 10 n

/-- Zeros at the end of a row of digits, up to `places` of them, taken away; also how many are
    left of `places`. -/
def dropZeros : Nat → List Char → Nat × List Char
  | places + 1, '0' :: rest => dropZeros places rest
  | places, row => (places, row)

/-- The positional text: zeros fill the gap to the point on either side, and none follow the last
    digit after it. -/
def text (d : Decimal) : List Char :=
  match d.exponent with
  | .ofNat zeros => digitRow d.digits ++ List.replicate zeros '0'
  | .negSucc n =>
    let (places, row) := dropZeros (n + 1) (digitRow d.digits).reverse
    let row := row.reverse
    if places = 0 then row
    else if places < row.length then
      row.take (row.length - places) ++ '.' :: row.drop (row.length - places)
    else '0' :: '.' :: List.replicate (places - row.length) '0' ++ row

end Decimal

/-! ### The shortest digits -/

namespace Binary64

/-- The least `j` with `n < 10 ^ j`, at least one: how many digits `n` has. -/
def digitCount (n : Nat) : Nat := (Decimal.digitRow n).length

/-- The power of ten of the leading digit of `units` units, for `0 < units`. -/
def leadingPower (units : Nat) : Int :=
  if one ≤ units then (digitCount (units / one) : Int) - 1
  else -(digitCount ((one - 1) / units) : Int)

/-- `units` units as a ratio of whole numbers counting `10 ^ exponent`. -/
def scaled (units : Nat) (exponent : Int) : Nat × Nat :=
  match exponent with
  | .ofNat e => (units, one * Nat.pow 10 e)
  | .negSucc e => (units * Nat.pow 10 (e + 1), one)

/-- A decimal rounded back to units. -/
def unitsOf (d : Decimal) : Nat :=
  match d.exponent with
  | .ofNat e => nearest (d.digits * Nat.pow 10 e * one) 1
  | .negSucc e => nearest (d.digits * one) (Nat.pow 10 (e + 1))

/-- The decimal counting `10 ^ exponent` that reads back as `units` units and is nearest to it, if
    any does.  Only the two neighbours of the value on that grid can. -/
def onGrid (units : Nat) (exponent : Int) : Option Decimal :=
  let (num, den) := scaled units exponent
  let below : Decimal := ⟨num / den, exponent⟩
  let above : Decimal := ⟨num / den + 1, exponent⟩
  match unitsOf below == units, unitsOf above == units with
  | true, true => some (if 2 * (num % den) < den then below else above)
  | true, false => some below
  | false, true => some above
  | false, false => none

/-- All digits of `units` units: a unit is `5 ^ 1074` over `10 ^ 1074`. -/
def exactDecimal (units : Nat) : Decimal := ⟨units * Nat.pow 5 1074, -1074⟩

/-- The shortest decimal that reads back as `units` units, for `0 < units`.  Seventeen digits
    always suffice. -/
def shortest (units : Nat) : Decimal :=
  let top := leadingPower units
  ((List.range 17).findSome? fun (n : Nat) => onGrid units (top - n)).getD (exactDecimal units)

end Binary64

end Reckoner
