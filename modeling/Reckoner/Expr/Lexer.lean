import Reckoner.Binary64.Decimal
import Reckoner.Expr.Error
import Reckoner.Text.Blank

/-!
# From text to tokens

Blanks separate tokens and are dropped.  A digit begins a numeral, which takes every digit and
point that follows.  All other tokens are single characters.

* `Numeral.value?` — the number a row of digits and points stands for, if it is one.
* `Token.ofText` — the tokens of a text, or the error of its first bad character or numeral.
-/

namespace Reckoner

/-! ### Numerals -/

namespace Numeral

/-- The character belongs to a numeral. -/
def holds (c : Char) : Bool := c.isDigit || c = '.'

/-- The row is a number: at most one point, and not at the end. -/
def isWellFormed (row : List Char) : Bool :=
  row.count '.' ≤ 1 && row.getLast? != some '.'

/-- The number a row of digits stands for, with at most one point in it. -/
def value (row : List Char) : Binary64 :=
  let fraction := (row.dropWhile (· ≠ '.')).drop 1
  .ofDecimal (digitsValue (row.filter (· ≠ '.'))) fraction.length

/-- The number that a row of digits and points stands for, if it is one. -/
def value? (row : List Char) : Option Binary64 :=
  if isWellFormed row then some (value row) else none

end Numeral

/-! ### Tokens -/

namespace Token

/-- The token that a character is by itself. -/
def ofChar? : Char → Option Token
  | '(' => some openParen
  | ')' => some closeParen
  | c => (Operator.ofChar? c).map operator

private theorem length_dropWhile_le {α : Type} (p : α → Bool) :
    ∀ l : List α, (l.dropWhile p).length ≤ l.length
  | [] => Nat.le_refl _
  | a :: l => by
    rw [List.dropWhile_cons]
    split
    · exact Nat.le_succ_of_le (length_dropWhile_le p l)
    · exact Nat.le_refl _

/-- How many bytes a character takes, in all the characters of a row. -/
def byteCount (row : List Char) : Nat := row.foldl (fun n c => n + c.utf8Size) 0

/-- The tokens of a text that begins after `position` bytes. -/
def scan (position : Nat) : List Char → Except EvalError (List Token)
  | [] => .ok []
  | c :: rest =>
    if isBlank c then scan (position + c.utf8Size) rest
    else if c.isDigit then
      let row := c :: rest.takeWhile Numeral.holds
      match Numeral.value? row with
      | none => .error (.malformedNumber (String.ofList row))
      | some v =>
        have := length_dropWhile_le Numeral.holds rest
        (scan (position + byteCount row) (rest.dropWhile Numeral.holds)).map (number v :: ·)
    else match ofChar? c with
      | none => .error (.unexpectedCharacter c position)
      | some t => (scan (position + c.utf8Size) rest).map (t :: ·)
termination_by cs => cs.length
decreasing_by all_goals simp only [List.length_cons]; omega

/-- The tokens of a text. -/
def ofText (text : String) : Except EvalError (List Token) := scan 0 text.toList

end Token

end Reckoner
