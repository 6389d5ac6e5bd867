import Reckoner.Expr.Lexer
import Reckoner.Expr.ReversePolish

/-!
# Evaluating expressions

* `evaluate` — the value of an expression, or why it has none.
* `Binary64.result` — a value as it is answered: whole numbers below `2⁶³` in magnitude by all
  their digits, other finite values by their shortest decimal, and the rest by name.
-/

namespace Reckoner

/-- The value of an expression. -/
def evaluate (expression : String) : Except EvalError Binary64 := do
  let tokens ← Token.ofText expression
  let reordered ← reversePolish tokens
  evaluateReversePolish reordered

namespace Binary64

/-- A magnitude as it is answered: as a whole number if it is one below `2⁶³`, else by its
    shortest decimal. -/
def magnitudeText (units : Nat) : List Char :=
  if units % one = 0 ∧ units < twoPow 63 * one then Decimal.digitRow (units / one)
  else (shortest units).text

/-- A value as it is answered.  Zero has no sign. -/
def result : Binary64 → String
  | nan => "NaN"
  | infinite negative => if negative then "-Infinity" else "Infinity"
  | finite negative units _ =>
    String.ofList ((if negative ∧ units ≠ 0 then ['-'] else []) ++ magnitudeText units)

end Binary64

end Reckoner
