import Reckoner.Expr.Token

/-!
# Why an expression is rejected

`EvalError` names the causes.  The cause is kept for logs and observers; a client is told the same
words for each of them.
-/

namespace Reckoner

/-- The cause of a failed evaluation. -/
inductive EvalError where
  /-- A character that begins no token, and how many bytes stand before it. -/
  | unexpectedCharacter (ch : Char) (position : Nat)
  /-- A row of digits and points that is no number. -/
  | malformedNumber (literal : String)
  /-- A closing parenthesis with no open one to close. -/
  | unmatchedClose
  /-- An opening parenthesis that is never closed. -/
  | unclosedParen
  /-- An operator with fewer than two operands before it. -/
  | missingOperand (op : Operator)
  /-- No operand at all. -/
  | noOperands
  /-- More than one value at the end. -/
  | leftoverOperands (count : Nat)
  deriving DecidableEq

namespace EvalError

/-- The cause in words. -/
def reason : EvalError → String
  | unexpectedCharacter ch position =>
    "unexpected character '" ++ ch.toString ++ "' at position " ++ toString position
  | malformedNumber literal => "malformed number '" ++ literal ++ "'"
  | unmatchedClose => "closing parenthesis without matching '('"
  | unclosedParen => "'(' is never closed"
  | missingOperand op => "operator '" ++ op.symbol.toString ++ "' is missing an operand"
  | noOperands => "expression is empty"
  | leftoverOperands count => toString count ++ " values left after evaluation (expected 1)"

/-- What a client is told, whatever the cause. -/
def clientMessage : String := "Invalid Expression Format"

/-- The message for logs: the client's words and the cause. -/
def message (e : EvalError) : String := clientMessage ++ ": " ++ e.reason

end EvalError

end Reckoner
