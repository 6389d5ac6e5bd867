import Reckoner.Expr.Error

/-!
# Reverse Polish order

In reverse Polish order an operator follows its two operands and no parentheses are needed.

* `Conversion` — the state of reordering: the tokens put out so far, and what still waits for its
  second operand or its closing parenthesis.
* `reversePolish` — reorders a row of infix tokens.  Operators of one precedence group to the left.
* `evaluateReversePolish` — the value of a row in reverse Polish order, on a stack of operands.
-/

namespace Reckoner

/-! ### Reordering -/

/-- What waits while a row of tokens is reordered. -/
inductive Waiting where
  /-- An operator whose second operand is not complete. -/
  | operator (op : Operator)
  /-- A group that is still open. -/
  | group
  deriving DecidableEq

/-- The state of reordering. -/
structure Conversion where
  /-- The tokens put out so far, latest first. -/
  output : List Token
  /-- What waits, innermost first. -/
  waiting : List Waiting
  deriving DecidableEq

namespace Conversion

/-- Nothing seen. -/
def start : Conversion := ⟨[], []⟩

/-- Puts out the waiting operators of the innermost group that bind at least as tightly as
    `least`. -/
def release (least : Nat) (output : List Token) : List Waiting → Conversion
  | .operator op :: rest =>
    if least ≤ op.precedence then release least (.operator op :: output) rest
    else ⟨output, .operator op :: rest⟩
  | waiting => ⟨output, waiting⟩

/-- Puts out the operators of the innermost group and closes it. -/
def close (output : List Token) : List Waiting → Except EvalError Conversion
  | .operator op :: rest => close (.operator op :: output) rest
  | .group :: rest => .ok ⟨output, rest⟩
  | [] => .error .unmatchedClose

/-- Takes the next token. -/
def step (c : Conversion) : Token → Except EvalError Conversion
  | .number v => .ok ⟨.number v :: c.output, c.waiting⟩
  | .operator op =>
    let c := release op.precedence c.output c.waiting
    .ok ⟨c.output, .operator op :: c.waiting⟩
  | .openParen => .ok ⟨c.output, .group :: c.waiting⟩
  | .closeParen => close c.output c.waiting

/-- Puts out everything that waits, once the tokens have ended. -/
def finish (output : List Token) : List Waiting → Except EvalError (List Token)
  | .operator op :: rest => finish (.operator op :: output) rest
  | .group :: _ => .error .unclosedParen
  | [] => .ok output.reverse

end Conversion

/-- The tokens in reverse Polish order. -/
def reversePolish (tokens : List Token) : Except EvalError (List Token) := do
  let c ← tokens.foldlM Conversion.step Conversion.start
  Conversion.finish c.output c.waiting

/-! ### Evaluation -/

/-- Takes one token onto a stack of operands, the latest first. -/
def evaluateStep (stack : List Binary64) : Token → Except EvalError (List Binary64)
  | .number v => .ok (v :: stack)
  | .operator op =>
    match stack with
    | rhs :: lhs :: rest => .ok (op.apply lhs rhs :: rest)
    | _ => .error (.missingOperand op)
  | .openParen | .closeParen => .error .unclosedParen

/-- The value of a row in reverse Polish order. -/
def evaluateReversePolish (tokens : List Token) : Except EvalError Binary64 := do
  match ← tokens.foldlM evaluateStep [] with
  | [] => .error .noOperands
  | [v] => .ok v
  | stack => .error (.leftoverOperands stack.length)

end Reckoner
