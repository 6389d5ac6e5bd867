import Reckoner.Binary64.Arithmetic

/-!
# Tokens of arithmetic expressions

* `Operator` — the five binary operators with their symbols, precedences and meanings.
* `Token` — numbers, operators and parentheses.
-/

namespace Reckoner

/-- A binary operator. -/
inductive Operator where
  /-- Addition. -/
  | add
  /-- Subtraction. -/
  | sub
  /-- Multiplication. -/
  | mul
  /-- Division. -/
  | div
  /-- Remainder of truncated division. -/
  | rem
  deriving DecidableEq, Repr

namespace Operator

/-- The character that writes the operator. -/
def symbol : Operator → Char
  | add => '+'
  | sub => '-'
  | mul => '*'
  | div => '/'
  | rem => '%'

/-- The operator that a character writes. -/
def ofChar? : Char → Option Operator
  | '+' => some add
  | '-' => some sub
  | '*' => some mul
  | '/' => some div
  | '%' => some rem
  | _ => none

/-- How tightly the operator binds: sums loosest. -/
def precedence : Operator → Nat
  | add | sub => 1
  | mul | div | rem => 2

/-- The operator's value on two operands. -/
def apply : Operator → Binary64 → Binary64 → Binary64
  | add => Binary64.add
  | sub => Binary64.sub
  | mul => Binary64.mul
  | div => Binary64.div
  | rem => Binary64.rem

theorem symbol_of_ofChar? {c : Char} {op : Operator} (h : ofChar? c = some op) :
    op.symbol = c := by
  unfold ofChar? at h
  split at h <;> simp_all [symbol]
  all_goals subst h; rfl

end Operator

/-- One token of an expression. -/
inductive Token where
  /-- A number. -/
  | number (value : Binary64)
  /-- An operator. -/
  | operator (op : Operator)
  /-- An opening parenthesis. -/
  | openParen
  /-- A closing parenthesis. -/
  | closeParen
  deriving DecidableEq

end Reckoner
