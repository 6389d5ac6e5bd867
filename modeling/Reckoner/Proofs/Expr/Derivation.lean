import Reckoner.Expr.Eval

/-!
# Derivations of infix expressions

The grammar of expressions, with its trees as data:

* an expression is a term, or an expression, `+` or `-`, and a term;
* a term is a factor, or a term, `*`, `/` or `%`, and a factor;
* a factor is a number, or an expression in parentheses.

The definitions say what a derivation stands for, without any stack:

* `Derivation.tokens` — the row of tokens that is derived.
* `Derivation.postOrder` — the tree listed in post-order, with the parentheses left out.
* `Derivation.value` — each operator applied to the values of its operands, the left one first.
-/

namespace Reckoner

/-- The categories of the grammar. -/
inductive Category where
  /-- A sum of terms. -/
  | expression
  /-- A product of factors. -/
  | term
  /-- A number or a group. -/
  | factor
  deriving DecidableEq, Repr

/-- How tightly an operator at the top of a tree of the category binds at least. -/
def Category.level : Category → Nat
  | expression => 1
  | term => 2
  | factor => 3

/-- A derivation, with any doubles for numbers. -/
inductive Derivation : Category → Type where
  /-- A number. -/
  | number (v : Binary64) : Derivation .factor
  /-- An expression in parentheses. -/
  | group (e : Derivation .expression) : Derivation .factor
  /-- A factor by itself. -/
  | ofFactor (f : Derivation .factor) : Derivation .term
  /-- A term multiplied or divided by a factor. -/
  | product (t : Derivation .term) (op : Operator) (h : op = .mul ∨ op = .div ∨ op = .rem)
      (f : Derivation .factor) : Derivation .term
  /-- A term by itself. -/
  | ofTerm (t : Derivation .term) : Derivation .expression
  /-- A term added to an expression or subtracted from it. -/
  | sum (e : Derivation .expression) (op : Operator) (h : op = .add ∨ op = .sub)
      (t : Derivation .term) : Derivation .expression

namespace Derivation

/-- The row of tokens that is derived. -/
def tokens {k : Category} : Derivation k → List Token
  | number v => [.number v]
  | group e => .openParen :: e.tokens ++ [.closeParen]
  | ofFactor f => f.tokens
  | product t op _ f => t.tokens ++ .operator op :: f.tokens
  | ofTerm t => t.tokens
  | sum e op _ t => e.tokens ++ .operator op :: t.tokens

/-- The tree in post-order. -/
def postOrder {k : Category} : Derivation k → List Token
  | number v => [.number v]
  | group e => e.postOrder
  | ofFactor f => f.postOrder
  | product t op _ f => t.postOrder ++ f.postOrder ++ [.operator op]
  | ofTerm t => t.postOrder
  | sum e op _ t => e.postOrder ++ t.postOrder ++ [.operator op]

/-- The value of the tree. -/
def value {k : Category} : Derivation k → Binary64
  | number v => v
  | group e => e.value
  | ofFactor f => f.value
  | product t op _ f => op.apply t.value f.value
  | ofTerm t => t.value
  | sum e op _ t => op.apply e.value t.value

end Derivation

end Reckoner
