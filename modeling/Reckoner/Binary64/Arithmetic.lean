import Reckoner.Binary64.Basic

/-!
# Arithmetic on doubles

Each operation takes the exact result of its operands, an integer or a ratio of integers in
units, and rounds it once.  The special values follow the usual rules: a NaN operand, the
difference of two infinities, a product of zero and infinity, and the quotients `0/0` and `∞/∞`
give NaN; a remainder takes the sign of the dividend.
-/

namespace Reckoner

namespace Binary64

/-- A magnitude with its sign. -/
def signed (negative : Bool) (units : Nat) : Int :=
  if negative then -(units : Int) else units

/-- The sum.  An exact sum of zero is `-0` only when both operands are negative. -/
def add : Binary64 → Binary64 → Binary64
  | nan, _ => nan
  | _, nan => nan
  | infinite s, infinite t => if s = t then infinite s else nan
  | infinite s, finite .. => infinite s
  | finite .., infinite t => infinite t
  | finite s u _, finite t v _ =>
    let sum := signed s u + signed t v
    if sum = 0 then finite (s && t) 0 representable_zero
    else ofRatio (sum < 0) sum.natAbs 1

/-- The difference: the sum with the negated subtrahend. -/
def sub (x y : Binary64) : Binary64 := x.add y.neg

/-- The product. -/
def mul : Binary64 → Binary64 → Binary64
  | nan, _ => nan
  | _, nan => nan
  | infinite s, infinite t => infinite (s ^^ t)
  | infinite s, finite t v _ => if v = 0 then nan else infinite (s ^^ t)
  | finite s u _, infinite t => if u = 0 then nan else infinite (s ^^ t)
  | finite s u _, finite t v _ => ofRatio (s ^^ t) (u * v) one

/-- The quotient.  A finite nonzero dividend over zero is an infinity. -/
def div : Binary64 → Binary64 → Binary64
  | nan, _ => nan
  | _, nan => nan
  | infinite _, infinite _ => nan
  | infinite s, finite t _ _ => infinite (s ^^ t)
  | finite s _ _, infinite t => finite (s ^^ t) 0 representable_zero
  | finite s u _, finite t v _ =>
    if v = 0 then (if u = 0 then nan else infinite (s ^^ t))
    else ofRatio (s ^^ t) (u * one) v

/-- The exact remainder of truncated division, with the sign of the dividend. -/
def rem : Binary64 → Binary64 → Binary64
  | nan, _ => nan
  | _, nan => nan
  | infinite _, _ => nan
  | finite s u h, infinite _ => finite s u h
  | finite s u _, finite _ v _ => if v = 0 then nan else ofRatio s (u % v) 1

end Binary64

end Reckoner
