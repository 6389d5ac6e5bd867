/-!
# Repetition

A step is repeated as long as it is possible.

* `exhaust` — the repetition, with a bound that no repetition reaches that is made use of.
* `exhaust_induction` — what a step keeps, its repetition keeps.
-/

namespace Reckoner

/-- More steps than anything takes that is repeated until it has to wait. -/
def patience : Nat := Nat.pow 10 12

/-- Repeats a step as long as it is possible. -/
def exhaust (step : α → Option α) : (fuel : Nat) → α → α
  | 0, a => a
  | fuel + 1, a =>
    match step a with
    | none => a
    | some a => exhaust step fuel a

/-- What a step keeps, its repetition keeps. -/
theorem exhaust_induction {step : α → Option α} {P : α → Prop}
    (keep : ∀ a b, step a = some b → P a → P b) (fuel : Nat) (a : α) (h : P a) :
    P (exhaust step fuel a) := by
  induction fuel generalizing a with
  | zero => exact h
  | succ fuel ih =>
    unfold exhaust
    split
    · exact h
    · rename_i b hb; exact ih b (keep a b hb h)

end Reckoner
