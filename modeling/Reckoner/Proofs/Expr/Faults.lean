import Mathlib.Data.List.TakeWhile
import Reckoner.Expr.Eval
import Reckoner.Proofs.Text.OneLine

/-!
# Errors are told on one line

An error repeats parts of the expression, but no part with a line feed in it: that is a blank, and
belongs to no numeral.

* `EvalError.IsLine` — an error whose message is one line.
* `Token.isLine_of_scan` — the errors that repeat something are such.
* `isLine_of_evaluate` — and so are all others that an expression can lead to.
-/

namespace Reckoner

namespace EvalError

/-- There is no line feed in the message of the error. -/
def IsLine (e : EvalError) : Prop := '\n' ∉ e.message.toList

theorem isLine_of_reason {e : EvalError} (h : '\n' ∉ e.reason.toList) : e.IsLine :=
  notMem_append (by decide) h

theorem isLine_unexpectedCharacter {c : Char} (hc : c ≠ '\n') (position : Nat) :
    (unexpectedCharacter c position).IsLine := by
  have hchar : '\n' ∉ c.toString.toList := by simp [Ne.symm hc]
  exact isLine_of_reason (notMem_append
    (notMem_append (notMem_append (by decide) hchar) (by decide)) (notMem_toString position))

theorem isLine_malformedNumber {row : List Char} (hrow : '\n' ∉ row) :
    (malformedNumber (String.ofList row)).IsLine :=
  isLine_of_reason (notMem_append (notMem_append (by decide) (notMem_ofList hrow)) (by decide))

theorem isLine_unmatchedClose : unmatchedClose.IsLine := isLine_of_reason (by decide)

theorem isLine_unclosedParen : unclosedParen.IsLine := isLine_of_reason (by decide)

theorem isLine_missingOperand (op : Operator) : (missingOperand op).IsLine := by
  have hsymbol : '\n' ∉ op.symbol.toString.toList := by cases op <;> decide
  exact isLine_of_reason (notMem_append (notMem_append (by decide) hsymbol) (by decide))

theorem isLine_noOperands : noOperands.IsLine := isLine_of_reason (by decide)

theorem isLine_leftoverOperands (count : Nat) : (leftoverOperands count).IsLine :=
  isLine_of_reason (notMem_append (notMem_toString count) (by decide))

end EvalError

/-! ### From text to tokens -/

/-- A numeral is a row of digits and points. -/
theorem Numeral.notMem_row {c : Char} (hc : c.isDigit) (rest : List Char) :
    '\n' ∉ c :: rest.takeWhile holds := by
  rw [List.mem_cons, not_or]
  constructor
  · rintro rfl
    cases hc
  · intro hmem
    cases List.mem_takeWhile_imp hmem

theorem Token.isLine_of_scan {position : Nat} {cs : List Char} {e : EvalError}
    (h : scan position cs = .error e) : e.IsLine := by
  -- An error comes from the rest, unless it is that of the first character or numeral.
  have hrest {rest : Except EvalError (List Token)} {t : Token}
      (h : rest.map (t :: ·) = .error e) : rest = .error e := by
    cases rest with
    | error => exact h
    | ok => cases h
  induction position, cs using scan.induct with
  | case1 => simp [scan] at h
  | case2 position c rest hblank ih =>
    rw [scan, if_pos hblank] at h
    exact ih h
  | case3 position c rest hblank hdigit row =>
    rename_i hnone
    have hvalue : Numeral.value? (c :: rest.takeWhile Numeral.holds) = none := hnone
    rw [scan, if_neg hblank, if_pos hdigit] at h
    simp only [hvalue] at h
    cases h
    exact EvalError.isLine_malformedNumber (Numeral.notMem_row hdigit rest)
  | case4 position c rest hblank hdigit row v =>
    rename_i hsome _ ih
    have hvalue : Numeral.value? (c :: rest.takeWhile Numeral.holds) = some v := hsome
    rw [scan, if_neg hblank, if_pos hdigit] at h
    simp only [hvalue] at h
    exact ih (hrest h)
  | case5 position c rest hblank hdigit hchar =>
    rw [scan, if_neg hblank, if_neg hdigit, hchar] at h
    cases h
    refine EvalError.isLine_unexpectedCharacter ?_ position
    rintro rfl
    exact hblank (by decide)
  | case6 position c rest hblank hdigit t hchar ih =>
    rw [scan, if_neg hblank, if_neg hdigit, hchar] at h
    exact ih (hrest h)

/-! ### From tokens to a value -/

theorem Conversion.isLine_of_close {output : List Token} {waiting : List Waiting} {e : EvalError}
    (h : close output waiting = .error e) : e.IsLine := by
  induction waiting generalizing output with
  | nil =>
    cases h
    exact EvalError.isLine_unmatchedClose
  | cons first rest ih =>
    cases first with
    | operator op => exact ih h
    | group => cases h

theorem Conversion.isLine_of_finish {output : List Token} {waiting : List Waiting} {e : EvalError}
    (h : finish output waiting = .error e) : e.IsLine := by
  induction waiting generalizing output with
  | nil => cases h
  | cons first rest ih =>
    cases first with
    | operator op => exact ih h
    | group =>
      cases h
      exact EvalError.isLine_unclosedParen

theorem Conversion.isLine_of_step {c : Conversion} {t : Token} {e : EvalError}
    (h : c.step t = .error e) : e.IsLine := by
  cases t with
  | closeParen => exact isLine_of_close h
  | number | operator | openParen => cases h

theorem isLine_of_evaluateStep {stack : List Binary64} {t : Token} {e : EvalError}
    (h : evaluateStep stack t = .error e) : e.IsLine := by
  cases t with
  | number v => cases h
  | operator op =>
    rcases stack with _ | ⟨rhs, _ | ⟨lhs, rest⟩⟩
    · cases h
      exact EvalError.isLine_missingOperand op
    · cases h
      exact EvalError.isLine_missingOperand op
    · cases h
  | openParen | closeParen =>
    cases h
    exact EvalError.isLine_unclosedParen

/-- A computation in two steps fails in one of them. -/
theorem error_of_bind {α β : Type} {x : Except EvalError α} {f : α → Except EvalError β}
    {e : EvalError} (h : x >>= f = .error e) : x = .error e ∨ ∃ a, x = .ok a ∧ f a = .error e := by
  cases x with
  | error first =>
    cases h
    exact .inl rfl
  | ok a => exact .inr ⟨a, rfl, h⟩

/-- A run over tokens fails with the error of one of its steps. -/
theorem isLine_of_foldlM {σ : Type} {step : σ → Token → Except EvalError σ}
    (hstep : ∀ {s : σ} {t : Token} {e : EvalError}, step s t = .error e → e.IsLine)
    {tokens : List Token} {s : σ} {e : EvalError} (h : tokens.foldlM step s = .error e) :
    e.IsLine := by
  induction tokens generalizing s with
  | nil => cases h
  | cons t tokens ih =>
    rw [List.foldlM_cons] at h
    rcases error_of_bind h with hfirst | ⟨next, -, hrest⟩
    · exact hstep hfirst
    · exact ih hrest

theorem isLine_of_reversePolish {tokens : List Token} {e : EvalError}
    (h : reversePolish tokens = .error e) : e.IsLine := by
  rcases error_of_bind h with hrun | ⟨c, -, hfinish⟩
  · exact isLine_of_foldlM Conversion.isLine_of_step hrun
  · exact Conversion.isLine_of_finish hfinish

theorem isLine_of_evaluateReversePolish {tokens : List Token} {e : EvalError}
    (h : evaluateReversePolish tokens = .error e) : e.IsLine := by
  rcases error_of_bind h with hrun | ⟨stack, -, hvalue⟩
  · exact isLine_of_foldlM isLine_of_evaluateStep hrun
  · rcases stack with _ | ⟨v, _ | ⟨w, rest⟩⟩
    · cases hvalue
      exact EvalError.isLine_noOperands
    · cases hvalue
    · cases hvalue
      exact EvalError.isLine_leftoverOperands _

/-- **Errors are told on one line**, whatever the expression. -/
theorem isLine_of_evaluate {expression : String} {e : EvalError}
    (h : evaluate expression = .error e) : e.IsLine := by
  rcases error_of_bind h with htokens | ⟨tokens, -, hrest⟩
  · exact Token.isLine_of_scan htokens
  rcases error_of_bind hrest with hrow | ⟨row, -, hvalue⟩
  · exact isLine_of_reversePolish hrow
  · exact isLine_of_evaluateReversePolish hvalue

end Reckoner
