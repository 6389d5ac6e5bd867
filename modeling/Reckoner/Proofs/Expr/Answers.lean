import Reckoner.Proofs.Binary64.Printing
import Reckoner.Proofs.Expr.Written

/-!
# Answers can be asked again

The answer for a finite value is a numeral, after a minus sign if the value is below zero.  As an
expression a numeral is its number.  An expression cannot begin with a minus sign, so the answer
for a value below zero is fed back as what is taken from zero.

* `Binary64.FedBack` — what an answer is, and what it is evaluated to.
* `Binary64.fedBack` — all this holds of every finite value.
-/

namespace Reckoner

namespace Numeral

/-! ### Numerals as words -/

/-- A numeral stands for one number. -/
theorem Denotes.unique {row : List Char} {v w : Binary64} (hv : Denotes row v)
    (hw : Denotes row w) : v = w := by
  have hvalue := hv.value?
  rw [hw.value?] at hvalue
  exact (Option.some.inj hvalue).symm

/-- A numeral has no sign. -/
theorem Denotes.ne_minus {row rest : List Char} {v : Binary64} (h : Denotes row v) :
    row ≠ '-' :: rest := by
  rintro rfl
  obtain ⟨c, later, heq, hdigit, -⟩ := Token.cons_of_denotes h
  cases heq
  cases hdigit

theorem denotes_zero : Denotes ['0'] Binary64.zero := by
  rw [← Binary64.magnitudeText_zero]
  exact Binary64.denotes_magnitudeText Binary64.representable_zero

/-- A numeral is evaluated to its number. -/
theorem Denotes.evaluate {row : List Char} {v : Binary64} (h : Denotes row v) :
    Reckoner.evaluate (String.ofList row) = .ok v := by
  have hrow := spaced_flatten [row]
  rw [List.flatten_singleton] at hrow
  exact Derivation.evaluate_of_spaced (.ofTerm (.ofFactor (.number v)))
    (.cons (.number h) .nil) hrow

/-- So is what is written behind `0-`, but taken from zero. -/
theorem Denotes.evaluate_from_zero {row : List Char} {v : Binary64} (h : Denotes row v) :
    Reckoner.evaluate (String.ofList ('0' :: '-' :: row)) = .ok (Binary64.zero.sub v) := by
  have hrow := spaced_flatten [['0'], ['-'], row]
  rw [List.flatten_cons, List.flatten_cons, List.flatten_singleton] at hrow
  exact Derivation.evaluate_of_spaced
    (.sum (.ofTerm (.ofFactor (.number .zero))) .sub (.inr rfl) (.ofFactor (.number v)))
    (.cons (.number denotes_zero) (.cons (.operator .sub) (.cons (.number h) .nil))) hrow

end Numeral

namespace Binary64

/-- What is taken from zero changes its sign. -/
theorem zero_sub {units : Nat} (h : Representable units) (hsome : units ≠ 0) :
    zero.sub (.finite false units h) = .finite true units h := by
  have hsum : signed false 0 + signed true units = -(units : Int) := Int.zero_add _
  have hself : ofRatio true (units * 1) 1 = .finite true units h :=
    ofRatio_of_representable Nat.one_pos h
  rw [sub, neg, zero, Bool.not_false, add, hsum, if_neg (by omega), Int.natAbs_neg,
    Int.natAbs_natCast, decide_eq_true (by omega)]
  rwa [Nat.mul_one] at hself

/-! ### The answers for finite values -/

/-- The answer for a finite value is the numeral of its magnitude, behind a sign if the value is
    below zero. -/
theorem toList_result (negative : Bool) {units : Nat} (h : Representable units) :
    (result (.finite negative units h)).toList
      = if negative = true ∧ units ≠ 0 then '-' :: magnitudeText units
        else magnitudeText units := by
  rw [result, String.toList_ofList]
  split <;> rfl

theorem toList_result_of_not_neg {negative : Bool} {units : Nat} (h : Representable units)
    (hsign : ¬(negative = true ∧ units ≠ 0)) :
    (result (.finite negative units h)).toList = magnitudeText units := by
  rw [toList_result, if_neg hsign]

theorem toList_result_of_neg {negative : Bool} {units : Nat} (h : Representable units)
    (hsign : negative = true ∧ units ≠ 0) :
    (result (.finite negative units h)).toList = '-' :: magnitudeText units := by
  rw [toList_result, if_pos hsign]

/-- A value that is not below zero is what its answer is evaluated to, but for the sign of zero. -/
theorem evaluate_result {negative : Bool} {units : Nat} (h : Representable units)
    (hsign : ¬(negative = true ∧ units ≠ 0)) :
    evaluate (result (.finite negative units h)) = .ok (.finite false units h) := by
  rw [← String.ofList_toList (s := result _), toList_result_of_not_neg h hsign]
  exact (denotes_magnitudeText h).evaluate

/-- A value below zero is what is evaluated if its answer is taken from zero. -/
theorem evaluate_from_zero_result {units : Nat} (h : Representable units) (hsome : units ≠ 0) :
    evaluate ("0" ++ result (.finite true units h)) = .ok (.finite true units h) := by
  have htext : "0" ++ result (.finite true units h)
      = String.ofList ('0' :: '-' :: magnitudeText units) := by
    rw [← String.toList_inj, String.toList_append, String.toList_ofList,
      toList_result_of_neg h ⟨rfl, hsome⟩, String.toList_ofList]
    rfl
  rw [htext, ← zero_sub h hsome]
  exact (denotes_magnitudeText h).evaluate_from_zero

/-- Zero is answered without a sign. -/
theorem result_ne_signed_zero (negative : Bool) {units : Nat} (h : Representable units) :
    result (.finite negative units h) ≠ "-0" := by
  intro hsame
  have hrow := denotes_magnitudeText h
  have hchars := congrArg String.toList hsame
  by_cases hsign : negative = true ∧ units ≠ 0
  · rw [toList_result_of_neg h hsign] at hchars
    have hzero : magnitudeText units = ['0'] := List.tail_eq_of_cons_eq hchars
    rw [hzero] at hrow
    cases hrow.unique Numeral.denotes_zero
    exact hsign.2 rfl
  · rw [toList_result_of_not_neg h hsign] at hchars
    exact hrow.ne_minus hchars

/-- Finite values with one answer are the same, but for the sign of zero. -/
theorem eq_of_result_eq {negative negative' : Bool} {units units' : Nat} (h : Representable units)
    (h' : Representable units')
    (hsame : result (.finite negative' units' h') = result (.finite negative units h)) :
    units' = units ∧ (units ≠ 0 → negative' = negative) := by
  have hrow := denotes_magnitudeText h
  have hrow' := denotes_magnitudeText h'
  have hchars := congrArg String.toList hsame
  by_cases hsign : negative = true ∧ units ≠ 0
  · by_cases hsign' : negative' = true ∧ units' ≠ 0
    · rw [toList_result_of_neg h hsign, toList_result_of_neg h' hsign'] at hchars
      rw [List.tail_eq_of_cons_eq hchars] at hrow'
      cases hrow.unique hrow'
      exact ⟨rfl, fun _ => hsign'.1.trans hsign.1.symm⟩
    · rw [toList_result_of_neg h hsign, toList_result_of_not_neg h' hsign'] at hchars
      exact absurd hchars hrow'.ne_minus
  · by_cases hsign' : negative' = true ∧ units' ≠ 0
    · rw [toList_result_of_not_neg h hsign, toList_result_of_neg h' hsign'] at hchars
      exact absurd hchars.symm hrow.ne_minus
    · rw [toList_result_of_not_neg h hsign, toList_result_of_not_neg h' hsign'] at hchars
      rw [hchars] at hrow'
      cases hrow.unique hrow'
      refine ⟨rfl, fun hsome => ?_⟩
      have hpositive {s : Bool} (hs : ¬(s = true ∧ units ≠ 0)) : s = false :=
        Bool.eq_false_iff.mpr fun hneg => hs ⟨hneg, hsome⟩
      exact (hpositive hsign').trans (hpositive hsign).symm

/-! ### Feeding back -/

/-- What the answer for a finite value is, and what it is evaluated to, given the sign and the
    magnitude of the value. -/
structure FedBack (negative : Bool) {units : Nat} (h : Representable units) : Prop where
  /-- The answer is digits, perhaps with a point between two of them, and before them a sign if the
      value is below zero. -/
  form : ∃ row, Numeral.Denotes row (.finite false units h) ∧
    (result (.finite negative units h)).toList
      = if negative = true ∧ units ≠ 0 then '-' :: row else row
  /-- Zero is answered without a sign. -/
  unsigned : result (.finite negative units h) ≠ "-0"
  /-- A value without a sign is read back. -/
  atLeastZero : negative = false →
    evaluate (result (.finite negative units h)) = .ok (.finite negative units h)
  /-- Either zero is read back as the one without a sign. -/
  ofZero : units = 0 → evaluate (result (.finite negative units h)) = .ok zero
  /-- A value below zero is read back behind a zero. -/
  belowZero : negative = true → units ≠ 0 →
    evaluate ("0" ++ result (.finite negative units h)) = .ok (.finite negative units h)
  /-- No other finite value has the answer, but for the sign of zero. -/
  injective : ∀ (negative' : Bool) {units' : Nat} (h' : Representable units'),
    result (.finite negative' units' h') = result (.finite negative units h) →
      units' = units ∧ (units ≠ 0 → negative' = negative)

/-- **Answers can be asked again.** The answer for a finite value is a numeral, behind a sign if the
    value is below zero, and evaluating it gives the value back. -/
theorem fedBack (negative : Bool) {units : Nat} (h : Representable units) :
    FedBack negative h := by
  refine ⟨⟨_, denotes_magnitudeText h, toList_result negative h⟩, result_ne_signed_zero negative h,
    ?_, ?_, ?_, fun _ _ h' => eq_of_result_eq h h'⟩
  · rintro rfl
    exact evaluate_result h (by simp)
  · rintro rfl
    exact evaluate_result h (by simp)
  · rintro rfl hsome
    exact evaluate_from_zero_result h hsome

/-- The sum of `0.1` and `0.2` is not `0.3`, and its negative is told from `-0.3`. -/
theorem fedBack_sum_of_tenths :
    ∃ h : Representable (5404319552844596 * twoPow 1020),
      FedBack true h ∧ result (.finite true _ h) = "-0.30000000000000004" ∧
        evaluate "0-0.30000000000000004" = .ok (.finite true _ h) := by
  have h : Representable (5404319552844596 * twoPow 1020) := by decide +kernel
  have hsome : 5404319552844596 * twoPow 1020 ≠ 0 := by decide +kernel
  have hresult : result (.finite true _ h) = "-0.30000000000000004" := by decide +kernel +revert
  have hback := fedBack true h
  refine ⟨h, hback, hresult, ?_⟩
  have heval := hback.belowZero rfl hsome
  rwa [hresult] at heval

end Binary64

end Reckoner
