import Reckoner.Proofs.Expr.Answers

/-!
# Expressions of whole numbers

Sums, differences, products and remainders of whole numbers are answered exactly, as long as no
literal and no intermediate result is larger than `2⁵³`.

* `Binary64.IsWhole.apply` — on doubles that stand for whole numbers, an operator is exact.
* `Whole` — the derivations without a point and without quotients, with the rows of digits that
  are their literals.
* `Whole.value` — the exact value, `Whole.Fits` — nothing in it is too large.
* `Whole.isWhole_value` — the doubles of the evaluation stand for the exact values.
* `Whole.evaluate_exact` — the answer is the decimal text of the exact value.
-/

namespace Reckoner

/-! ### Operators on whole numbers -/

/-- The operator on whole numbers.  Quotients and remainders are truncated. -/
def Operator.onWhole : Operator → Int → Int → Int
  | add, a, b => a + b
  | sub, a, b => a - b
  | mul, a, b => a * b
  | div, a, b => a.tdiv b
  | rem, a, b => a.tmod b

/-- An operator on doubles that stand for whole numbers is the operator on these, as long as the
    result is not too large. -/
theorem Binary64.IsWhole.apply {op : Operator} {u v : Binary64} {a b : Int} (hop : op ≠ .div)
    (hu : u.IsWhole a) (hv : v.IsWhole b) (hb : op = .rem → b ≠ 0)
    (hfits : (op.onWhole a b).natAbs ≤ 2 ^ 53) : (op.apply u v).IsWhole (op.onWhole a b) := by
  cases op with
  | add => exact hu.add hv hfits
  | sub => exact hu.sub hv hfits
  | mul => exact hu.mul hv hfits
  | div => exact absurd rfl hop
  | rem => exact hu.rem hv (hb rfl) hfits

/-! ### What is written and what is meant -/

/-- A derivation with rows of digits for numbers, and without quotients. -/
inductive Whole : Category → Type where
  /-- A row of digits. -/
  | literal (digits : List Char) (hdigits : ∀ c ∈ digits, c.isDigit = true) (hsome : digits ≠ []) :
    Whole .factor
  /-- An expression in parentheses. -/
  | group (e : Whole .expression) : Whole .factor
  /-- A factor by itself. -/
  | ofFactor (f : Whole .factor) : Whole .term
  /-- A product, or a remainder. -/
  | product (t : Whole .term) (op : Operator) (h : op = .mul ∨ op = .rem) (f : Whole .factor) :
    Whole .term
  /-- A term by itself. -/
  | ofTerm (t : Whole .term) : Whole .expression
  /-- A sum, or a difference. -/
  | sum (e : Whole .expression) (op : Operator) (h : op = .add ∨ op = .sub) (t : Whole .term) :
    Whole .expression

namespace Whole

/-- The words of the expression. -/
def words {k : Category} : Whole k → List (List Char)
  | literal digits _ _ => [digits]
  | group e => ['('] :: e.words ++ [[')']]
  | ofFactor f => f.words
  | product t op _ f => t.words ++ [op.symbol] :: f.words
  | ofTerm t => t.words
  | sum e op _ t => e.words ++ [op.symbol] :: t.words

/-- The exact value. -/
def value {k : Category} : Whole k → Int
  | literal digits _ _ => digitsValue digits
  | group e => e.value
  | ofFactor f => f.value
  | product t op _ f => op.onWhole t.value f.value
  | ofTerm t => t.value
  | sum e op _ t => op.onWhole e.value t.value

/-- No literal and no intermediate result is larger than `2⁵³`, and no remainder is one of a
    division by zero. -/
def Fits {k : Category} : Whole k → Prop
  | literal digits _ _ => digitsValue digits ≤ 2 ^ 53
  | group e => e.Fits
  | ofFactor f => f.Fits
  | product t op _ f => t.Fits ∧ f.Fits ∧ (op = .rem → f.value ≠ 0) ∧
    (op.onWhole t.value f.value).natAbs ≤ 2 ^ 53
  | ofTerm t => t.Fits
  | sum e op _ t => e.Fits ∧ t.Fits ∧ (op.onWhole e.value t.value).natAbs ≤ 2 ^ 53

/-- Whether a tree fits is found by going through it. -/
def decideFits {k : Category} : (e : Whole k) → Decidable e.Fits
  | literal digits _ _ => inferInstanceAs (Decidable (digitsValue digits ≤ 2 ^ 53))
  | group e => e.decideFits
  | ofFactor f => f.decideFits
  | product t op _ f =>
    have := t.decideFits
    have := f.decideFits
    inferInstanceAs (Decidable (t.Fits ∧ f.Fits ∧ (op = .rem → f.value ≠ 0) ∧
      (op.onWhole t.value f.value).natAbs ≤ 2 ^ 53))
  | ofTerm t => t.decideFits
  | sum e op _ t =>
    have := e.decideFits
    have := t.decideFits
    inferInstanceAs (Decidable (e.Fits ∧ t.Fits ∧ (op.onWhole e.value t.value).natAbs ≤ 2 ^ 53))

instance {k : Category} (e : Whole k) : Decidable e.Fits := e.decideFits

/-- The derivation with the doubles that the literals are read as. -/
def derivation {k : Category} : Whole k → Derivation k
  | literal digits _ _ => .number (.ofDecimal (digitsValue digits) 0)
  | group e => .group e.derivation
  | ofFactor f => .ofFactor f.derivation
  | product t op h f => .product t.derivation op (h.imp_right .inr) f.derivation
  | ofTerm t => .ofTerm t.derivation
  | sum e op h t => .sum e.derivation op h t.derivation

/-- The words spell the tokens of the derivation. -/
theorem spells_words {k : Category} (e : Whole k) :
    List.Forall₂ Token.Spells e.derivation.tokens e.words := by
  induction e with
  | literal digits hdigits hsome => exact .cons (.number (.whole hdigits hsome)) .nil
  | group e ih => exact .cons .openParen (List.rel_append ih (.cons .closeParen .nil))
  | ofFactor f ih => exact ih
  | product t op _ f iht ihf => exact List.rel_append iht (.cons (.operator op) ihf)
  | ofTerm t ih => exact ih
  | sum e op _ t ihe iht => exact List.rel_append ihe (.cons (.operator op) iht)

/-! ### Exact evaluation -/

/-- **Every intermediate result is exact.** The double of a tree stands for its exact value. -/
theorem isWhole_value {k : Category} (e : Whole k) (h : e.Fits) :
    e.derivation.value.IsWhole e.value := by
  induction e with
  | literal digits _ _ => exact Binary64.isWhole_ofDecimal h
  | group e ih => exact ih h
  | ofFactor f ih => exact ih h
  | product t op hop f iht ihf =>
    obtain ⟨ht, hf, hzero, hfits⟩ := h
    have hdiv : op ≠ .div := by rcases hop with rfl | rfl <;> decide
    exact .apply hdiv (iht ht) (ihf hf) hzero hfits
  | ofTerm t ih => exact ih h
  | sum e op hop t ihe iht =>
    obtain ⟨he, ht, hfits⟩ := h
    have hdiv : op ≠ .div := by rcases hop with rfl | rfl <;> decide
    have hrem : op ≠ .rem := by rcases hop with rfl | rfl <;> decide
    exact .apply hdiv (ihe he) (iht ht) (fun heq => absurd heq hrem) hfits

/-- The exact value of a tree is not too large. -/
theorem natAbs_value_le {k : Category} (e : Whole k) (h : e.Fits) : e.value.natAbs ≤ 2 ^ 53 := by
  induction e with
  | literal digits _ _ => exact h
  | group e ih => exact ih h
  | ofFactor f ih => exact ih h
  | product t op hop f iht ihf => exact h.2.2.2
  | ofTerm t ih => exact ih h
  | sum e op hop t ihe iht => exact h.2.2

end Whole

/-! ### The answer -/

/-- The decimal text of a whole number is its digits, behind a sign if it is below zero. -/
theorem toList_toString (n : Int) : (toString n).toList
    = if n < 0 then '-' :: Decimal.digitRow n.natAbs else Decimal.digitRow n.natAbs := by
  cases n with
  | ofNat m =>
    have hsign : ¬Int.ofNat m < 0 := Int.not_lt.mpr (Int.natCast_nonneg m)
    rw [if_neg hsign]
    exact Nat.toList_repr
  | negSucc m =>
    rw [if_pos (Int.negSucc_lt_zero m)]
    show ("-" ++ (m + 1).repr).toList = _
    rw [String.toList_append, Nat.toList_repr]
    rfl

/-- A decimal text of a whole number has no point. -/
theorem point_notMem_toString (n : Int) : '.' ∉ (toString n).toList := by
  have hrow : '.' ∉ Decimal.digitRow n.natAbs := fun hpoint =>
    absurd (Decimal.isDigit_of_mem_digitRow hpoint) (by decide)
  rw [toList_toString]
  split
  · exact List.not_mem_cons_of_ne_of_not_mem (by decide) hrow
  · exact hrow

namespace Binary64

/-- Whole numbers below the limit are printed by all their digits. -/
theorem magnitudeText_whole {m : Nat} (hm : m < 2 ^ 63) :
    magnitudeText (m * one) = Decimal.digitRow m := by
  have hlimit : m * one < twoPow 63 * one := Nat.mul_lt_mul_of_pos_right hm one_pos
  rw [magnitudeText, if_pos ⟨Nat.mul_mod_left m one, hlimit⟩, Nat.mul_div_cancel m one_pos]

/-- **Whole numbers are answered by their digits.** A double that stands for a whole number below
    `2⁶³` in magnitude is answered by the decimal text of this number, whatever sign a zero has. -/
theorem IsWhole.result_eq {v : Binary64} {n : Int} (h : v.IsWhole n) (hn : n.natAbs < 2 ^ 63) :
    v.result = toString n := by
  obtain ⟨negative, m, hm, rfl, rfl⟩ := h
  rw [natAbs_signed] at hn
  have hsign : negative = true ∧ m * one ≠ 0 ↔ signed negative m < 0 := by
    rw [mul_one_ne_zero_iff, signed_neg_iff]
  rw [← String.toList_inj, toList_result, toList_toString, magnitudeText_whole hn, natAbs_signed]
  simp only [hsign]

end Binary64

/-- **Expressions of whole numbers are answered exactly.** If no literal and no intermediate result
    is larger than `2⁵³`, an expression is answered by the decimal text of its exact value, however
    it is spaced. -/
theorem Whole.evaluate_exact (e : Whole .expression) (hfits : e.Fits) {cs : List Char}
    (hcs : Spaced e.words cs) :
    ∃ v, evaluate (String.ofList cs) = .ok v ∧ v.result = toString e.value ∧
      '.' ∉ v.result.toList ∧ v.result ≠ "-0" := by
  have hwhole := e.isWhole_value hfits
  have hresult := hwhole.result_eq (Nat.lt_of_le_of_lt (e.natAbs_value_le hfits) (by decide))
  refine ⟨_, e.derivation.evaluate_of_spaced e.spells_words hcs, hresult, ?_, ?_⟩
  · rw [hresult]
    exact point_notMem_toString e.value
  · obtain ⟨negative, m, hm, hv, -⟩ := hwhole
    rw [hv]
    exact Binary64.result_ne_signed_zero negative hm

/-- A remainder takes the sign of the dividend, and zeros before a literal do not matter. -/
theorem evaluate_exact_remainder :
    let row (digits : String) (h : digits.toList.all Char.isDigit = true)
        (hsome : digits.toList ≠ []) : Whole .factor :=
      .literal digits.toList (List.all_eq_true.mp h) hsome
    let e : Whole .expression := .ofTerm (.product
      (.ofFactor (.group (.sum (.ofTerm (.ofFactor (row "1" (by decide) (by decide)))) .sub
        (.inr rfl) (.ofFactor (row "9007199254740992" (by decide) (by decide))))))
      .rem (.inr rfl) (row "04" (by decide) (by decide)))
    e.Fits ∧ Spaced e.words "(1-9007199254740992)%04".toList ∧
      ∃ v, evaluate "(1-9007199254740992)%04" = .ok v ∧ v.result = "-3" := by
  intro row e
  have hfits : e.Fits := by decide +kernel
  have hwords : Spaced e.words "(1-9007199254740992)%04".toList := spaced_flatten e.words
  obtain ⟨v, heval, hresult, -⟩ := e.evaluate_exact hfits hwords
  exact ⟨hfits, hwords, v, heval, hresult⟩

end Reckoner
