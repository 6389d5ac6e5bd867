import Reckoner.Expr.Eval
import Reckoner.Proofs.Binary64.Exact
import Reckoner.Proofs.Expr.Numerals

/-!
# Printed magnitudes are numerals

A magnitude is printed as a numeral, and the numeral is read as this magnitude.  The number of
digits does not matter for that: a decimal is only taken if it reads back, and where none of the
short ones does, all digits are printed.

* `digitsValue_digitRow` — the digits of a number stand for it.
* `Decimal.denotes_text` — a decimal that is rounded to a double is printed as a numeral for it.
* `Binary64.unitsOf_shortest` — the shortest decimal is rounded to the double it is taken for.
* `Binary64.denotes_magnitudeText` — a magnitude is printed as a numeral for it.
-/

namespace Reckoner

/-! ### Rows of digits -/

theorem digitsValue_eq (row : List Char) : digitsValue row = Nat.ofDigitChars 10 row 0 := rfl

theorem digitsValue_digitRow (n : Nat) : digitsValue (Decimal.digitRow n) = n :=
  Nat.ofDigitChars_toDigits (by decide) (by decide)

/-- Zeros behind a number are factors of ten. -/
theorem digitsValue_append_zeros (row : List Char) (k : Nat) :
    digitsValue (row ++ List.replicate k '0') = digitsValue row * 10 ^ k := by
  rw [digitsValue_eq, Nat.ofDigitChars_append, Nat.ofDigitChars_replicate_zero, Nat.mul_comm]
  rfl

/-- Zeros before a number change nothing. -/
theorem digitsValue_zeros_append (k : Nat) (row : List Char) :
    digitsValue (List.replicate k '0' ++ row) = digitsValue row := by
  rw [digitsValue_eq, Nat.ofDigitChars_append, Nat.ofDigitChars_replicate_zero, Nat.mul_zero]
  rfl

theorem isDigit_of_mem_zeros {k : Nat} {c : Char} (h : c ∈ List.replicate k '0') :
    c.isDigit = true := by
  rw [List.eq_of_mem_replicate h]
  rfl

namespace Decimal

theorem isDigit_of_mem_digitRow {n : Nat} {c : Char} (h : c ∈ digitRow n) : c.isDigit = true :=
  Nat.isDigit_of_mem_toDigits (by decide) (by decide) h

/-! ### The text of a decimal -/

/-- What is dropped are zeros, one for each place. -/
theorem dropZeros_spec (places : Nat) (row : List Char) :
    ∃ k, (dropZeros places row).1 + k = places ∧
      List.replicate k '0' ++ (dropZeros places row).2 = row := by
  fun_induction dropZeros places row with
  | case1 places rest ih =>
    obtain ⟨k, hplaces, hrow⟩ := ih
    refine ⟨k + 1, by omega, ?_⟩
    rw [List.replicate_succ, List.cons_append, hrow]
  | case2 => exact ⟨0, rfl, rfl⟩

/-- A point before the last `places` digits of a row, with zeros where there are not enough, makes
    a numeral. -/
theorem denotes_point {row : List Char} (hrow : ∀ c ∈ row, c.isDigit = true) (hsome : row ≠ [])
    (places : Nat) :
    Numeral.Denotes
      (if places = 0 then row
      else if places < row.length then
        row.take (row.length - places) ++ '.' :: row.drop (row.length - places)
      else '0' :: '.' :: List.replicate (places - row.length) '0' ++ row)
      (.ofDecimal (digitsValue row) places) := by
  by_cases hnone : places = 0
  · rw [if_pos hnone, hnone]
    exact .whole hrow hsome
  rw [if_neg hnone]
  by_cases hfew : places < row.length
  · rw [if_pos hfew]
    have hbefore : row.take (row.length - places) ≠ [] :=
      List.ne_nil_of_length_pos (by rw [List.length_take]; omega)
    have hbehind : row.drop (row.length - places) ≠ [] :=
      List.ne_nil_of_length_pos (by rw [List.length_drop]; omega)
    have hpoint := Numeral.Denotes.point (fun c hc => hrow c (List.mem_of_mem_take hc)) hbefore
      (fun c hc => hrow c (List.mem_of_mem_drop hc)) hbehind
    rwa [List.take_append_drop, List.length_drop, Nat.sub_sub_self (Nat.le_of_lt hfew)] at hpoint
  · rw [if_neg hfew]
    have hzero : ∀ c ∈ ['0'], c.isDigit = true := List.forall_mem_singleton.mpr rfl
    have hbehind : ∀ c ∈ List.replicate (places - row.length) '0' ++ row, c.isDigit = true :=
      List.forall_mem_append.mpr ⟨fun _ => isDigit_of_mem_zeros, hrow⟩
    have hpoint := Numeral.Denotes.point hzero (List.cons_ne_nil _ _) hbehind
      (List.append_ne_nil_of_right_ne_nil _ hsome)
    have hlength : (List.replicate (places - row.length) '0' ++ row).length = places := by
      rw [List.length_append, List.length_replicate]
      omega
    have hvalue : digitsValue (['0'] ++ (List.replicate (places - row.length) '0' ++ row))
        = digitsValue row := by
      rw [← List.append_assoc]
      exact digitsValue_zeros_append (places - row.length + 1) row
    rwa [hlength, hvalue] at hpoint

/-- **Decimals are printed as numerals.** Unless a decimal is zero, its text is a numeral for the
    double that the decimal is rounded to. -/
theorem denotes_text {d : Decimal} (hd : d.digits ≠ 0) {units : Nat}
    (h : Binary64.Representable units) (hunits : Binary64.unitsOf d = units) :
    Numeral.Denotes d.text (.finite false units h) := by
  obtain ⟨digits, exponent⟩ := d
  cases exponent with
  | ofNat zeros =>
    have hrow : ∀ c ∈ digitRow digits ++ List.replicate zeros '0', c.isDigit = true :=
      List.forall_mem_append.mpr
        ⟨fun _ => isDigit_of_mem_digitRow, fun _ => isDigit_of_mem_zeros⟩
    have hsome : digitRow digits ++ List.replicate zeros '0' ≠ [] :=
      List.append_ne_nil_of_left_ne_nil Nat.toDigits_ne_nil _
    have hdenotes := Numeral.Denotes.whole hrow hsome
    have hvalue : Binary64.ofDecimal (digits * 10 ^ zeros) 0 = .finite false units h :=
      Binary64.ofRatio_of_nearest h hunits
    rwa [digitsValue_append_zeros, digitsValue_digitRow, hvalue] at hdenotes
  | negSucc n =>
    simp only [text]
    obtain ⟨k, hplaces, hzeros⟩ := dropZeros_spec (n + 1) (digitRow digits).reverse
    generalize dropZeros (n + 1) (digitRow digits).reverse = left at hplaces hzeros ⊢
    obtain ⟨places, row⟩ := left
    dsimp only at hplaces hzeros ⊢
    have hsplit : digitRow digits = row.reverse ++ List.replicate k '0' := by
      rw [← List.reverse_reverse (digitRow digits), ← hzeros, List.reverse_append,
        List.reverse_replicate]
    have hdigits : digitsValue row.reverse * 10 ^ k = digits := by
      rw [← digitsValue_append_zeros, ← hsplit, digitsValue_digitRow]
    have hrow : ∀ c ∈ row.reverse, c.isDigit = true := fun c hc =>
      isDigit_of_mem_digitRow (hsplit ▸ List.mem_append_left _ hc)
    have hsome : row.reverse ≠ [] := by
      intro hnone
      rw [hnone] at hdigits
      exact hd (hdigits.symm.trans (Nat.zero_mul _))
    -- The zeros that are dropped are a common factor of the ratio.
    have hten : 0 < 10 ^ k := Nat.pow_pos (by decide)
    have hnearest : Binary64.nearest (digitsValue row.reverse * Binary64.one) (10 ^ places)
        = units := by
      rw [← Binary64.nearest_mul_right hten, Nat.mul_right_comm, hdigits, ← Nat.pow_add, hplaces]
      exact hunits
    have hvalue : Binary64.ofDecimal (digitsValue row.reverse) places = .finite false units h :=
      Binary64.ofRatio_of_nearest h hnearest
    rw [← hvalue]
    exact denotes_point hrow hsome places

end Decimal

namespace Binary64

/-! ### The shortest digits -/

theorem unitsOf_onGrid {units : Nat} {exponent : Int} {d : Decimal}
    (h : onGrid units exponent = some d) : unitsOf d = units := by
  unfold onGrid at h
  dsimp only at h
  split at h
  next hbelow habove =>
    cases h
    split
    · exact eq_of_beq hbelow
    · exact eq_of_beq habove
  next hbelow _ =>
    cases h
    exact eq_of_beq hbelow
  next _ habove =>
    cases h
    exact eq_of_beq habove
  next => cases h

theorem unitsOf_negSucc (digits : Nat) {n places : Nat} (h : n + 1 = places) :
    unitsOf ⟨digits, .negSucc n⟩ = nearest (digits * one) (Nat.pow 10 places) := by
  subst h
  rfl

/-- All digits of a double read back. -/
theorem unitsOf_exactDecimal {units : Nat} (h : Representable units) :
    unitsOf (exactDecimal units) = units := by
  have hexponent : (-1074 : Int) = .negSucc 1073 := rfl
  have hone : one = twoPow 1074 := rfl
  have hplaces : 1073 + 1 = 1074 := rfl
  rw [exactDecimal, hexponent]
  -- This holds for any number of places `k`, if there are `2 ^ k` units in one.
  generalize 1074 = k at hone hplaces ⊢
  rw [unitsOf_negSucc _ hplaces, hone, Nat.mul_assoc, twoPow, Nat.pow_eq, Nat.pow_eq, Nat.pow_eq,
    ← Nat.mul_pow]
  exact nearest_of_representable (Nat.pow_pos (by decide)) h

/-- **The shortest digits read back**, however many they are. -/
theorem unitsOf_shortest {units : Nat} (h : Representable units) :
    unitsOf (shortest units) = units := by
  rw [shortest]
  cases hfound : (List.range 17).findSome? fun (n : Nat) =>
      onGrid units (leadingPower units - n) with
  | none => exact unitsOf_exactDecimal h
  | some d =>
    -- Whichever grid it was found on, it was only taken because it reads back.
    obtain ⟨n, -, hgrid⟩ := List.exists_of_findSome?_eq_some hfound
    exact unitsOf_onGrid hgrid

/-- The decimal zero is rounded to zero. -/
theorem unitsOf_zero (exponent : Int) : unitsOf ⟨0, exponent⟩ = 0 := by
  cases exponent with
  | ofNat e =>
    show nearest (0 * Nat.pow 10 e * one) 1 = 0
    rw [Nat.zero_mul, Nat.zero_mul, nearest_zero Nat.one_pos]
  | negSucc e =>
    show nearest (0 * one) (Nat.pow 10 (e + 1)) = 0
    rw [Nat.zero_mul]
    exact nearest_zero (Nat.pow_pos (by decide))

/-! ### Magnitudes -/

/-- Zero is below the limit for whole numbers. -/
theorem magnitudeText_zero : magnitudeText 0 = ['0'] := by
  have hlimit : 0 < twoPow 63 * one := Nat.mul_pos (twoPow_pos 63) one_pos
  rw [magnitudeText, if_pos ⟨Nat.zero_mod one, hlimit⟩, Nat.zero_div]
  rfl

/-- **Magnitudes are printed as numerals.** -/
theorem denotes_magnitudeText {units : Nat} (h : Representable units) :
    Numeral.Denotes (magnitudeText units) (.finite false units h) := by
  rw [magnitudeText]
  by_cases hwhole : units % one = 0 ∧ units < twoPow 63 * one
  · rw [if_pos hwhole]
    have hrow : ∀ c ∈ Decimal.digitRow (units / one), c.isDigit = true :=
      fun _ => Decimal.isDigit_of_mem_digitRow
    have hdenotes := Numeral.Denotes.whole hrow Nat.toDigits_ne_nil
    have hunits : units / one * one = units := Nat.div_mul_cancel (Nat.dvd_of_mod_eq_zero hwhole.1)
    have hnearest : nearest (units / one * one) 1 = units := by
      have hself := nearest_of_representable Nat.one_pos h
      rw [hunits]
      rwa [Nat.mul_one] at hself
    rwa [digitsValue_digitRow, ofDecimal, ofRatio_of_nearest h hnearest] at hdenotes
  · rw [if_neg hwhole]
    -- Zero has been printed as a whole number.
    have hsome : units ≠ 0 := by
      rintro rfl
      exact hwhole ⟨Nat.zero_mod one, Nat.mul_pos (twoPow_pos 63) one_pos⟩
    have hback := unitsOf_shortest h
    generalize shortest units = d at hback
    obtain ⟨digits, exponent⟩ := d
    refine Decimal.denotes_text ?_ h hback
    rintro rfl
    exact hsome (hback.symm.trans (unitsOf_zero exponent))

end Binary64

end Reckoner
