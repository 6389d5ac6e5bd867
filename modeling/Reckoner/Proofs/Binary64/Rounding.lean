import Mathlib.Tactic.Ring
import Reckoner.Binary64.Decimal

/-!
# Rounding is to the nearest

`Binary64.nearest` rounds to a multiple of the spacing at the magnitude of the ratio.  No other
multiple of the spacing at its own magnitude is nearer: where the spacing is less, the numbers are
smaller than the ratio, and the first number of its magnitude lies between.

* `Binary64.offBy` — how far a number of units is from a ratio.
* `Binary64.IsNearest` — what the double nearest to a ratio is.
* `Binary64.isNearest_ofDecimal` — a decimal is read as the double nearest to it.
-/

namespace Reckoner

namespace Binary64

/-- How far `n` units are from `num / den` units, counted in parts of `den`. -/
def offBy (num den n : Nat) : Nat := ((num : Int) - n * den).natAbs

/-- No whole number is nearer than the rounded one. -/
theorem offBy_roundHalfEven {den : Nat} (hden : 0 < den) (num j : Nat) :
    offBy num den (roundHalfEven num den) ≤ offBy num den j := by
  have hsplit : den * (num / den) + num % den = num := Nat.div_add_mod num den
  have hlt : num % den < den := Nat.mod_lt num hden
  generalize hq : num / den = q at hsplit
  generalize hr : num % den = r at hsplit hlt
  -- The ratio lies between its quotient and the next number.
  have hbelow : offBy num den q = r := by
    rw [offBy, ← hsplit]
    push_cast
    rw [Int.mul_comm]
    omega
  have habove : offBy num den (q + 1) = den - r := by
    rw [offBy, ← hsplit]
    push_cast
    rw [Int.add_mul, Int.mul_comm]
    omega
  have hj : r ≤ offBy num den j ∨ den - r ≤ offBy num den j := by
    rw [offBy, ← hsplit]
    push_cast
    rcases Nat.lt_or_ge q j with hgt | hle
    case inr =>
      have hmul : (j : Int) * den ≤ den * q := by
        rw [Int.mul_comm]
        exact_mod_cast Nat.mul_le_mul_left den hle
      omega
    case inl =>
      have hmul : (den * q + den : Int) ≤ j * den := by
        rw [Int.mul_comm (j : Int)]
        exact_mod_cast Nat.mul_le_mul_left den hgt
      omega
  have hround : roundHalfEven num den
      = if 2 * r < den then q else if den < 2 * r then q + 1 else q + q % 2 := by
    rw [roundHalfEven, hq, hr]
  rw [hround]
  split
  · rw [hbelow]
    omega
  · split
    · rw [habove]
      omega
    · rcases Nat.mod_two_eq_zero_or_one q with heven | hodd
      · rw [heven, Nat.add_zero, hbelow]
        omega
      · rw [hodd, habove]
        omega

/-- Parts of a multiple are multiples of parts. -/
theorem offBy_mul (num den m s : Nat) : offBy num den (m * s) = offBy num (den * s) m := by
  rw [offBy, offBy]
  push_cast
  congr 1
  ring

/-- **Rounding is to the nearest.** No number of units that is a multiple of the spacing at its own
    magnitude is nearer to the ratio than the rounded one. -/
theorem offBy_nearest {den : Nat} (hden : 0 < den) (num : Nat) {w : Nat} (hw : spacing w ∣ w) :
    offBy num den (nearest num den) ≤ offBy num den w := by
  have hmultiple (j : Nat) :
      offBy num den (nearest num den) ≤ offBy num den (j * spacing (num / den)) := by
    rw [nearest, offBy_mul, offBy_mul]
    exact offBy_roundHalfEven (Nat.mul_pos hden (spacing_pos _)) num j
  by_cases hle : (num / den).log2 - 52 ≤ w.log2 - 52
  · obtain ⟨j, hj⟩ := Nat.dvd_trans (Nat.pow_dvd_pow 2 hle) hw
    rw [hj, Nat.mul_comm]
    exact hmultiple j
  · have hlt := Nat.lt_of_not_le hle
    -- The first number of the magnitude of the ratio lies between `w` and the ratio.
    have hpos : num / den ≠ 0 := by
      intro hzero
      rw [hzero, Nat.log2_zero] at hlt
      exact Nat.not_lt_zero _ hlt
    have hfirst : 2 ^ (num / den).log2 = 2 ^ 52 * spacing (num / den) := by
      rw [show spacing (num / den) = 2 ^ ((num / den).log2 - 52) from rfl, ← Nat.pow_add]
      congr 1
      omega
    have hratio : 2 ^ (num / den).log2 * den ≤ num :=
      (Nat.le_div_iff_mul_le hden).mp (Nat.log2_self_le hpos)
    have hbelow : w < 2 ^ (num / den).log2 := by
      rcases Nat.eq_zero_or_pos w with rfl | hsome
      · exact Nat.two_pow_pos _
      · exact (Nat.log2_lt (Nat.ne_of_gt hsome)).mp (by omega)
    refine Nat.le_trans (hmultiple (2 ^ 52)) ?_
    rw [← hfirst, offBy, offBy]
    have hmul : (w : Int) * den ≤ (2 ^ (num / den).log2 : Nat) * den := by
      exact_mod_cast Nat.mul_le_mul_right den (Nat.le_of_lt hbelow)
    have hnum : ((2 ^ (num / den).log2 : Nat) : Int) * den ≤ num := by exact_mod_cast hratio
    omega

/-- The value is the positive double nearest to `num / den` units: no number of units that follows
    the spacing of doubles is nearer, and past the range it is an infinity. -/
inductive IsNearest (num den : Nat) : Binary64 → Prop where
  | finite {units : Nat} {representable : Representable units}
    (hnear : ∀ w, spacing w ∣ w → offBy num den units ≤ offBy num den w) :
    IsNearest num den (.finite false units representable)
  | infinite {units : Nat} (hpast : overflow ≤ units)
    (hnear : ∀ w, spacing w ∣ w → offBy num den units ≤ offBy num den w) :
    IsNearest num den (.infinite false)

/-- A ratio is rounded to the double nearest to it. -/
theorem isNearest_ofRatio {den : Nat} (hden : 0 < den) (num : Nat) :
    IsNearest num den (ofRatio false num den) := by
  have hnear := fun w (hw : spacing w ∣ w) => offBy_nearest hden num hw
  rw [ofRatio]
  split
  next => exact .finite hnear
  next hpast => exact .infinite (Nat.le_of_not_lt hpast) hnear

/-- **Reading a decimal** gives the double nearest to it. -/
theorem isNearest_ofDecimal (digits places : Nat) :
    IsNearest (digits * one) (10 ^ places) (ofDecimal digits places) :=
  isNearest_ofRatio (Nat.pow_pos (show 0 < 10 by decide)) (digits * one)

end Binary64

end Reckoner
