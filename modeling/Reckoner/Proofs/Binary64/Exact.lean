import Mathlib.Tactic.Ring
import Reckoner.Binary64.Arithmetic
import Reckoner.Proofs.Binary64.Rounding

/-!
# Where rounding loses nothing

An exact result that is a double is its own rounding.  Whole numbers up to `2⁵³` are doubles, so
sums, differences, products and remainders that stay below this bound are those of the integers,
but for the sign of a zero.

* `Binary64.nearest_mul_right` — the rounded ratio depends on the ratio alone.
* `Binary64.nearest_of_representable` — a double is its own rounding.
* `Binary64.representable_whole` — whole numbers up to `2⁵³` are doubles.
* `Binary64.IsWhole` — a double that stands for a whole number; zero may have either sign.
* `Binary64.IsWhole.add`, `Binary64.IsWhole.mul`, `Binary64.IsWhole.rem` — arithmetic on whole
  numbers is exact, if the result is not too large.
-/

namespace Reckoner

namespace Binary64

/-! ### Rounding ratios that are doubles -/

/-- A common factor does not change a rounded ratio. -/
theorem roundHalfEven_mul_right {k : Nat} (hk : 0 < k) (num den : Nat) :
    roundHalfEven (num * k) (den * k) = roundHalfEven num den := by
  have hdouble : 2 * (num % den * k) = 2 * (num % den) * k := (Nat.mul_assoc ..).symm
  rw [roundHalfEven, roundHalfEven, Nat.mul_div_mul_right _ _ hk, Nat.mul_mod_mul_right, hdouble]
  simp only [Nat.mul_lt_mul_right hk]

/-- **The ratio alone counts.** A common factor of both its numbers does not change the result of
    rounding. -/
theorem nearest_mul_right {k : Nat} (hk : 0 < k) (num den : Nat) :
    nearest (num * k) (den * k) = nearest num den := by
  rw [nearest, nearest, Nat.mul_div_mul_right _ _ hk, Nat.mul_right_comm den,
    roundHalfEven_mul_right hk]

/-- **A double is its own rounding.** Nothing is nearer to it than itself. -/
theorem nearest_of_representable {units den : Nat} (hden : 0 < den) (h : Representable units) :
    nearest (units * den) den = units := by
  -- The rounded ratio is not farther off than the double, which is not off at all.
  have hnear := offBy_nearest hden (units * den) h.2
  have hself : offBy (units * den) den units = 0 := by
    rw [offBy]
    push_cast
    omega
  have hzero : ((units * den : Nat) : Int) - (nearest (units * den) den : Nat) * den = 0 := by
    rw [hself, offBy] at hnear
    omega
  have heq : nearest (units * den) den * den = units * den := by
    have := Int.eq_of_sub_eq_zero hzero
    exact_mod_cast this.symm
  exact Nat.eq_of_mul_eq_mul_right hden heq

theorem nearest_zero {den : Nat} (hden : 0 < den) : nearest 0 den = 0 := by
  have hself := nearest_of_representable hden representable_zero
  rwa [Nat.zero_mul] at hself

theorem ofRatio_of_nearest {negative : Bool} {num den units : Nat} (h : Representable units)
    (hnearest : nearest num den = units) : ofRatio negative num den = .finite negative units h := by
  subst hnearest
  rw [ofRatio, dif_pos h.1]

/-- A ratio that is a double is not rounded. -/
theorem ofRatio_of_representable {negative : Bool} {units den : Nat} (hden : 0 < den)
    (h : Representable units) : ofRatio negative (units * den) den = .finite negative units h :=
  ofRatio_of_nearest h (nearest_of_representable hden h)

/-! ### Signs -/

theorem signed_mul (negative : Bool) (m n : Nat) :
    signed negative (m * n) = signed negative m * n := by
  cases negative
  · exact Int.natCast_mul m n
  · show -((m * n : Nat) : Int) = -(m : Int) * n
    push_cast
    ring

theorem signed_not (negative : Bool) (m : Nat) : signed (!negative) m = -signed negative m := by
  cases negative
  · rfl
  · exact (Int.neg_neg _).symm

theorem signed_xor (s t : Bool) (m n : Nat) :
    signed (s ^^ t) (m * n) = signed s m * signed t n := by
  cases s <;> cases t <;> simp [signed]

theorem natAbs_signed (negative : Bool) (m : Nat) : (signed negative m).natAbs = m := by
  cases negative <;> simp [signed]

theorem signed_neg_iff (negative : Bool) (m : Nat) :
    signed negative m < 0 ↔ negative = true ∧ m ≠ 0 := by
  cases negative <;> simp [signed]
  omega

theorem signed_natAbs (n : Int) : signed (n < 0) n.natAbs = n := by
  rw [signed]
  split
  next h =>
    rw [decide_eq_true_eq] at h
    omega
  next h =>
    rw [decide_eq_true_eq] at h
    omega

/-- A remainder of magnitudes with the sign of the dividend is that of truncated division. -/
theorem signed_mod (s t : Bool) (m n : Nat) :
    signed s (m % n) = (signed s m).tmod (signed t n) := by
  have hmod := Int.ofNat_tmod m n
  cases s <;> cases t <;> simp only [signed, Int.neg_tmod, Int.tmod_neg, hmod, Bool.false_eq_true,
    if_true, if_false]

/-! ### Whole numbers -/

theorem twoPow_lt_twoPow {j k : Nat} (h : j < k) : twoPow j < twoPow k :=
  Nat.pow_lt_pow_right (by decide) h

/-- Whole numbers up to `2⁵³` are doubles. -/
theorem representable_whole {m : Nat} (hm : m ≤ 2 ^ 53) : Representable (m * one) := by
  have hbound (k : Nat) : m * twoPow k ≤ twoPow (53 + k) := by
    rw [twoPow, twoPow, Nat.pow_eq, Nat.pow_eq, Nat.pow_add]
    exact Nat.mul_le_mul_right _ hm
  exact ⟨Nat.lt_of_le_of_lt (hbound 1074) (twoPow_lt_twoPow (by decide)), spacing_dvd hm 1074⟩

theorem mul_one_ne_zero_iff {m : Nat} : m * one ≠ 0 ↔ m ≠ 0 :=
  Nat.mul_ne_zero_iff.trans (and_iff_left (Nat.ne_of_gt one_pos))

/-- The double stands for the whole number.  Zero may have either sign. -/
def IsWhole (v : Binary64) (n : Int) : Prop :=
  ∃ negative m h, v = .finite negative (m * one) h ∧ signed negative m = n

theorem isWhole_zero (negative : Bool) : IsWhole (.finite negative 0 representable_zero) 0 := by
  refine ⟨negative, 0, representable_whole (Nat.zero_le _), by simp only [Nat.zero_mul], ?_⟩
  cases negative <;> rfl

/-- A whole number up to `2⁵³` in magnitude is exactly what the ratio is rounded to. -/
theorem isWhole_ofRatio {negative : Bool} {m num den : Nat} {n : Int} (hden : 0 < den)
    (hm : signed negative m = n) (hn : n.natAbs ≤ 2 ^ 53) (hnum : num = m * one * den) :
    IsWhole (ofRatio negative num den) n := by
  subst hnum
  rw [← hm, natAbs_signed] at hn
  exact ⟨negative, m, representable_whole hn, ofRatio_of_representable hden _, hm⟩

/-- A numeral without a point is read exactly. -/
theorem isWhole_ofDecimal {n : Nat} (hn : n ≤ 2 ^ 53) : IsWhole (ofDecimal n 0) n :=
  isWhole_ofRatio (Nat.pow_pos (by decide)) rfl hn (Nat.mul_one _).symm

namespace IsWhole

variable {u v : Binary64} {a b : Int}

theorem neg (h : IsWhole v b) : IsWhole v.neg (-b) := by
  obtain ⟨t, n, hn, rfl, rfl⟩ := h
  exact ⟨!t, n, hn, rfl, signed_not t n⟩

theorem add (hu : IsWhole u a) (hv : IsWhole v b) (hfits : (a + b).natAbs ≤ 2 ^ 53) :
    IsWhole (u.add v) (a + b) := by
  obtain ⟨s, m, hm, rfl, rfl⟩ := hu
  obtain ⟨t, n, hn, rfl, rfl⟩ := hv
  have hsum : signed s (m * one) + signed t (n * one) = (signed s m + signed t n) * one := by
    rw [signed_mul, signed_mul]
    ring
  generalize signed s m + signed t n = sum at hsum hfits
  have hone : (0 : Int) < one := by exact_mod_cast one_pos
  rw [Binary64.add, hsum]
  by_cases hzero : sum = 0
  · -- The sign of a sum of zero does not matter.
    rw [if_pos (by rw [hzero, Int.zero_mul]), hzero]
    exact isWhole_zero _
  · rw [if_neg (Int.mul_ne_zero hzero (by omega))]
    have hsign : sum * one < 0 ↔ sum < 0 := by
      have hless := Int.mul_lt_mul_right (a := one) (b := sum) (c := 0) hone
      rwa [Int.zero_mul] at hless
    have hnum : (sum * one).natAbs = sum.natAbs * one * 1 := by
      rw [Int.natAbs_mul, Int.natAbs_natCast, Nat.mul_one]
    rw [decide_eq_decide.mpr hsign]
    exact isWhole_ofRatio Nat.one_pos (signed_natAbs sum) hfits hnum

theorem sub (hu : IsWhole u a) (hv : IsWhole v b) (hfits : (a - b).natAbs ≤ 2 ^ 53) :
    IsWhole (u.sub v) (a - b) := hu.add hv.neg hfits

theorem mul (hu : IsWhole u a) (hv : IsWhole v b) (hfits : (a * b).natAbs ≤ 2 ^ 53) :
    IsWhole (u.mul v) (a * b) := by
  obtain ⟨s, m, hm, rfl, rfl⟩ := hu
  obtain ⟨t, n, hn, rfl, rfl⟩ := hv
  have hproduct : m * one * (n * one) = m * n * one * one := by ring
  exact isWhole_ofRatio one_pos (signed_xor s t m n) hfits hproduct

theorem rem (hu : IsWhole u a) (hv : IsWhole v b) (hb : b ≠ 0)
    (hfits : (a.tmod b).natAbs ≤ 2 ^ 53) : IsWhole (u.rem v) (a.tmod b) := by
  obtain ⟨s, m, hm, rfl, rfl⟩ := hu
  obtain ⟨t, n, hn, rfl, rfl⟩ := hv
  have hsome : n * one ≠ 0 := by
    refine mul_one_ne_zero_iff.mpr ?_
    rintro rfl
    cases t <;> exact hb rfl
  rw [Binary64.rem, if_neg hsome]
  have hmod : m * one % (n * one) = m % n * one * 1 := by
    rw [Nat.mul_mod_mul_right, Nat.mul_one]
  exact isWhole_ofRatio Nat.one_pos (signed_mod s t m n) hfits hmod

end IsWhole

end Binary64

end Reckoner
