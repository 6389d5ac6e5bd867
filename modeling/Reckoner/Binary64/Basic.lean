/-!
# Double-precision numbers

A finite double is a sign and a whole number of **units**, where one unit is the least positive
double, `2⁻¹⁰⁷⁴`.  Every finite double is such a multiple, so exact results of arithmetic are
integers or ratios of integers, and rounding is a question about natural numbers.

* `Binary64` — the values: one NaN, two infinities, and the finite doubles with their two zeros.
* `Binary64.Representable` — which numbers of units are doubles: below the overflow limit, and a
  multiple of the spacing of doubles at that magnitude.
* `Binary64.nearest` — the nearest multiple of that spacing to a ratio, ties to even.
* `Binary64.representable_nearest` — below the limit, rounding yields a double.
-/

namespace Reckoner

namespace Binary64

/-! ### Spacing and representability -/

/-- A power of two. -/
def twoPow (n : Nat) : Nat := Nat.pow 2 n

theorem twoPow_pos (n : Nat) : 0 < twoPow n := Nat.two_pow_pos n

/-- The number of units in the value one. -/
def one : Nat := twoPow 1074

/-- The first number of units past the finite range: `2¹⁰²⁴` as a value. -/
def overflow : Nat := twoPow 2098

/-- The distance, in units, between neighbouring doubles of magnitude `n` units. -/
def spacing (n : Nat) : Nat := twoPow (n.log2 - 52)

/-- `n` units are the magnitude of a finite double. -/
def Representable (n : Nat) : Prop := n < overflow ∧ spacing n ∣ n

instance (n : Nat) : Decidable (Representable n) :=
  inferInstanceAs (Decidable (_ ∧ _))

theorem spacing_pos (n : Nat) : 0 < spacing n := twoPow_pos _

theorem one_pos : 0 < one := twoPow_pos 1074

theorem overflow_pos : 0 < overflow := twoPow_pos 2098

theorem representable_zero : Representable 0 := ⟨overflow_pos, Nat.dvd_zero _⟩

end Binary64

/-- A double-precision number.  NaNs are not told apart; the two zeros are. -/
inductive Binary64 where
  /-- Not a number. -/
  | nan
  /-- An infinity. -/
  | infinite (negative : Bool)
  /-- A finite value, `units` times `2⁻¹⁰⁷⁴`, negated where `negative`. -/
  | finite (negative : Bool) (units : Nat) (representable : Binary64.Representable units)
  deriving DecidableEq

namespace Binary64

instance : Inhabited Binary64 := ⟨.nan⟩

/-- Positive zero. -/
def zero : Binary64 := .finite false 0 representable_zero

/-- The value with its sign turned round. -/
def neg : Binary64 → Binary64
  | nan => nan
  | infinite s => infinite (!s)
  | finite s u h => finite (!s) u h

/-! ### Rounding -/

/-- `num / den` rounded to the nearest whole number, a half going to the even neighbour. -/
def roundHalfEven (num den : Nat) : Nat :=
  let q := num / den
  let r := num % den
  if 2 * r < den then q else if den < 2 * r then q + 1 else q + q % 2

theorem roundHalfEven_bounds (num den : Nat) :
    num / den ≤ roundHalfEven num den ∧ roundHalfEven num den ≤ num / den + 1 := by
  unfold roundHalfEven
  have := Nat.mod_lt (num / den) (show 0 < 2 by decide)
  dsimp only
  split
  · omega
  · split <;> omega

/-- The multiple of the local spacing that is nearest to `num / den` units, ties to even. -/
def nearest (num den : Nat) : Nat :=
  let s := spacing (num / den)
  roundHalfEven num (den * s) * s

private theorem dvd_of_log2_le {m k n : Nat} (hm : m * twoPow k = n) (hlog : n.log2 ≤ 52 + k) :
    spacing n ∣ n := by
  subst hm
  exact Nat.dvd_trans (Nat.pow_dvd_pow 2 (by omega)) (Nat.dvd_mul_left _ _)

/-- Up to `2⁵³` times a power of two follows the spacing of doubles. -/
theorem spacing_dvd {m : Nat} (hm : m ≤ twoPow 53) (k : Nat) :
    spacing (m * twoPow k) ∣ m * twoPow k := by
  rcases Nat.lt_or_ge m (twoPow 53) with hlt | hge
  · refine dvd_of_log2_le rfl ?_
    rcases Nat.eq_zero_or_pos (m * twoPow k) with h0 | h0
    · rw [h0]; exact Nat.zero_le _
    · have : m * 2 ^ k < 2 ^ (53 + k) := by
        rw [Nat.pow_add]; exact Nat.mul_lt_mul_of_pos_right hlt (Nat.two_pow_pos k)
      have := (Nat.log2_lt (Nat.ne_of_gt h0)).2 this
      omega
  · have hm : m = 2 ^ 53 := Nat.le_antisymm hm hge
    have htwice : 2 ^ 52 * twoPow (k + 1) = m * twoPow k := by
      simp only [hm, twoPow, Nat.pow_eq, Nat.pow_succ]
      omega
    refine dvd_of_log2_le htwice ?_
    rw [hm, twoPow, Nat.pow_eq, ← Nat.pow_add, Nat.log2_two_pow]
    omega

/-- Below the overflow limit a rounded ratio is representable. -/
theorem representable_nearest (num den : Nat) (h : nearest num den < overflow) :
    Representable (nearest num den) := by
  refine ⟨h, ?_⟩
  unfold nearest
  dsimp only
  rw [show spacing (num / den) = 2 ^ ((num / den).log2 - 52) from rfl]
  generalize hk : (num / den).log2 - 52 = k
  have hb := roundHalfEven_bounds num (den * 2 ^ k)
  rw [← Nat.div_div_eq_div_mul] at hb
  have hq : num / den / 2 ^ k < 2 ^ 53 := by
    rw [Nat.div_lt_iff_lt_mul (Nat.two_pow_pos k), ← Nat.pow_add]
    rcases Nat.eq_zero_or_pos (num / den) with h0 | h0
    · rw [h0]; exact Nat.two_pow_pos _
    · exact (Nat.log2_lt (Nat.ne_of_gt h0)).1 (by omega)
  exact spacing_dvd (show _ ≤ 2 ^ 53 by omega) k

/-- The double nearest to `num / den` units, with the given sign; an infinity past the range. -/
def ofRatio (negative : Bool) (num den : Nat) : Binary64 :=
  if h : nearest num den < overflow then
    .finite negative (nearest num den) (representable_nearest num den h)
  else .infinite negative

/-! ### Bit patterns -/

/-- The double with the given 64-bit pattern. -/
def ofBits (bits : Nat) : Binary64 :=
  let negative := bits / twoPow 63 % 2 == 1
  let exponent := bits / twoPow 52 % twoPow 11
  let fraction := bits % twoPow 52
  if exponent = 2047 then
    if fraction = 0 then .infinite negative else .nan
  else if exponent = 0 then ofRatio negative fraction 1
  else ofRatio negative ((twoPow 52 + fraction) * twoPow (exponent - 1)) 1

/-- The pattern of the magnitude: the exponent field above the fraction field. -/
def magnitudeBits (units : Nat) : Nat :=
  let e := units.log2 - 52
  e * twoPow 52 + units / twoPow e

/-- The 64-bit pattern, or `none` for NaN, which has many. -/
def toBits? : Binary64 → Option Nat
  | nan => none
  | infinite s => some (s.toNat * twoPow 63 + 2047 * twoPow 52)
  | finite s u _ => some (s.toNat * twoPow 63 + magnitudeBits u)

end Binary64

end Reckoner
