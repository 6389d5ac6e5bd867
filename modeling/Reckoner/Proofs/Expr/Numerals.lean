import Mathlib.Data.List.Basic
import Mathlib.Data.List.TakeWhile
import Reckoner.Expr.Lexer
import Reckoner.Proofs.Binary64.Rounding

/-!
# What numerals stand for

A numeral is a row of decimal digits, perhaps with a point between two of them.

* `Numeral.Denotes` — the numerals and the numbers they stand for.
* `Numeral.Denotes.isNearest` — such a number is the double nearest to what is written.
* `Numeral.read?` — the reading of a number, which takes more rows than there are numerals.
* `Numeral.denotes_of_isWellFormed` — a row in which the lexer finds no fault is a numeral.
-/

namespace Reckoner

namespace Numeral

/-! ### Numerals and their numbers -/

/-- The row is digits, perhaps with a point between two of them, and the value is the double
    nearest to the number that it writes. -/
inductive Denotes : List Char → Binary64 → Prop where
  /-- Digits alone. -/
  | whole {digits : List Char} (hdigits : ∀ c ∈ digits, c.isDigit = true) (hsome : digits ≠ []) :
    Denotes digits (.ofDecimal (digitsValue digits) 0)
  /-- Digits, a point, and digits. -/
  | point {digits places : List Char} (hdigits : ∀ c ∈ digits, c.isDigit = true)
    (hsome : digits ≠ []) (hplaces : ∀ c ∈ places, c.isDigit = true) (hlast : places ≠ []) :
    Denotes (digits ++ '.' :: places) (.ofDecimal (digitsValue (digits ++ places)) places.length)

/-- The number of a numeral is the double nearest to the decimal that it writes: all its digits,
    divided by ten as often as there are digits behind the point. -/
theorem Denotes.isNearest {row : List Char} {v : Binary64} (h : Denotes row v) :
    ∃ digits places, (row = digits ∧ places = [] ∨ row = digits ++ '.' :: places) ∧
      (∀ c ∈ digits ++ places, c.isDigit = true) ∧
      Binary64.IsNearest (digitsValue (digits ++ places) * Binary64.one)
        (10 ^ places.length) v := by
  cases h with
  | whole hdigits =>
    refine ⟨row, [], .inl ⟨rfl, rfl⟩, ?_⟩
    rw [List.append_nil]
    exact ⟨hdigits, Binary64.isNearest_ofDecimal _ 0⟩
  | @point digits places hdigits _ hplaces =>
    exact ⟨digits, places, .inr rfl, List.forall_mem_append.mpr ⟨hdigits, hplaces⟩,
      Binary64.isNearest_ofDecimal _ _⟩

/-- A digit is no point. -/
theorem notMem_digits {digits : List Char} (h : ∀ c ∈ digits, c.isDigit = true) : '.' ∉ digits :=
  fun hpoint => absurd (h '.' hpoint) (by decide)

/-- Among the characters of numerals, the digits are those that are no point. -/
theorem isDigit_of_holds {row : List Char} (hrow : ∀ c ∈ row, holds c = true) (hpoint : '.' ∉ row) :
    ∀ c ∈ row, c.isDigit = true := by
  intro c hc
  have hkind := hrow c hc
  rw [holds, Bool.or_eq_true, decide_eq_true_eq] at hkind
  exact hkind.resolve_right fun heq => hpoint (heq ▸ hc)

theorem value_of_notMem {digits : List Char} (h : '.' ∉ digits) :
    value digits = .ofDecimal (digitsValue digits) 0 := by
  have hkept : ∀ c ∈ digits, decide (c ≠ '.') = true := fun c hc =>
    decide_eq_true fun heq => h (heq ▸ hc)
  have hfilter : digits.filter (· ≠ '.') = digits := List.filter_eq_self.mpr hkept
  have hdrop : digits.dropWhile (· ≠ '.') = [] := List.dropWhile_eq_nil_iff.mpr hkept
  rw [value, hfilter, hdrop]
  rfl

theorem value_of_point {digits places : List Char} (hdigits : '.' ∉ digits)
    (hplaces : '.' ∉ places) :
    value (digits ++ '.' :: places)
      = .ofDecimal (digitsValue (digits ++ places)) places.length := by
  have hkept {row : List Char} (h : '.' ∉ row) : ∀ c ∈ row, decide (c ≠ '.') = true := fun c hc =>
    decide_eq_true fun heq => h (heq ▸ hc)
  have hfilter : (digits ++ '.' :: places).filter (· ≠ '.') = digits ++ places := by
    rw [List.filter_append, List.filter_cons_of_neg (by decide),
      List.filter_eq_self.mpr (hkept hdigits), List.filter_eq_self.mpr (hkept hplaces)]
  have hdrop : (digits ++ '.' :: places).dropWhile (· ≠ '.') = '.' :: places := by
    rw [List.dropWhile_append_of_pos (hkept hdigits)]
    exact List.dropWhile_cons_of_neg (by decide)
  rw [value, hfilter, hdrop]
  rfl

/-- The number of a numeral is found. -/
theorem Denotes.value? {row : List Char} {v : Binary64} (h : Denotes row v) :
    value? row = some v := by
  cases h with
  | whole hdigits hsome =>
    have hpoint := notMem_digits hdigits
    have hlast : row.getLast? ≠ some '.' := fun hlast => hpoint (List.mem_of_getLast? hlast)
    rw [Numeral.value?, isWellFormed, List.count_eq_zero.mpr hpoint, value_of_notMem hpoint]
    simp [hlast]
  | @point digits places hdigits hsome hplaces hlast =>
    have hpoint := notMem_digits hplaces
    have hend : (digits ++ '.' :: places).getLast? ≠ some '.' := by
      rw [List.getLast?_append_cons, List.getLast?_cons_of_ne_nil hlast]
      exact fun hlast => hpoint (List.mem_of_getLast? hlast)
    rw [Numeral.value?, isWellFormed, List.count_append, List.count_cons_self,
      List.count_eq_zero.mpr (notMem_digits hdigits), List.count_eq_zero.mpr hpoint,
      value_of_point (notMem_digits hdigits) hpoint, bne_iff_ne.mpr hend]
    rfl

/-- A row of digits and points that begins with a digit is a numeral, if it has at most one point
    and does not end in one. -/
theorem denotes_of_isWellFormed {c : Char} {row : List Char} (hdigit : c.isDigit = true)
    (hrow : ∀ d ∈ row, holds d = true) (h : isWellFormed (c :: row) = true) :
    Denotes (c :: row) (value (c :: row)) := by
  have hall : ∀ d ∈ c :: row, holds d = true :=
    List.forall_mem_cons.mpr ⟨by rw [holds, hdigit, Bool.true_or], hrow⟩
  rw [isWellFormed, Bool.and_eq_true, decide_eq_true_eq] at h
  obtain ⟨hcount, hend⟩ := h
  by_cases hpoint : '.' ∈ c :: row
  · obtain ⟨digits, places, heq, hdigits⟩ := List.eq_append_cons_of_mem hpoint
    rw [heq] at hall hcount hend ⊢
    rw [List.count_append, List.count_cons_self] at hcount
    have hplaces : '.' ∉ places := List.count_eq_zero.mp (by omega)
    obtain ⟨hbefore, hbehind⟩ := List.forall_mem_append.mp hall
    rw [value_of_point hdigits hplaces]
    refine .point (isDigit_of_holds hbefore hdigits) ?_
      (isDigit_of_holds (List.forall_mem_cons.mp hbehind).2 hplaces) ?_
    · rintro rfl
      cases heq
      cases hdigit
    · rintro rfl
      simp at hend
  · rw [value_of_notMem hpoint]
    exact .whole (isDigit_of_holds hall hpoint) (List.cons_ne_nil _ _)

/-! ### Reading a number -/

/-- The reading of a number from a row of digits and points.  It fails if there is no digit, or a
    second point; a point may also come first or last. -/
def read? (row : List Char) : Option Binary64 :=
  if row.any Char.isDigit = true ∧ row.count '.' ≤ 1 then some (value row) else none

/-- The reading does not fail on a numeral. -/
theorem Denotes.read? {row : List Char} {v : Binary64} (h : Denotes row v) :
    read? row = some v := by
  have hvalue := h.value?
  rw [Numeral.value?] at hvalue
  split at hvalue
  next hwell =>
    rw [isWellFormed, Bool.and_eq_true, decide_eq_true_eq] at hwell
    have hdigit : row.any Char.isDigit = true := by
      cases h with
      | whole hdigits hsome =>
        obtain ⟨c, hc⟩ := List.exists_mem_of_ne_nil _ hsome
        exact List.any_eq_true.mpr ⟨c, hc, hdigits c hc⟩
      | point hdigits hsome hplaces hlast =>
        obtain ⟨c, hc⟩ := List.exists_mem_of_ne_nil _ hsome
        exact List.any_eq_true.mpr ⟨c, List.mem_append_left _ hc, hdigits c hc⟩
    rw [Numeral.read?, if_pos ⟨hdigit, hwell.1⟩, hvalue]
  next => cases hvalue

end Numeral

end Reckoner
