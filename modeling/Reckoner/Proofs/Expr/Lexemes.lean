import Reckoner.Expr.Lexer

/-!
# Scanning one lexeme

What `Token.scan` does at the start of a text, one lemma for each kind of lexeme:

* `Token.scan_blank` — a blank is dropped.
* `Token.scan_symbol`, `Token.scan_stray` — any other character that is no digit is a token by
  itself, or an error.
* `Token.scan_numeral`, `Token.scan_malformed` — a row of digits and points is one token or one
  error, if it is as long as it can be.
-/

namespace Reckoner

namespace Token

theorem scan_blank {c : Char} (hblank : isBlank c = true) (position : Nat) (rest : List Char) :
    scan position (c :: rest) = scan (position + c.utf8Size) rest := by
  rw [scan, if_pos hblank]

theorem scan_symbol {c : Char} {t : Token} (hblank : isBlank c = false) (hdigit : ¬ c.isDigit)
    (ht : ofChar? c = some t) (position : Nat) (rest : List Char) :
    scan position (c :: rest) = (scan (position + c.utf8Size) rest).map (t :: ·) := by
  rw [scan, if_neg (by simp [hblank]), if_neg hdigit, ht]

theorem scan_stray {c : Char} (hblank : isBlank c = false) (hdigit : ¬ c.isDigit)
    (hsymbol : ofChar? c = none) (position : Nat) (rest : List Char) :
    scan position (c :: rest) = .error (.unexpectedCharacter c position) := by
  rw [scan, if_neg (by simp [hblank]), if_neg hdigit, hsymbol]

/-- A row that is as long as it can be is what is taken of the text. -/
theorem takeWhile_holds {row rest : List Char} (hrow : ∀ d ∈ row, Numeral.holds d = true)
    (hrest : ∀ d ∈ rest.head?, Numeral.holds d = false) :
    (row ++ rest).takeWhile Numeral.holds = row := by
  rw [List.takeWhile_append_of_pos hrow]
  cases rest with
  | nil => rw [List.takeWhile_nil, List.append_nil]
  | cons d rest => simp [hrest d rfl]

/-- And what stands behind it is left. -/
theorem dropWhile_holds {row rest : List Char} (hrow : ∀ d ∈ row, Numeral.holds d = true)
    (hrest : ∀ d ∈ rest.head?, Numeral.holds d = false) :
    (row ++ rest).dropWhile Numeral.holds = rest := by
  rw [List.dropWhile_append_of_pos hrow]
  cases rest with
  | nil => rfl
  | cons d rest => simp [hrest d rfl]

/-- A row that begins with a digit and is as long as it can be is read at once. -/
theorem scan_row {c : Char} {row rest : List Char} (hblank : isBlank c = false)
    (hdigit : c.isDigit) (hrow : ∀ d ∈ row, Numeral.holds d = true)
    (hrest : ∀ d ∈ rest.head?, Numeral.holds d = false) (position : Nat) :
    scan position (c :: row ++ rest) = match Numeral.value? (c :: row) with
      | none => .error (.malformedNumber (String.ofList (c :: row)))
      | some v => (scan (position + byteCount (c :: row)) rest).map (.number v :: ·) := by
  rw [List.cons_append, scan, if_neg (by simp [hblank]), if_pos hdigit]
  cases hvalue : Numeral.value? (c :: row) <;>
    simp only [takeWhile_holds hrow hrest, dropWhile_holds hrow hrest, hvalue]

theorem scan_numeral {c : Char} {row rest : List Char} {v : Binary64} (hblank : isBlank c = false)
    (hdigit : c.isDigit) (hrow : ∀ d ∈ row, Numeral.holds d = true)
    (hrest : ∀ d ∈ rest.head?, Numeral.holds d = false) (hv : Numeral.value? (c :: row) = some v)
    (position : Nat) :
    scan position (c :: row ++ rest)
      = (scan (position + byteCount (c :: row)) rest).map (.number v :: ·) := by
  rw [scan_row hblank hdigit hrow hrest, hv]

theorem scan_malformed {c : Char} {row rest : List Char} (hblank : isBlank c = false)
    (hdigit : c.isDigit) (hrow : ∀ d ∈ row, Numeral.holds d = true)
    (hrest : ∀ d ∈ rest.head?, Numeral.holds d = false) (hv : Numeral.value? (c :: row) = none)
    (position : Nat) :
    scan position (c :: row ++ rest) = .error (.malformedNumber (String.ofList (c :: row))) := by
  rw [scan_row hblank hdigit hrow hrest, hv]

end Token

end Reckoner
