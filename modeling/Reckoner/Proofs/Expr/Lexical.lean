import Reckoner.Proofs.Expr.Lexemes
import Reckoner.Proofs.Expr.Numerals
import Reckoner.Text.Utf8

/-!
# Which texts are rows of tokens

A text is cut into blanks, symbols, rows of digits and points that begin with a digit and are as
long as they can be, and stray characters.  Strays and rows that are no numerals are bad.

* `Lexeme`, `Cut` — the lexemes and the one way to cut a text into them.
* `Lexeme.Gives`, `Lexeme.Fails` — the token or the error of a lexeme.
* `Token.scan_of_good`, `Token.scan_of_bad` — the leftmost bad lexeme decides.
* `Writes` — the texts that write a row of tokens.
* `ofText_lexical` — which texts have tokens, which ones, and what the error is.
-/

namespace Reckoner

open Token

/-! ### Lexemes -/

/-- A part of a text. -/
inductive Lexeme where
  /-- A blank. -/
  | blank (c : Char)
  /-- A character that is a token by itself. -/
  | symbol (c : Char)
  /-- A row of digits and points. -/
  | numeral (row : List Char)
  /-- Any other character. -/
  | stray (c : Char)

namespace Lexeme

/-- The characters of the lexeme. -/
def chars : Lexeme → List Char
  | blank c | symbol c | stray c => [c]
  | numeral row => row

/-- The lexeme only separates others. -/
def isGap : Lexeme → Bool
  | blank _ => true
  | _ => false

/-- The lexeme is stray, or has more than one point or ends in one. -/
def isBad : Lexeme → Bool
  | blank _ | symbol _ => false
  | numeral row => 1 < row.count '.' || row.getLast? = some '.'
  | stray _ => true

/-- The token of a lexeme: a row of digits and points is one number, and reading it does not
    fail. -/
inductive Gives : Lexeme → Token → Prop where
  | symbol {c : Char} {t : Token} (ht : ofChar? c = some t) : Gives (.symbol c) t
  | numeral {row : List Char} {v : Binary64} (hv : Numeral.Denotes row v)
    (hread : Numeral.read? row = some v) : Gives (.numeral row) (.number v)

/-- The error of a bad lexeme, given how many bytes stand before it. -/
inductive Fails : Lexeme → Nat → EvalError → Prop where
  | numeral {row : List Char} {position : Nat} (hbad : isBad (.numeral row) = true) :
    Fails (.numeral row) position (.malformedNumber (String.ofList row))
  | stray {c : Char} {position : Nat} :
    Fails (.stray c) position (.unexpectedCharacter c position)

theorem exists_fails {l : Lexeme} (h : l.isBad = true) (position : Nat) :
    ∃ e, Fails l position e := by
  cases l with
  | blank | symbol => cases h
  | numeral row => exact ⟨_, .numeral h⟩
  | stray c => exact ⟨_, .stray⟩

theorem isBad_numeral (row : List Char) : isBad (.numeral row) = !Numeral.isWellFormed row := by
  rw [isBad, Numeral.isWellFormed, Bool.eq_iff_iff]
  simp only [Bool.or_eq_true, decide_eq_true_eq, Bool.not_and, Bool.not_eq_true',
    decide_eq_false_iff_not, Nat.not_le, bne_eq_false_iff_eq]

end Lexeme

/-! ### Cutting a text -/

/-- The text is cut into the lexemes. -/
inductive Cut : List Char → List Lexeme → Prop where
  | nil : Cut [] []
  | blank {c : Char} {rest : List Char} {ls : List Lexeme} (hc : isBlank c = true)
    (hrest : Cut rest ls) : Cut (c :: rest) (.blank c :: ls)
  | symbol {c : Char} {t : Token} {rest : List Char} {ls : List Lexeme}
    (hc : ofChar? c = some t) (hrest : Cut rest ls) : Cut (c :: rest) (.symbol c :: ls)
  /-- A row is as long as it can be. -/
  | numeral {c : Char} {row rest : List Char} {ls : List Lexeme} (hc : c.isDigit = true)
    (hrow : ∀ d ∈ row, Numeral.holds d = true)
    (hmax : ∀ d ∈ rest.head?, Numeral.holds d = false) (hrest : Cut rest ls) :
    Cut (c :: (row ++ rest)) (.numeral (c :: row) :: ls)
  | stray {c : Char} {rest : List Char} {ls : List Lexeme} (hblank : isBlank c = false)
    (hdigit : c.isDigit = false) (hsymbol : ofChar? c = none) (hrest : Cut rest ls) :
    Cut (c :: rest) (.stray c :: ls)

/-- A blank is no other lexeme. -/
theorem not_of_isBlank {c : Char} (h : isBlank c = true) :
    Numeral.holds c = false ∧ c.isDigit = false ∧ ofChar? c = none := by
  have hall : (blanks.all fun c => decide
      (Numeral.holds c = false ∧ c.isDigit = false ∧ ofChar? c = none)) = true := by decide
  exact of_decide_eq_true (List.all_eq_true.mp hall c (List.contains_iff_mem.mp h))

/-- A symbol is no other lexeme. -/
theorem not_of_ofChar? {c : Char} {t : Token} (h : ofChar? c = some t) :
    isBlank c = false ∧ Numeral.holds c = false ∧ c.isDigit = false := by
  unfold ofChar? at h
  split at h
  · decide
  · decide
  · obtain ⟨op, hop, -⟩ := Option.map_eq_some_iff.mp h
    rw [← Operator.symbol_of_ofChar? hop]
    cases op <;> decide

/-- A digit is no blank. -/
theorem isBlank_of_isDigit {c : Char} (h : c.isDigit = true) : isBlank c = false := by
  cases hblank : isBlank c with
  | false => rfl
  | true => rw [(not_of_isBlank hblank).2.1] at h; cases h

theorem exists_cut (cs : List Char) : ∃ ls, Cut cs ls := by
  match cs with
  | [] => exact ⟨[], .nil⟩
  | c :: rest =>
    obtain ⟨ls, hrest⟩ := exists_cut rest
    by_cases hblank : isBlank c = true
    · exact ⟨_, .blank hblank hrest⟩
    by_cases hdigit : c.isDigit = true
    · obtain ⟨later, hlater⟩ := exists_cut (rest.dropWhile Numeral.holds)
      have hrow : ∀ d ∈ rest.takeWhile Numeral.holds, Numeral.holds d = true := fun d hd =>
        List.mem_takeWhile_imp hd
      have hmax : ∀ d ∈ (rest.dropWhile Numeral.holds).head?, Numeral.holds d = false := by
        intro d hd
        have hfirst := List.head?_dropWhile_not Numeral.holds rest
        rw [Option.mem_def.mp hd] at hfirst
        exact hfirst
      have hcut := Cut.numeral hdigit hrow hmax hlater
      rw [List.takeWhile_append_dropWhile] at hcut
      exact ⟨_, hcut⟩
    · cases hsymbol : ofChar? c with
      | some t => exact ⟨_, .symbol hsymbol hrest⟩
      | none =>
        rw [Bool.not_eq_true] at hblank hdigit
        exact ⟨_, .stray hblank hdigit hsymbol hrest⟩
termination_by cs.length
decreasing_by
  · exact Nat.lt_succ_self _
  · exact Nat.lt_succ_of_le (List.length_dropWhile_le _ _)

namespace Cut

variable {c : Char} {rest : List Char} {ls : List Lexeme}

theorem of_isBlank (hc : isBlank c = true) (h : Cut (c :: rest) ls) :
    ∃ later, ls = .blank c :: later ∧ Cut rest later := by
  obtain ⟨-, hdigit, hsymbol⟩ := not_of_isBlank hc
  cases h with
  | blank _ hrest => exact ⟨_, rfl, hrest⟩
  | symbol ht => rw [hsymbol] at ht; cases ht
  | numeral hd => rw [hdigit] at hd; cases hd
  | stray hblank => rw [hc] at hblank; cases hblank

theorem of_symbol {t : Token} (hc : ofChar? c = some t) (h : Cut (c :: rest) ls) :
    ∃ later, ls = .symbol c :: later ∧ Cut rest later := by
  obtain ⟨hblank, -, hdigit⟩ := not_of_ofChar? hc
  cases h with
  | blank hb => rw [hblank] at hb; cases hb
  | symbol _ hrest => exact ⟨_, rfl, hrest⟩
  | numeral hd => rw [hdigit] at hd; cases hd
  | stray _ _ hsymbol => rw [hc] at hsymbol; cases hsymbol

/-- A row is as long as it can be, so it is known where it ends. -/
theorem of_isDigit {row : List Char} (hc : c.isDigit = true)
    (hrow : ∀ d ∈ row, Numeral.holds d = true)
    (hmax : ∀ d ∈ rest.head?, Numeral.holds d = false) (h : Cut (c :: (row ++ rest)) ls) :
    ∃ later, ls = .numeral (c :: row) :: later ∧ Cut rest later := by
  generalize hbehind : row ++ rest = behind at h
  cases h with
  | blank hb => rw [isBlank_of_isDigit hc] at hb; cases hb
  | symbol ht => rw [(not_of_ofChar? ht).2.2] at hc; cases hc
  | stray _ hdigit => rw [hc] at hdigit; cases hdigit
  | numeral _ hrow' hmax' hrest =>
    have htake := takeWhile_holds hrow hmax
    have hdrop := dropWhile_holds hrow hmax
    rw [hbehind, takeWhile_holds hrow' hmax'] at htake
    rw [hbehind, dropWhile_holds hrow' hmax'] at hdrop
    subst htake hdrop
    exact ⟨_, rfl, hrest⟩

theorem of_stray (hblank : isBlank c = false) (hdigit : c.isDigit = false)
    (hsymbol : ofChar? c = none) (h : Cut (c :: rest) ls) :
    ∃ later, ls = .stray c :: later ∧ Cut rest later := by
  cases h with
  | blank hb => rw [hblank] at hb; cases hb
  | symbol ht => rw [hsymbol] at ht; cases ht
  | numeral hd => rw [hdigit] at hd; cases hd
  | stray _ _ _ hrest => exact ⟨_, rfl, hrest⟩

/-- There is only one way to cut a text. -/
theorem unique {cs : List Char} {ls ls' : List Lexeme} (h : Cut cs ls) (h' : Cut cs ls') :
    ls' = ls := by
  induction h generalizing ls' with
  | nil =>
    cases h'
    rfl
  | blank hc _ ih =>
    obtain ⟨later, rfl, hlater⟩ := h'.of_isBlank hc
    rw [ih hlater]
  | symbol hc _ ih =>
    obtain ⟨later, rfl, hlater⟩ := h'.of_symbol hc
    rw [ih hlater]
  | numeral hc hrow hmax _ ih =>
    obtain ⟨later, rfl, hlater⟩ := h'.of_isDigit hc hrow hmax
    rw [ih hlater]
  | stray hblank hdigit hsymbol _ ih =>
    obtain ⟨later, rfl, hlater⟩ := h'.of_stray hblank hdigit hsymbol
    rw [ih hlater]

/-- A row of digits and points begins with a digit. -/
theorem cons_of_numeral {cs row : List Char} {ls : List Lexeme} (h : Cut cs ls)
    (hrow : .numeral row ∈ ls) :
    ∃ c later, row = c :: later ∧ c.isDigit = true ∧ ∀ d ∈ later, Numeral.holds d = true := by
  induction h with
  | nil => cases hrow
  | blank _ _ ih | symbol _ _ ih | stray _ _ _ _ ih =>
    cases hrow with
    | tail _ hrow => exact ih hrow
  | numeral hc hlater _ _ ih =>
    cases hrow with
    | head => exact ⟨_, _, rfl, hc, hlater⟩
    | tail _ hrow => exact ih hrow

end Cut

theorem existsUnique_cut (cs : List Char) : ∃! ls, Cut cs ls := by
  obtain ⟨ls, h⟩ := exists_cut cs
  exact ⟨ls, h, fun _ h' => h.unique h'⟩

namespace Token

/-! ### What a text is read as -/

theorem byteCount_eq (row : List Char) : byteCount row = (row.map Char.utf8Size).sum := by
  rw [byteCount, ← List.foldl_map (f := Char.utf8Size) (g := (· + ·)), List.sum_eq_foldl]

theorem byteCount_append (row row' : List Char) :
    byteCount (row ++ row') = byteCount row + byteCount row' := by
  rw [byteCount_eq, byteCount_eq, byteCount_eq, List.map_append, List.sum_append]

theorem byteCount_singleton (c : Char) : byteCount [c] = c.utf8Size := Nat.zero_add _

/-- The bytes of a row are those of its text. -/
theorem length_utf8 (row : List Char) : (utf8 (String.ofList row)).length = byteCount row := by
  rw [utf8, String.toList_ofList, List.length_flatMap, byteCount_eq]
  congr 1
  exact List.map_congr_left fun c _ => String.length_utf8EncodeChar c

/-- A row that is not bad is one number. -/
theorem gives_of_good {c : Char} {row : List Char} (hc : c.isDigit = true)
    (hrow : ∀ d ∈ row, Numeral.holds d = true) (hgood : (Lexeme.numeral (c :: row)).isBad = false) :
    ∃ v, Numeral.value? (c :: row) = some v ∧
      Lexeme.Gives (.numeral (c :: row)) (.number v) := by
  rw [Lexeme.isBad_numeral, Bool.not_eq_false'] at hgood
  have hdenotes := Numeral.denotes_of_isWellFormed hc hrow hgood
  exact ⟨_, hdenotes.value?, .numeral hdenotes hdenotes.read?⟩

/-- A text without bad lexemes has a token for each lexeme that is no blank. -/
theorem scan_of_good {cs : List Char} {ls : List Lexeme} (h : Cut cs ls)
    (hgood : ∀ l ∈ ls, l.isBad = false) (position : Nat) :
    ∃ tokens, scan position cs = .ok tokens ∧
      List.Forall₂ Lexeme.Gives (ls.filter fun l => !l.isGap) tokens := by
  induction h generalizing position with
  | nil => exact ⟨[], by rw [scan], .nil⟩
  | blank hc hrest ih =>
    obtain ⟨-, hgood⟩ := List.forall_mem_cons.mp hgood
    rw [scan_blank hc]
    exact ih hgood _
  | symbol hc hrest ih =>
    obtain ⟨-, hgood⟩ := List.forall_mem_cons.mp hgood
    obtain ⟨hblank, -, hdigit⟩ := not_of_ofChar? hc
    obtain ⟨tokens, hscan, hgives⟩ := ih hgood _
    rw [scan_symbol hblank (by simp [hdigit]) hc, hscan]
    exact ⟨_, rfl, .cons (.symbol hc) hgives⟩
  | numeral hc hrow hmax hrest ih =>
    obtain ⟨hfirst, hgood⟩ := List.forall_mem_cons.mp hgood
    obtain ⟨v, hv, hgive⟩ := gives_of_good hc hrow hfirst
    obtain ⟨tokens, hscan, hgives⟩ := ih hgood _
    rw [← List.cons_append, scan_numeral (isBlank_of_isDigit hc) hc hrow hmax hv, hscan]
    exact ⟨_, rfl, .cons hgive hgives⟩
  | stray => cases hgood _ List.mem_cons_self

/-- The leftmost bad lexeme is the error. -/
theorem scan_of_bad {cs : List Char} {before after : List Lexeme} {bad : Lexeme} {position : Nat}
    {e : EvalError} (h : Cut cs (before ++ bad :: after))
    (hgood : ∀ l ∈ before, l.isBad = false)
    (hfails : bad.Fails (position + byteCount (before.flatMap Lexeme.chars)) e) :
    scan position cs = .error e := by
  induction before generalizing cs position with
  | nil =>
    cases h with
    | blank | symbol => cases hfails
    | numeral hc hrow hmax hrest =>
      cases hfails with
      | numeral hbad =>
        rw [Lexeme.isBad_numeral, Bool.not_eq_true'] at hbad
        have hnone : Numeral.value? _ = none := if_neg (by rw [hbad]; exact Bool.false_ne_true)
        exact scan_malformed (isBlank_of_isDigit hc) hc hrow hmax hnone position
    | stray hblank hdigit hsymbol =>
      cases hfails
      exact scan_stray hblank (by simp [hdigit]) hsymbol position _
  | cons l before ih =>
    obtain ⟨hfirst, hbefore⟩ := List.forall_mem_cons.mp hgood
    rw [List.flatMap_cons, byteCount_append, ← Nat.add_assoc] at hfails
    have hmap {t : Token} {x : Except EvalError (List Token)} (hx : x = .error e) :
        x.map (t :: ·) = .error e := by
      rw [hx]
      rfl
    cases h with
    | blank hc hrest =>
      rw [scan_blank hc, ← byteCount_singleton]
      exact ih hrest hbefore hfails
    | symbol hc hrest =>
      obtain ⟨hblank, -, hdigit⟩ := not_of_ofChar? hc
      rw [scan_symbol hblank (by simp [hdigit]) hc, ← byteCount_singleton]
      exact hmap (ih hrest hbefore hfails)
    | numeral hc hrow hmax hrest =>
      obtain ⟨v, hv, -⟩ := gives_of_good hc hrow hfirst
      rw [← List.cons_append, scan_numeral (isBlank_of_isDigit hc) hc hrow hmax hv]
      exact hmap (ih hrest hbefore hfails)
    | stray => cases hfirst

/-! ### Writing a row of tokens -/

/-- The characters are a spelling of the token.  Numbers have many. -/
inductive Spells : Token → List Char → Prop where
  | number {v : Binary64} {row : List Char} (hv : Numeral.Denotes row v) : Spells (.number v) row
  | operator (op : Operator) : Spells (.operator op) [op.symbol]
  | openParen : Spells .openParen ['(']
  | closeParen : Spells .closeParen [')']

/-- The text writes the tokens, each in one of its spellings, with blanks around them. -/
inductive Writes : List Token → List Char → Prop where
  | nil {gap : List Char} (hgap : ∀ c ∈ gap, isBlank c = true) : Writes [] gap
  /-- Two numbers in a row have a blank between them. -/
  | cons {gap spelling rest : List Char} {t : Token} {tokens : List Token}
    (hgap : ∀ c ∈ gap, isBlank c = true) (hspells : Spells t spelling) (hrest : Writes tokens rest)
    (hapart : ∀ v w later, t = .number v → tokens = .number w :: later →
      ∃ c behind, rest = c :: behind ∧ isBlank c = true) :
    Writes (t :: tokens) (gap ++ (spelling ++ rest))

/-- More blanks in front change nothing. -/
theorem Writes.gap {tokens : List Token} {gap cs : List Char} (hgap : ∀ c ∈ gap, isBlank c = true)
    (h : Writes tokens cs) : Writes tokens (gap ++ cs) := by
  cases h with
  | nil hlast => exact .nil (List.forall_mem_append.mpr ⟨hgap, hlast⟩)
  | cons hfirst hspells hrest hapart =>
    rw [← List.append_assoc]
    exact .cons (List.forall_mem_append.mpr ⟨hgap, hfirst⟩) hspells hrest hapart

/-- A spelling that is no number is a symbol. -/
theorem Spells.symbol {t : Token} {spelling : List Char} (h : Spells t spelling)
    (ht : ∀ v, t ≠ .number v) : ∃ c, spelling = [c] ∧ ofChar? c = some t := by
  cases h with
  | @number v => exact absurd rfl (ht v)
  | operator op => exact ⟨op.symbol, rfl, by cases op <;> rfl⟩
  | openParen => exact ⟨'(', rfl, rfl⟩
  | closeParen => exact ⟨')', rfl, rfl⟩

/-- A numeral begins with a digit, and goes on with digits and points. -/
theorem cons_of_denotes {row : List Char} {v : Binary64} (h : Numeral.Denotes row v) :
    ∃ c later, row = c :: later ∧ c.isDigit = true ∧ ∀ d ∈ later, Numeral.holds d = true := by
  have hdigit {d : Char} (hd : d.isDigit = true) : Numeral.holds d = true := by
    rw [Numeral.holds, hd, Bool.true_or]
  cases h with
  | whole hdigits hsome =>
    obtain ⟨c, later, rfl⟩ := List.exists_cons_of_ne_nil hsome
    obtain ⟨hc, hlater⟩ := List.forall_mem_cons.mp hdigits
    exact ⟨c, later, rfl, hc, fun d hd => hdigit (hlater d hd)⟩
  | point hdigits hsome hplaces hlast =>
    obtain ⟨c, later, rfl⟩ := List.exists_cons_of_ne_nil hsome
    obtain ⟨hc, hlater⟩ := List.forall_mem_cons.mp hdigits
    refine ⟨c, _, rfl, hc, List.forall_mem_append.mpr ⟨fun d hd => hdigit (hlater d hd), ?_⟩⟩
    exact List.forall_mem_cons.mpr ⟨rfl, fun d hd => hdigit (hplaces d hd)⟩

/-- What is written behind a number does not make its row longer. -/
theorem Writes.ends {tokens : List Token} {rest : List Char} (h : Writes tokens rest)
    (hapart : ∀ w later, tokens = .number w :: later →
      ∃ c behind, rest = c :: behind ∧ isBlank c = true) :
    ∀ d ∈ rest.head?, Numeral.holds d = false := by
  intro d hd
  cases h with
  | nil hgap => exact (not_of_isBlank (hgap d (List.mem_of_mem_head? hd))).1
  | @cons gap spelling rest t tokens hgap hspells hrest _ =>
    cases gap with
    | cons first gap =>
      cases hd
      exact (not_of_isBlank (hgap _ List.mem_cons_self)).1
    | nil =>
      by_cases hnumber : ∃ v, t = .number v
      · obtain ⟨v, rfl⟩ := hnumber
        obtain ⟨c, behind, hbehind, hc⟩ := hapart v tokens rfl
        rw [hbehind] at hd
        cases hd
        exact (not_of_isBlank hc).1
      · obtain ⟨c, rfl, hc⟩ := hspells.symbol fun v ht => hnumber ⟨v, ht⟩
        cases hd
        exact (not_of_ofChar? hc).2.1

theorem scan_gap {gap : List Char} (hgap : ∀ c ∈ gap, isBlank c = true) (position : Nat)
    (rest : List Char) : ∃ next, scan position (gap ++ rest) = scan next rest := by
  induction gap generalizing position with
  | nil => exact ⟨position, rfl⟩
  | cons c gap ih =>
    obtain ⟨hc, hgap⟩ := List.forall_mem_cons.mp hgap
    rw [List.cons_append, scan_blank hc]
    exact ih hgap _

/-- A text that writes tokens is read as these tokens. -/
theorem scan_of_writes {tokens : List Token} {cs : List Char} (h : Writes tokens cs)
    (position : Nat) : scan position cs = .ok tokens := by
  induction h generalizing position with
  | @nil gap hgap =>
    obtain ⟨next, hscan⟩ := scan_gap hgap position []
    rw [List.append_nil] at hscan
    rw [hscan, scan]
  | @cons gap spelling rest t tokens hgap hspells hrest hapart ih =>
    obtain ⟨next, hscan⟩ := scan_gap hgap position (spelling ++ rest)
    rw [hscan]
    by_cases hnumber : ∃ v, t = .number v
    · obtain ⟨v, rfl⟩ := hnumber
      cases hspells with
      | number hv =>
        obtain ⟨c, later, rfl, hc, hlater⟩ := cons_of_denotes hv
        have hends := hrest.ends fun w later => hapart v w later rfl
        rw [scan_numeral (isBlank_of_isDigit hc) hc hlater hends hv.value?, ih]
        rfl
    · obtain ⟨c, rfl, hc⟩ := hspells.symbol fun v ht => hnumber ⟨v, ht⟩
      obtain ⟨hblank, -, hdigit⟩ := not_of_ofChar? hc
      rw [List.singleton_append, scan_symbol hblank (by simp [hdigit]) hc, ih]
      rfl

end Token

/-! ### The texts that have tokens -/

/-- What a text is read as, told by its lexemes. -/
structure ReadAs (text : String) (ls : List Lexeme) : Prop where
  /-- There are tokens just if no lexeme is bad. -/
  accepted : (∃ tokens, Token.ofText text = .ok tokens) ↔ ∀ l ∈ ls, l.isBad = false
  /-- The tokens are those of the lexemes that are no blanks, in their order. -/
  tokens : ∀ tokens, Token.ofText text = .ok tokens →
    List.Forall₂ Lexeme.Gives (ls.filter fun l => !l.isGap) tokens
  /-- The error is that of the leftmost bad lexeme. -/
  error : ∀ e, Token.ofText text = .error e ↔ ∃ before bad after, ls = before ++ bad :: after ∧
    (∀ l ∈ before, l.isBad = false) ∧
    bad.Fails (utf8 (String.ofList (before.flatMap Lexeme.chars))).length e
  /-- A row that is not bad reads as a number. -/
  read : ∀ row, .numeral row ∈ ls → (Lexeme.numeral row).isBad = false →
    (Numeral.read? row).isSome

/-- If there is a bad lexeme, there is a leftmost one. -/
theorem exists_leftmost {ls : List Lexeme} (h : ¬ ∀ l ∈ ls, l.isBad = false) :
    ∃ before bad after, ls = before ++ bad :: after ∧ (∀ l ∈ before, l.isBad = false) ∧
      bad.isBad = true := by
  cases hfind : ls.find? Lexeme.isBad with
  | none => exact absurd (fun l hl => by simpa using List.find?_eq_none.mp hfind l hl) h
  | some bad =>
    obtain ⟨hbad, before, after, hls, hgood⟩ := List.find?_eq_some_iff_append.mp hfind
    exact ⟨before, bad, after, hls, fun l hl => by simpa using hgood l hl, hbad⟩

theorem readAs_of_cut {text : String} {ls : List Lexeme} (h : Cut text.toList ls) :
    ReadAs text ls := by
  have hbad {before after : List Lexeme} {bad : Lexeme} {e : EvalError}
      (hls : ls = before ++ bad :: after) (hgood : ∀ l ∈ before, l.isBad = false)
      (hfails : bad.Fails (utf8 (String.ofList (before.flatMap Lexeme.chars))).length e) :
      Token.ofText text = .error e := by
    subst hls
    rw [length_utf8, ← Nat.zero_add (byteCount _)] at hfails
    exact scan_of_bad h hgood hfails
  -- Without tokens there is a leftmost bad lexeme.
  have hgood {tokens : List Token} (htokens : Token.ofText text = .ok tokens) :
      ∀ l ∈ ls, l.isBad = false := by
    by_contra hsome
    obtain ⟨before, bad, after, hls, hbefore, hfirst⟩ := exists_leftmost hsome
    obtain ⟨e, hfails⟩ := Lexeme.exists_fails hfirst _
    rw [hbad hls hbefore hfails] at htokens
    cases htokens
  refine ⟨⟨?_, ?_⟩, ?_, ?_, ?_⟩
  · rintro ⟨tokens, htokens⟩
    exact hgood htokens
  · intro hall
    obtain ⟨tokens, hscan, -⟩ := scan_of_good h hall 0
    exact ⟨tokens, hscan⟩
  · intro tokens htokens
    obtain ⟨tokens', hscan, hgives⟩ := scan_of_good h (hgood htokens) 0
    rw [← Token.ofText, htokens] at hscan
    cases hscan
    exact hgives
  · intro e
    constructor
    · intro herror
      have hsome : ¬ ∀ l ∈ ls, l.isBad = false := by
        intro hall
        obtain ⟨tokens, hscan, -⟩ := scan_of_good h hall 0
        rw [← Token.ofText, herror] at hscan
        cases hscan
      obtain ⟨before, bad, after, hls, hbefore, hfirst⟩ := exists_leftmost hsome
      obtain ⟨e', hfails⟩ := Lexeme.exists_fails hfirst _
      rw [hbad hls hbefore hfails] at herror
      cases herror
      exact ⟨before, bad, after, hls, hbefore, hfails⟩
    · rintro ⟨before, bad, after, hls, hbefore, hfails⟩
      exact hbad hls hbefore hfails
  · intro row hrow hrowGood
    obtain ⟨c, later, rfl, hc, hlater⟩ := h.cons_of_numeral hrow
    obtain ⟨v, -, hgives⟩ := gives_of_good hc hlater hrowGood
    cases hgives with
    | numeral _ hread => exact Option.isSome_of_eq_some hread

/-- Each row of tokens with numbers that some numeral denotes can be written. -/
theorem exists_writes {tokens : List Token}
    (h : ∀ v, .number v ∈ tokens → ∃ row, Numeral.Denotes row v) : ∃ cs, Writes tokens cs := by
  induction tokens with
  | nil => exact ⟨[], .nil nofun⟩
  | cons t tokens ih =>
    obtain ⟨rest, hrest⟩ := ih fun v hv => h v (List.mem_cons_of_mem t hv)
    obtain ⟨spelling, hspells⟩ : ∃ spelling, Spells t spelling := by
      cases t with
      | number v =>
        obtain ⟨row, hrow⟩ := h v List.mem_cons_self
        exact ⟨row, .number hrow⟩
      | operator op => exact ⟨_, .operator op⟩
      | openParen => exact ⟨_, .openParen⟩
      | closeParen => exact ⟨_, .closeParen⟩
    -- A space behind each token keeps the numbers apart.
    have hspace : ∀ c ∈ [' '], isBlank c = true := List.forall_mem_singleton.mpr (by decide)
    refine ⟨[] ++ (spelling ++ ([' '] ++ rest)), .cons nofun hspells (.gap hspace hrest) ?_⟩
    intro v w later _ _
    exact ⟨' ', rest, rfl, by decide⟩

/-- **Which texts have tokens.** There is one way to cut a text into lexemes, and it tells whether
    the text has tokens, which ones, and else what the error is.  The numbers are the doubles
    nearest to what is written.  So a row of tokens can be written with any blanks, as long as two
    numbers are kept apart, and is read back. -/
theorem ofText_lexical :
    (∀ text, (∃! ls, Cut text.toList ls) ∧ ∀ ls, Cut text.toList ls → ReadAs text ls) ∧
      (∀ row v, Numeral.Denotes row v → ∃ digits places,
        (row = digits ∧ places = [] ∨ row = digits ++ '.' :: places) ∧
          (∀ c ∈ digits ++ places, c.isDigit = true) ∧
          Binary64.IsNearest (digitsValue (digits ++ places) * Binary64.one)
            (10 ^ places.length) v) ∧
      (∀ tokens, (∀ v, .number v ∈ tokens → ∃ row, Numeral.Denotes row v) →
        ∃ cs, Writes tokens cs) ∧
      ∀ tokens cs, Writes tokens cs → Token.ofText (String.ofList cs) = .ok tokens := by
  refine ⟨fun text => ⟨existsUnique_cut text.toList, fun _ => readAs_of_cut⟩,
    fun _ _ h => h.isNearest, fun _ => exists_writes, fun tokens cs h => ?_⟩
  rw [Token.ofText, String.toList_ofList]
  exact scan_of_writes h 0

end Reckoner
