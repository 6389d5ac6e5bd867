import Mathlib.Data.List.Forall2
import Reckoner.Proofs.Expr.Lexical
import Reckoner.Proofs.Expr.Precedence
import Reckoner.Proofs.Expr.Reading

/-!
# The value of what is written

In an expression operands and operators take turns, so no two numbers stand side by side.  It can
be written with or without blanks between its words, and the text has its value.

* `Spaced` — a text is a row of words with blanks around them.
* `Token.writes_of_spaced` — spellings of tokens that take turns write these tokens.
* `Derivation.evaluate_of_spaced` — the text of an expression has the value of its tree.
-/

namespace Reckoner

/-- The text is the words in their order, with blanks around them, or none. -/
inductive Spaced : List (List Char) → List Char → Prop where
  | nil {gap : List Char} (hgap : ∀ c ∈ gap, isBlank c = true) : Spaced [] gap
  | cons {gap word rest : List Char} {words : List (List Char)}
    (hgap : ∀ c ∈ gap, isBlank c = true) (hrest : Spaced words rest) :
    Spaced (word :: words) (gap ++ (word ++ rest))

/-- Words may stand side by side. -/
theorem spaced_flatten (words : List (List Char)) : Spaced words words.flatten := by
  induction words with
  | nil => exact .nil nofun
  | cons word words ih =>
    show Spaced _ ([] ++ (word ++ words.flatten))
    exact .cons nofun ih

namespace Token

/-- What follows a token takes turns as well. -/
theorem alternates_tail {operandDue : Bool} {token : Token} {row : List Token}
    (h : alternates operandDue (token :: row) = true) : ∃ due, alternates due row = true := by
  cases operandDue with
  | true =>
    cases token with
    | number | openParen => exact ⟨_, h⟩
    | operator | closeParen => cases h
  | false =>
    cases token with
    | operator | closeParen => exact ⟨_, h⟩
    | number | openParen => cases h

/-- **Words write tokens.** If operands and operators take turns, their spellings need no blanks
    between them. -/
theorem writes_of_spaced {operandDue : Bool} {tokens : List Token} {words : List (List Char)}
    {cs : List Char} (halternates : alternates operandDue tokens = true)
    (hspells : List.Forall₂ Spells tokens words) (hcs : Spaced words cs) : Writes tokens cs := by
  induction hspells generalizing operandDue cs with
  | nil =>
    cases hcs with
    | nil hgap => exact .nil hgap
  | cons hspell _ ih =>
    cases hcs with
    | cons hgap hrest =>
      obtain ⟨due, hdue⟩ := alternates_tail halternates
      refine .cons hgap hspell (ih hdue hrest) ?_
      -- A number behind a number does not take turns, so there is nothing to keep apart.
      rintro v w later rfl rfl
      cases operandDue <;> cases halternates

end Token

/-- **Texts have the value of the tree.** Any text in which the tokens of an expression are
    spelled, with or without blanks around them, is evaluated to the value of its derivation. -/
theorem Derivation.evaluate_of_spaced (e : Derivation .expression) {words : List (List Char)}
    {cs : List Char} (hspells : List.Forall₂ Token.Spells e.tokens words)
    (hcs : Spaced words cs) : evaluate (String.ofList cs) = .ok e.value := by
  have hwrites := Token.writes_of_spaced e.alternates_tokens hspells hcs
  have htext : Token.ofText (String.ofList cs) = .ok e.tokens := by
    rw [Token.ofText, String.toList_ofList]
    exact Token.scan_of_writes hwrites 0
  rw [evaluate, htext]
  show reversePolish e.tokens >>= evaluateReversePolish = _
  rw [e.reversePolish_tokens]
  exact e.evaluateReversePolish_postOrder

end Reckoner
