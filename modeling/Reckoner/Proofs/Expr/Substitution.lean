import Reckoner.Proofs.Expr.Acceptance

/-!
# A group stands for its value

Whatever row of tokens has a value, a group around it may be replaced by that value, in front of any
tokens and behind any tokens.  The row needs no derivation, and what surrounds it may be wrong: then
both rows are wrong in the same way.

* `Conversion.complete` — what is put out for the tokens that are left.  It only adds to what was
  put out before (`Conversion.complete_onto`).
* `Conversion.foldlM_within` — a row that can be reordered is reordered inside a group as it is
  outside, whatever waits behind the group.
* `foldlM_of_evaluateReversePolish` — on any stack of operands, a row leaves its value on top.
* `group_as_value` — all three together.
-/

namespace Reckoner

namespace Conversion

variable {c c' : Conversion} {w : List Waiting} {output row : List Token}

/-! ### Below what is put out -/

/-- The state with more tokens put out before. -/
def onto (output : List Token) (c : Conversion) : Conversion := ⟨c.output ++ output, c.waiting⟩

theorem release_onto (least : Nat) (o output : List Token) (w : List Waiting) :
    release least (o ++ output) w = (release least o w).onto output := by
  induction w generalizing o with
  | nil => rfl
  | cons first rest ih =>
    cases first with
    | group => rfl
    | operator op =>
      rw [release, release]
      split
      · exact ih (.operator op :: o)
      · rfl

theorem close_onto (o output : List Token) (w : List Waiting) :
    close (o ++ output) w = (close o w).map (onto output) := by
  induction w generalizing o with
  | nil => rfl
  | cons first rest ih =>
    cases first with
    | group => rfl
    | operator op => exact ih (.operator op :: o)

theorem finish_onto (o output : List Token) (w : List Waiting) :
    finish (o ++ output) w = (finish o w).map (output.reverse ++ ·) := by
  induction w generalizing o with
  | nil => simp only [finish, List.reverse_append, Except.map]
  | cons first rest ih =>
    cases first with
    | group => rfl
    | operator op => exact ih (.operator op :: o)

/-- Taking a token does not look at what was put out before. -/
theorem step_onto (output : List Token) (c : Conversion) (token : Token) :
    (c.onto output).step token = (c.step token).map (onto output) := by
  cases token with
  | number v => rfl
  | operator op =>
    show Except.ok _ = _
    rw [onto, release_onto]
    rfl
  | openParen => rfl
  | closeParen => exact close_onto c.output output c.waiting

theorem foldlM_onto (output row : List Token) (c : Conversion) :
    row.foldlM step (c.onto output) = (row.foldlM step c).map (onto output) := by
  induction row generalizing c with
  | nil => rfl
  | cons token row ih =>
    rw [List.foldlM_cons, List.foldlM_cons, step_onto]
    cases c.step token with
    | error e => rfl
    | ok next => exact ih next

/-! ### The tokens that are left -/

/-- What is put out in all, once the tokens that are left have been taken. -/
def complete (tokens : List Token) (c : Conversion) : Except EvalError (List Token) := do
  let c ← tokens.foldlM step c
  finish c.output c.waiting

theorem complete_append (row tokens : List Token) (c : Conversion) :
    complete (row ++ tokens) c = row.foldlM step c >>= complete tokens := by
  rw [complete, List.foldlM_append, bind_assoc]
  rfl

/-- What was put out before stands in front of it. -/
theorem complete_onto (output tokens : List Token) (c : Conversion) :
    complete tokens (c.onto output) = (complete tokens c).map (output.reverse ++ ·) := by
  rw [complete, complete, foldlM_onto]
  cases tokens.foldlM step c with
  | error e => rfl
  | ok next => exact finish_onto next.output output next.waiting

/-! ### Inside a group -/

/-- The state inside a group, with more that waits behind the group. -/
def within (w : List Waiting) (c : Conversion) : Conversion :=
  ⟨c.output, c.waiting ++ .group :: w⟩

theorem release_within (least : Nat) (output : List Token) (inner w : List Waiting) :
    release least output (inner ++ .group :: w) = (release least output inner).within w := by
  induction inner generalizing output with
  | nil => rfl
  | cons first rest ih =>
    cases first with
    | group => rfl
    | operator op =>
      rw [List.cons_append, release, release]
      split
      · exact ih (.operator op :: output)
      · rfl

/-- A group that is closed is found before the one around it. -/
theorem close_within {inner : List Waiting} (h : close output inner = .ok c) (w : List Waiting) :
    close output (inner ++ .group :: w) = .ok (c.within w) := by
  -- There is a group among `inner`, or there would be an error without the one behind it.
  induction inner generalizing output with
  | nil => cases h
  | cons first rest ih =>
    cases first with
    | group =>
      cases h
      rfl
    | operator op => exact ih h

theorem step_within {token : Token} (h : c.step token = .ok c') (w : List Waiting) :
    (c.within w).step token = .ok (c'.within w) := by
  cases token with
  | number v =>
    cases h
    rfl
  | operator op =>
    cases h
    show Except.ok _ = _
    rw [within, release_within]
    rfl
  | openParen =>
    cases h
    rfl
  | closeParen => exact close_within h w

theorem foldlM_within (h : row.foldlM step c = .ok c') (w : List Waiting) :
    row.foldlM step (c.within w) = .ok (c'.within w) := by
  induction row generalizing c with
  | nil =>
    cases h
    rfl
  | cons token row ih =>
    rw [List.foldlM_cons] at h
    obtain ⟨next, hstep, h⟩ := of_bind_ok h
    rw [List.foldlM_cons, step_within hstep]
    exact ih h

/-- The end of a group puts out what the end of the tokens would. -/
theorem close_of_finish {inner : List Waiting} (h : finish output inner = .ok row)
    (w : List Waiting) : close output (inner ++ .group :: w) = .ok ⟨row.reverse, w⟩ := by
  -- There is no group among `inner`, or there would be an error at the end of the tokens.
  induction inner generalizing output with
  | nil =>
    cases h
    rw [List.reverse_reverse]
    rfl
  | cons first rest ih =>
    cases first with
    | group => cases h
    | operator op => exact ih h

/-- A group around a row puts out the row in reverse Polish order, and leaves nothing waiting. -/
theorem foldlM_group {tokens : List Token} (h : reversePolish tokens = .ok row) (c : Conversion) :
    ([Token.openParen] ++ tokens ++ [Token.closeParen]).foldlM step c
      = .ok ⟨row.reverse ++ c.output, c.waiting⟩ := by
  obtain ⟨inner, hrun, hfinish⟩ := of_bind_ok h
  have hopen : [Token.openParen].foldlM step c = .ok ((start.within c.waiting).onto c.output) := rfl
  -- Seen from the tokens, this is their start, but in a group and with more put out before.
  have htokens : tokens.foldlM step ((start.within c.waiting).onto c.output)
      = .ok ((inner.within c.waiting).onto c.output) := by
    rw [foldlM_onto, foldlM_within hrun]
    rfl
  have hclose : ((inner.within c.waiting).onto c.output).step .closeParen
      = .ok ⟨row.reverse ++ c.output, c.waiting⟩ := by
    have hgroup : (inner.within c.waiting).step .closeParen = .ok ⟨row.reverse, c.waiting⟩ :=
      close_of_finish hfinish c.waiting
    rw [step_onto, hgroup]
    rfl
  rw [List.foldlM_append, List.foldlM_append, hopen]
  show (tokens.foldlM step ((start.within c.waiting).onto c.output) >>= _) = _
  rw [htokens]
  show [Token.closeParen].foldlM step ((inner.within c.waiting).onto c.output) = _
  rw [List.foldlM_cons, hclose]
  rfl

end Conversion

/-! ### Operands below -/

/-- Taking a token that finds its operands does not look at the operands below them. -/
theorem evaluateStep_append {token : Token} {stack stack' : List Binary64}
    (h : evaluateStep stack token = .ok stack') (below : List Binary64) :
    evaluateStep (stack ++ below) token = .ok (stack' ++ below) := by
  cases token with
  | number v =>
    cases h
    rfl
  | operator op =>
    cases stack with
    | nil => cases h
    | cons rhs rest =>
      cases rest with
      | nil => cases h
      | cons lhs rest =>
        cases h
        rfl
  | openParen | closeParen => cases h

theorem foldlM_evaluateStep_append {row : List Token} {stack stack' : List Binary64}
    (h : row.foldlM evaluateStep stack = .ok stack') (below : List Binary64) :
    row.foldlM evaluateStep (stack ++ below) = .ok (stack' ++ below) := by
  induction row generalizing stack with
  | nil =>
    cases h
    rfl
  | cons token row ih =>
    rw [List.foldlM_cons] at h
    obtain ⟨next, hstep, h⟩ := of_bind_ok h
    rw [List.foldlM_cons, evaluateStep_append hstep]
    exact ih h

/-- A row with a value puts this value on the stack, whatever is there already. -/
theorem foldlM_of_evaluateReversePolish {row : List Token} {v : Binary64}
    (h : evaluateReversePolish row = .ok v) (stack : List Binary64) :
    row.foldlM evaluateStep stack = .ok (v :: stack) := by
  obtain ⟨stack', hrun, hv⟩ := of_bind_ok h
  cases stack' with
  | nil => cases hv
  | cons w below =>
    cases below with
    | nil =>
      cases hv
      exact foldlM_evaluateStep_append hrun stack
    | cons => cases hv

/-- A part of a row in reverse Polish order may be replaced by its value. -/
theorem evaluateReversePolish_replace {row : List Token} {v : Binary64}
    (h : evaluateReversePolish row = .ok v) (before after : List Token) :
    evaluateReversePolish (before ++ row ++ after)
      = evaluateReversePolish (before ++ [.number v] ++ after) := by
  -- As steps on the stack they are one function, whatever the tokens before have left there.
  have hrow : row.foldlM evaluateStep = [Token.number v].foldlM evaluateStep :=
    funext fun stack => foldlM_of_evaluateReversePolish h stack
  simp only [evaluateReversePolish, List.foldlM_append, hrow]

/-- It may be replaced while tokens are left, too. -/
theorem Conversion.evaluate_complete {row : List Token} {v : Binary64}
    (h : evaluateReversePolish row = .ok v) (tokens : List Token) (c : Conversion) :
    complete tokens ⟨row.reverse ++ c.output, c.waiting⟩ >>= evaluateReversePolish
      = complete tokens ⟨.number v :: c.output, c.waiting⟩ >>= evaluateReversePolish := by
  have hrow := complete_onto (row.reverse ++ c.output) tokens ⟨[], c.waiting⟩
  have hnumber := complete_onto (.number v :: c.output) tokens ⟨[], c.waiting⟩
  rw [onto, List.nil_append] at hrow hnumber
  rw [hrow, hnumber]
  -- What is put out later, or goes wrong later, does not depend on what was put out before.
  cases complete tokens ⟨[], c.waiting⟩ with
  | error e => rfl
  | ok rest =>
    have hreplace := evaluateReversePolish_replace h c.output.reverse rest
    show evaluateReversePolish ((row.reverse ++ c.output).reverse ++ rest)
      = evaluateReversePolish ((.number v :: c.output).reverse ++ rest)
    rwa [List.reverse_append, List.reverse_reverse, List.reverse_cons]

/-- **A group stands for its value.** A row that has a value may be replaced by this value, together
    with a pair of parentheses around it, whatever stands before and after them: the outcome is the
    same, be it a value or an error. -/
theorem group_as_value {tokens : List Token} {v : Binary64}
    (h : reversePolish tokens >>= evaluateReversePolish = .ok v) (before after : List Token) :
    reversePolish (before ++ [.openParen] ++ tokens ++ [.closeParen] ++ after)
        >>= evaluateReversePolish
      = reversePolish (before ++ [.number v] ++ after) >>= evaluateReversePolish := by
  obtain ⟨row, hrow, hvalue⟩ := of_bind_ok h
  -- If the tokens before are wrong already, both rows are.  Else the group and the number meet one
  -- state `c`, and put out the row and the number on top of it.
  have hgroup : reversePolish (before ++ [.openParen] ++ tokens ++ [.closeParen] ++ after)
      = before.foldlM Conversion.step .start >>= fun c =>
        Conversion.complete after ⟨row.reverse ++ c.output, c.waiting⟩ := by
    show Conversion.complete _ .start = _
    rw [List.append_assoc before, List.append_assoc before, List.append_assoc before,
      Conversion.complete_append]
    congr 1
    funext c
    rw [Conversion.complete_append, Conversion.foldlM_group hrow]
    rfl
  have hnumber : reversePolish (before ++ [.number v] ++ after)
      = before.foldlM Conversion.step .start >>= fun c =>
        Conversion.complete after ⟨.number v :: c.output, c.waiting⟩ := by
    show Conversion.complete _ .start = _
    rw [List.append_assoc before, Conversion.complete_append]
    rfl
  rw [hgroup, hnumber, bind_assoc, bind_assoc]
  congr 1
  funext c
  exact Conversion.evaluate_complete hvalue after c

/-- A row that no grammar derives has a value, and a group around it stands for it: before another
    operator, and before a parenthesis that closes nothing. -/
theorem group_as_value_operatorLast :
    let digit (c : Char) : Token := .number (Numeral.value [c])
    let group : List Token :=
      [.openParen] ++ [digit '2', digit '3', .operator .add] ++ [.closeParen]
    (reversePolish [digit '2', digit '3', .operator .add] >>= evaluateReversePolish)
        = .ok (Numeral.value ['5']) ∧
      (reversePolish ([digit '9', .operator .sub] ++ group ++ [.operator .sub, digit '1'])
        >>= evaluateReversePolish) = .ok (Numeral.value ['3']) ∧
      (reversePolish ([] ++ group ++ [.closeParen]) >>= evaluateReversePolish)
        = .error .unmatchedClose := by
  intro digit group
  have hvalue : (reversePolish [digit '2', digit '3', .operator .add] >>= evaluateReversePolish)
      = .ok (Numeral.value ['5']) := ok_of_toOption (by decide +kernel)
  refine ⟨hvalue, ?_, ?_⟩
  · refine (group_as_value hvalue [digit '9', .operator .sub] _).trans ?_
    exact ok_of_toOption (by decide +kernel)
  · exact (group_as_value hvalue [] [.closeParen]).trans rfl

end Reckoner
