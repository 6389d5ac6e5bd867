import Reckoner.Proofs.Expr.Precedence
import Reckoner.Proofs.Expr.Reading

/-!
# Which rows are accepted

Reordering looks at the parentheses only, and evaluating at the number of operands only.  Whether
operands and operators take turns nobody checks, so more is accepted than what the grammar derives.

* `balanced_of_reversePolish` — a row that can be reordered is balanced.
* `perm_of_reversePolish` — reordering drops the parentheses and nothing else.
* `countP_of_evaluateReversePolish` — a row that has a value has one number more than operators.
* `derivable_iff_accepted` — an expression is what is accepted and alternates.
-/

namespace Reckoner

/-! ### Kinds of tokens -/

namespace Token

/-- The token is a number. -/
def isNumber : Token → Bool
  | number _ => true
  | _ => false

/-- The token is an operator. -/
def isOperator : Token → Bool
  | operator _ => true
  | _ => false

/-- The token is a parenthesis. -/
def isParen : Token → Bool
  | openParen | closeParen => true
  | _ => false

end Token

open Token

/-- If one computation after another has a result, so has each of them. -/
theorem of_bind_ok {α β : Type} {first : Except EvalError α}
    {then_ : α → Except EvalError β} {b : β}
    (h : first >>= then_ = .ok b) : ∃ a, first = .ok a ∧ then_ a = .ok b := by
  cases first with
  | error e => cases h
  | ok a => exact ⟨a, rfl, h⟩

theorem ok_of_toOption {α : Type} {x : Except EvalError α} {a : α} (h : x.toOption = some a) :
    x = .ok a := by
  cases x with
  | error e => cases h
  | ok b => rw [Option.some.inj h]

namespace Conversion

/-! ### Parentheses -/

/-- How many groups are open. -/
def openGroups (w : List Waiting) : Nat := w.count .group

@[simp] theorem openGroups_operator (op : Operator) (w : List Waiting) :
    openGroups (.operator op :: w) = openGroups w := by
  simp [openGroups]

@[simp] theorem openGroups_group (w : List Waiting) :
    openGroups (.group :: w) = openGroups w + 1 :=
  List.count_cons_self

/-- Operators are released up to the innermost group at most. -/
theorem openGroups_release (least : Nat) (output : List Token) (w : List Waiting) :
    openGroups (release least output w).waiting = openGroups w := by
  induction w generalizing output with
  | nil => rfl
  | cons first rest ih =>
    cases first with
    | group => rfl
    | operator op =>
      rw [release]
      split
      · rw [ih, openGroups_operator]
      · rfl

/-- Closing takes the innermost group away. -/
theorem openGroups_close {output : List Token} {w : List Waiting} {c : Conversion}
    (h : close output w = .ok c) : openGroups w = openGroups c.waiting + 1 := by
  induction w generalizing output with
  | nil => cases h
  | cons first rest ih =>
    cases first with
    | group =>
      cases h
      exact openGroups_group _
    | operator op =>
      rw [openGroups_operator]
      exact ih h

/-- At the end no group is open. -/
theorem openGroups_finish {output row : List Token} {w : List Waiting}
    (h : finish output w = .ok row) : openGroups w = 0 := by
  induction w generalizing output with
  | nil => rfl
  | cons first rest ih =>
    cases first with
    | group => cases h
    | operator op =>
      rw [openGroups_operator]
      exact ih h

/-- A row that leaves no group open is balanced, given the groups that were open before. -/
theorem balanced_of_run {row : List Token} {c c' : Conversion}
    (hrun : row.foldlM step c = .ok c') (hclosed : openGroups c'.waiting = 0) :
    balanced (openGroups c.waiting) row = true := by
  induction row generalizing c with
  | nil =>
    cases hrun
    rw [hclosed]
    rfl
  | cons token row ih =>
    rw [List.foldlM_cons] at hrun
    obtain ⟨next, hstep, hrun⟩ := of_bind_ok hrun
    have hbalanced := ih hrun
    cases token with
    | number v =>
      cases hstep
      exact hbalanced
    | operator op =>
      cases hstep
      rwa [openGroups_operator, openGroups_release] at hbalanced
    | openParen =>
      cases hstep
      rwa [openGroups_group] at hbalanced
    | closeParen =>
      rw [openGroups_close hstep]
      exact hbalanced

/-! ### What is put out -/

/-- The operators that wait, as tokens. -/
def operators (w : List Waiting) : List Token :=
  w.filterMap fun
    | .operator op => some (.operator op)
    | .group => none

/-- The tokens that were taken and not dropped: those put out, and the operators that wait. -/
def kept (c : Conversion) : List Token := c.output ++ operators c.waiting

theorem perm_release (least : Nat) (output : List Token) (w : List Waiting) :
    (release least output w).kept.Perm (output ++ operators w) := by
  induction w generalizing output with
  | nil => rfl
  | cons first rest ih =>
    cases first with
    | group => rfl
    | operator op =>
      rw [release]
      split
      · exact (ih _).trans List.perm_middle.symm
      · rfl

theorem perm_close {output : List Token} {w : List Waiting} {c : Conversion}
    (h : close output w = .ok c) : c.kept.Perm (output ++ operators w) := by
  induction w generalizing output with
  | nil => cases h
  | cons first rest ih =>
    cases first with
    | group =>
      cases h
      rfl
    | operator op => exact (ih h).trans List.perm_middle.symm

theorem perm_finish {output row : List Token} {w : List Waiting}
    (h : finish output w = .ok row) : row.Perm (output ++ operators w) := by
  induction w generalizing output with
  | nil =>
    cases h
    rw [operators, List.filterMap_nil, List.append_nil]
    exact output.reverse_perm
  | cons first rest ih =>
    cases first with
    | group => cases h
    | operator op => exact (ih h).trans List.perm_middle.symm

/-- Taking a token keeps it, if it is no parenthesis, and everything else. -/
theorem perm_step {c next : Conversion} {token : Token} (h : c.step token = .ok next) :
    next.kept.Perm ([token].filter (fun t => !t.isParen) ++ c.kept) := by
  cases token with
  | number v =>
    cases h
    rfl
  | operator op =>
    cases h
    exact List.perm_middle.trans ((perm_release ..).cons _)
  | openParen =>
    cases h
    rfl
  | closeParen => exact perm_close h

theorem perm_of_run {row : List Token} {c c' : Conversion} (hrun : row.foldlM step c = .ok c') :
    c'.kept.Perm (row.filter (fun t => !t.isParen) ++ c.kept) := by
  induction row generalizing c with
  | nil =>
    cases hrun
    rfl
  | cons token row ih =>
    rw [List.foldlM_cons] at hrun
    obtain ⟨next, hstep, hrun⟩ := of_bind_ok hrun
    have hfirst := (perm_step hstep).append_left (row.filter fun t => !t.isParen)
    rw [← List.append_assoc] at hfirst
    rw [← List.singleton_append, List.filter_append]
    exact ((ih hrun).trans hfirst).trans (List.perm_append_comm.append_right _)

end Conversion

/-- A row that can be reordered is balanced. -/
theorem balanced_of_reversePolish {tokens row : List Token} (h : reversePolish tokens = .ok row) :
    balanced 0 tokens = true := by
  obtain ⟨c, hrun, hfinish⟩ := of_bind_ok h
  exact Conversion.balanced_of_run hrun (Conversion.openGroups_finish hfinish)

/-- **Reordering.** The parentheses are dropped, and all other tokens are put out once each. -/
theorem perm_of_reversePolish {tokens row : List Token} (h : reversePolish tokens = .ok row) :
    row.Perm (tokens.filter fun t => !t.isParen) := by
  obtain ⟨c, hrun, hfinish⟩ := of_bind_ok h
  have hall := (Conversion.perm_finish hfinish).trans (Conversion.perm_of_run hrun)
  rwa [Conversion.kept, Conversion.start, Conversion.operators, List.filterMap_nil,
    List.append_nil, List.append_nil] at hall

/-- Tokens of a kind that is no parenthesis are as many as before. -/
theorem countP_of_reversePolish {tokens row : List Token} (h : reversePolish tokens = .ok row)
    {kind : Token → Bool} (hkind : ∀ t, (kind t && !t.isParen) = kind t) :
    row.countP kind = tokens.countP kind := by
  rw [(perm_of_reversePolish h).countP_eq kind, List.countP_filter]
  exact List.countP_congr fun t _ => by rw [hkind t]

/-! ### Counting operands -/

/-- A number puts an operand on the stack, and an operator takes one away. -/
theorem length_of_evaluateStep {row : List Token} {stack stack' : List Binary64}
    (h : row.foldlM evaluateStep stack = .ok stack') :
    stack.length + row.countP isNumber = stack'.length + row.countP isOperator := by
  induction row generalizing stack with
  | nil =>
    cases h
    rfl
  | cons token row ih =>
    rw [List.foldlM_cons] at h
    obtain ⟨next, hstep, h⟩ := of_bind_ok h
    have hrest := ih h
    cases token with
    | number v =>
      cases hstep
      rw [List.length_cons] at hrest
      rw [List.countP_cons_of_pos rfl, List.countP_cons_of_neg Bool.false_ne_true]
      omega
    | operator op =>
      rw [List.countP_cons_of_neg Bool.false_ne_true, List.countP_cons_of_pos rfl]
      cases stack with
      | nil => cases hstep
      | cons rhs below =>
        cases below with
        | nil => cases hstep
        | cons lhs below =>
          cases hstep
          rw [List.length_cons] at hrest ⊢
          rw [List.length_cons]
          omega
    | openParen | closeParen => cases hstep

/-- A row that has a value has one number more than operators. -/
theorem countP_of_evaluateReversePolish {row : List Token} {v : Binary64}
    (h : evaluateReversePolish row = .ok v) :
    row.countP isNumber = row.countP isOperator + 1 := by
  obtain ⟨stack, hrun, hv⟩ := of_bind_ok h
  have hlength := length_of_evaluateStep hrun
  cases stack with
  | nil => cases hv
  | cons w below =>
    cases below with
    | nil =>
      rw [List.length_nil, List.length_singleton] at hlength
      omega
    | cons => cases hv

/-! ### Accepted texts -/

/-- A text that has a value has tokens, which can be reordered into a row that has this value. -/
theorem of_evaluate {text : String} {v : Binary64} (h : evaluate text = .ok v) :
    ∃ tokens row, Token.ofText text = .ok tokens ∧ reversePolish tokens = .ok row ∧
      evaluateReversePolish row = .ok v := by
  obtain ⟨tokens, htext, h⟩ := of_bind_ok h
  obtain ⟨row, hrow, hv⟩ := of_bind_ok h
  exact ⟨tokens, row, htext, hrow, hv⟩

/-- **What is accepted, and what of it is an expression.** A text is derived by the grammar just if
    it is accepted and its operands and operators take turns.  In every text that is accepted the
    parentheses match, and there is one number more than there are operators. -/
theorem derivable_iff_accepted (text : String) :
    ((∃ e : Derivation .expression, Token.ofText text = .ok e.tokens) ↔
        ∃ tokens v, Token.ofText text = .ok tokens ∧ evaluate text = .ok v ∧
          alternates true tokens = true) ∧
      ∀ v, evaluate text = .ok v → ∃ tokens, Token.ofText text = .ok tokens ∧
        balanced 0 tokens = true ∧
        tokens.countP isNumber = tokens.countP isOperator + 1 := by
  refine ⟨⟨?_, ?_⟩, ?_⟩
  · rintro ⟨e, htext⟩
    refine ⟨e.tokens, e.value, htext, ?_, e.alternates_tokens⟩
    rw [evaluate, htext]
    show reversePolish e.tokens >>= evaluateReversePolish = _
    rw [e.reversePolish_tokens]
    exact e.evaluateReversePolish_postOrder
  · rintro ⟨tokens, v, htext, hvalue, halternates⟩
    obtain ⟨tokens', row, htext', hrow, -⟩ := of_evaluate hvalue
    rw [htext] at htext'
    cases htext'
    obtain ⟨e, rfl⟩ := (derivable_iff tokens).mpr ⟨halternates, balanced_of_reversePolish hrow⟩
    exact ⟨e, htext⟩
  · intro v hvalue
    obtain ⟨tokens, row, htext, hrow, hv⟩ := of_evaluate hvalue
    refine ⟨tokens, htext, balanced_of_reversePolish hrow, ?_⟩
    have hnumbers : row.countP isNumber = tokens.countP isNumber :=
      countP_of_reversePolish hrow fun t => by cases t <;> rfl
    have hoperators : row.countP isOperator = tokens.countP isOperator :=
      countP_of_reversePolish hrow fun t => by cases t <;> rfl
    rw [← hnumbers, ← hoperators]
    exact countP_of_evaluateReversePolish hv

/-- A product with a group is accepted, so it is derived by the grammar. -/
theorem derivable_productOfGroup : evaluate "2*(3+4)" = .ok (Numeral.value ['1', '4']) ∧
    (∃ e : Derivation .expression, Token.ofText "2*(3+4)" = .ok e.tokens) ∧
    ∃ tokens, Token.ofText "2*(3+4)" = .ok tokens ∧ balanced 0 tokens = true ∧
      tokens.countP isNumber = tokens.countP isOperator + 1 := by
  have hvalue : evaluate "2*(3+4)" = .ok (Numeral.value ['1', '4']) :=
    ok_of_toOption (by decide +kernel)
  have htext : Token.ofText "2*(3+4)" = .ok [.number (Numeral.value ['2']), .operator .mul,
      .openParen, .number (Numeral.value ['3']), .operator .add, .number (Numeral.value ['4']),
      .closeParen] := ok_of_toOption (by decide +kernel)
  refine ⟨hvalue, ?_, (derivable_iff_accepted "2*(3+4)").2 _ hvalue⟩
  exact (derivable_iff_accepted "2*(3+4)").1.mpr ⟨_, _, htext, hvalue, rfl⟩

/-- An operator behind its operands is accepted, but no infix expression looks like that. -/
theorem accepted_operatorLast : evaluate "2 3 +" = .ok (Numeral.value ['5']) ∧
    ¬ ∃ e : Derivation .expression, Token.ofText "2 3 +" = .ok e.tokens := by
  have htext : Token.ofText "2 3 +" = .ok [.number (Numeral.value ['2']),
      .number (Numeral.value ['3']), .operator .add] := ok_of_toOption (by decide +kernel)
  refine ⟨ok_of_toOption (by decide +kernel), ?_⟩
  rintro ⟨e, he⟩
  rw [htext] at he
  have halternates := e.alternates_tokens
  rw [← Except.ok.inj he] at halternates
  cases halternates

end Reckoner
