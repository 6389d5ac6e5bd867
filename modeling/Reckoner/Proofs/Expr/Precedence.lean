import Reckoner.Proofs.Expr.Derivation
import Reckoner.Proofs.Expr.Lexemes

/-!
# Precedence and grouping

Reordering a derived row of tokens lists its tree in post-order, and evaluating that list gives the
value of the tree.

* `Conversion.Lists` — the invariant of reordering: whatever was put out before and whatever waits
  outside, a row puts out its list but for some operators that are still waiting.
* `Derivation.lists` — every derivation has it, by one lemma for each shape of a tree.
* `Derivation.foldlM_postOrder` — on any stack of operands, the list leaves the value on top.
* `evaluate_of_derivation` — both together, for every derivation and every text.
-/

namespace Reckoner

namespace Conversion

/-! ### Releasing, closing and finishing past a row of operators -/

/-- The innermost thing that waits is no operator that binds as tightly as `least`. -/
def BindsLess (least : Nat) : List Waiting → Prop
  | .operator op :: _ => op.precedence < least
  | _ => True

theorem BindsLess.mono {m n : Nat} (hmn : m ≤ n) {w : List Waiting} (h : BindsLess m w) :
    BindsLess n w := by
  match w with
  | [] => trivial
  | .group :: _ => trivial
  | .operator op :: _ => exact Nat.lt_of_lt_of_le h hmn

/-- The output after waiting operators were put out, the innermost first. -/
def putOut (ops : List Operator) (output : List Token) : List Token :=
  (ops.map Token.operator).reverse ++ output

@[simp] theorem putOut_nil (output : List Token) : putOut [] output = output := rfl

@[simp] theorem putOut_cons (op : Operator) (ops : List Operator) (output : List Token) :
    putOut (op :: ops) output = putOut ops (.operator op :: output) := by
  simp [putOut]

theorem putOut_append (ops others : List Operator) (output : List Token) :
    putOut (ops ++ others) output = putOut others (putOut ops output) := by
  simp [putOut]

/-- Operators that bind tightly enough are all released. -/
theorem release_operators {least : Nat} {w : List Waiting} (hw : BindsLess least w)
    (ops : List Operator) (hops : ∀ op ∈ ops, least ≤ op.precedence) (output : List Token) :
    release least output (ops.map .operator ++ w) = ⟨putOut ops output, w⟩ := by
  induction ops generalizing output with
  | nil =>
    match w with
    | [] => rfl
    | .group :: _ => rfl
    | .operator op :: _ =>
      have hlt : op.precedence < least := hw
      simp [release, Nat.not_le.mpr hlt]
  | cons op ops ih =>
    have hop : least ≤ op.precedence := hops op (by simp)
    have hrest : ∀ op ∈ ops, least ≤ op.precedence := fun op h => hops op (by simp [h])
    rw [List.map_cons, List.cons_append, release, if_pos hop, ih hrest, putOut_cons]

/-- All operators of a group are put out when it is closed. -/
theorem close_operators (ops : List Operator) (output : List Token) (w : List Waiting) :
    close output (ops.map .operator ++ .group :: w) = .ok ⟨putOut ops output, w⟩ := by
  induction ops generalizing output with
  | nil => rfl
  | cons op ops ih => rw [List.map_cons, List.cons_append, close, ih, putOut_cons]

/-- All operators are put out at the end. -/
theorem finish_operators (ops : List Operator) (output : List Token) :
    finish output (ops.map .operator) = .ok (putOut ops output).reverse := by
  induction ops generalizing output with
  | nil => rfl
  | cons op ops ih => rw [List.map_cons, finish, ih, putOut_cons]

/-! ### The invariant of reordering -/

/-- **Reordering with a rest.** After a row of tokens, its list is put out except for operators of
    at least the given level, which wait on top of what waited before. -/
def Lists (level : Nat) (row list : List Token) : Prop :=
  ∀ (output : List Token) (w : List Waiting), BindsLess level w →
    ∃ (ops : List Operator) (output' : List Token),
      row.foldlM step ⟨output, w⟩ = .ok ⟨output', ops.map .operator ++ w⟩ ∧
        (∀ op ∈ ops, level ≤ op.precedence) ∧ putOut ops output' = list.reverse ++ output

theorem Lists.number (level : Nat) (v : Binary64) : Lists level [.number v] [.number v] := by
  intro output w _
  exact ⟨[], .number v :: output, rfl, by simp, rfl⟩

/-- A row that may stand at a tighter level may stand at a looser one. -/
theorem Lists.mono {m n : Nat} (hmn : m ≤ n) {row list : List Token} (h : Lists n row list) :
    Lists m row list := by
  intro output w hw
  obtain ⟨ops, output', hrun, hops, hout⟩ := h output w (hw.mono hmn)
  exact ⟨ops, output', hrun, fun op hop => Nat.le_trans hmn (hops op hop), hout⟩

/-- Parentheses around a row leave nothing waiting, so the group fits at every level. -/
theorem Lists.group {n : Nat} {row list : List Token} (h : Lists n row list) (level : Nat) :
    Lists level (.openParen :: row ++ [.closeParen]) list := by
  intro output w _
  -- Inside the group nothing of what waits outside can be released.
  obtain ⟨ops, output', hrun, -, hout⟩ := h output (.group :: w) trivial
  refine ⟨[], list.reverse ++ output, ?_, by simp, rfl⟩
  have hclose : step ⟨output', ops.map .operator ++ .group :: w⟩ .closeParen
      = .ok ⟨list.reverse ++ output, w⟩ := by
    rw [step, close_operators, hout]
  rw [List.cons_append, List.foldlM_cons]
  show List.foldlM step ⟨output, .group :: w⟩ (row ++ [.closeParen]) = _
  rw [List.foldlM_append, hrun]
  show List.foldlM step ⟨output', ops.map .operator ++ .group :: w⟩ [.closeParen] = _
  rw [List.foldlM_cons, hclose]
  rfl

/-- **One operator.** An operator takes the row before it as its left operand if that is of its own
    level, and the row after it as its right operand if that is of a tighter one. -/
theorem Lists.operator {level : Nat} {op : Operator} (hop : op.precedence = level)
    {row row' list list' : List Token} (h : Lists level row list)
    (h' : Lists (level + 1) row' list') :
    Lists level (row ++ .operator op :: row') (list ++ list' ++ [.operator op]) := by
  subst hop
  intro output w hw
  obtain ⟨ops, out, hrun, hops, hout⟩ := h output w hw
  -- The operator releases what the left operand has left waiting, and then waits itself.
  have hstep : step ⟨out, ops.map .operator ++ w⟩ (.operator op)
      = .ok ⟨list.reverse ++ output, .operator op :: w⟩ := by
    rw [step, release_operators hw ops hops, hout]
  obtain ⟨ops', out', hrun', hops', hout'⟩ :=
    h' (list.reverse ++ output) (.operator op :: w) (Nat.lt_succ_self op.precedence)
  refine ⟨ops' ++ [op], out', ?_, ?_, ?_⟩
  · rw [List.foldlM_append, hrun]
    show List.foldlM step ⟨out, ops.map .operator ++ w⟩ (.operator op :: row') = _
    rw [List.foldlM_cons, hstep]
    show List.foldlM step ⟨list.reverse ++ output, .operator op :: w⟩ row' = _
    rw [hrun', List.map_append, List.append_assoc]
    rfl
  · intro other hother
    rcases List.mem_append.mp hother with hmem | hmem
    · exact Nat.le_of_succ_le (hops' other hmem)
    · exact Nat.le_of_eq (congrArg Operator.precedence (List.mem_singleton.mp hmem).symm)
  · rw [putOut_append, hout']
    simp

end Conversion

/-! ### Derivations -/

namespace Derivation

/-- Every derivation is listed in post-order. -/
theorem lists {k : Category} (d : Derivation k) :
    Conversion.Lists k.level d.tokens d.postOrder := by
  induction d with
  | number v => exact .number _ v
  | group e ih => exact ih.group _
  | ofFactor f ih => exact ih.mono (by decide)
  | product t op h f iht ihf =>
    have hop : op.precedence = 2 := by rcases h with rfl | rfl | rfl <;> rfl
    exact .operator hop iht ihf
  | ofTerm t ih => exact ih.mono (by decide)
  | sum e op h t ihe iht =>
    have hop : op.precedence = 1 := by rcases h with rfl | rfl <;> rfl
    exact .operator hop ihe iht

/-- Two lists that put a value on the stack each, and an operator behind them. -/
theorem foldlM_evaluateStep_operator (op : Operator) {list list' : List Token} {u v : Binary64}
    (h : ∀ stack, list.foldlM evaluateStep stack = .ok (u :: stack))
    (h' : ∀ stack, list'.foldlM evaluateStep stack = .ok (v :: stack)) (stack : List Binary64) :
    (list ++ list' ++ [Token.operator op]).foldlM evaluateStep stack
      = .ok (op.apply u v :: stack) := by
  rw [List.append_assoc, List.foldlM_append, h]
  show List.foldlM evaluateStep (u :: stack) (list' ++ [Token.operator op]) = _
  rw [List.foldlM_append, h']
  rfl

/-- The list of a tree puts its value on the stack, whatever is there already. -/
theorem foldlM_postOrder {k : Category} (d : Derivation k) (stack : List Binary64) :
    d.postOrder.foldlM evaluateStep stack = .ok (d.value :: stack) := by
  induction d generalizing stack with
  | number v => rfl
  | group e ih => exact ih stack
  | ofFactor f ih => exact ih stack
  | product t op h f iht ihf => exact foldlM_evaluateStep_operator op iht ihf stack
  | ofTerm t ih => exact ih stack
  | sum e op h t ihe iht => exact foldlM_evaluateStep_operator op ihe iht stack

/-- Reordering a derived row succeeds with the tree in post-order. -/
theorem reversePolish_tokens (e : Derivation .expression) :
    reversePolish e.tokens = .ok e.postOrder := by
  obtain ⟨ops, output, hrun, -, hout⟩ := e.lists [] [] trivial
  rw [reversePolish, Conversion.start, hrun]
  show Conversion.finish output (ops.map .operator ++ []) = _
  rw [List.append_nil, Conversion.finish_operators, hout]
  simp

/-- The list of an expression evaluates to its value. -/
theorem evaluateReversePolish_postOrder (e : Derivation .expression) :
    evaluateReversePolish e.postOrder = .ok e.value := by
  rw [evaluateReversePolish, e.foldlM_postOrder]
  rfl

end Derivation

/-- **Expressions mean what the grammar says.** A derived row of tokens is reordered into the
    post-order of its tree, that row evaluates to the value of the tree, and so does every text
    with these tokens. -/
theorem evaluate_of_derivation (e : Derivation .expression) :
    reversePolish e.tokens = .ok e.postOrder ∧
      evaluateReversePolish e.postOrder = .ok e.value ∧
      ∀ text : String, Token.ofText text = .ok e.tokens → evaluate text = .ok e.value := by
  refine ⟨e.reversePolish_tokens, e.evaluateReversePolish_postOrder, ?_⟩
  intro text htext
  rw [evaluate, htext]
  show reversePolish e.tokens >>= evaluateReversePolish = _
  rw [e.reversePolish_tokens]
  exact e.evaluateReversePolish_postOrder

/-- Differences group to the left, and a group is taken as one operand. -/
theorem evaluate_difference_of_group :
    let digit (c : Char) : Binary64 := Numeral.value [c]
    Token.ofText "8-(3-2)-1" = .ok [.number (digit '8'), .operator .sub, .openParen,
        .number (digit '3'), .operator .sub, .number (digit '2'), .closeParen, .operator .sub,
        .number (digit '1')] ∧
      evaluate "8-(3-2)-1"
        = .ok (((digit '8').sub ((digit '3').sub (digit '2'))).sub (digit '1')) := by
  intro digit
  have hdigit (c : Char) (rest : List Char) (hblank : isBlank c = false) (hc : c.isDigit)
      (hrow : Numeral.isWellFormed [c] = true)
      (hrest : ∀ d ∈ rest.head?, Numeral.holds d = false) (position : Nat) :
      Token.scan position (c :: rest)
        = (Token.scan (position + Token.byteCount [c]) rest).map (.number (digit c) :: ·) := by
    have hv : Numeral.value? [c] = some (digit c) := by rw [Numeral.value?, if_pos hrow]
    exact @Token.scan_numeral c [] rest _ hblank hc (by simp) hrest hv position
  have hminus : Token.ofChar? '-' = some (.operator .sub) := rfl
  have hopen : Token.ofChar? '(' = some .openParen := rfl
  have hclose : Token.ofChar? ')' = some .closeParen := rfl
  have htext : Token.ofText "8-(3-2)-1" = .ok [.number (digit '8'), .operator .sub, .openParen,
      .number (digit '3'), .operator .sub, .number (digit '2'), .closeParen, .operator .sub,
      .number (digit '1')] := by
    show Token.scan 0 ['8', '-', '(', '3', '-', '2', ')', '-', '1'] = _
    rw [hdigit '8' _ (by decide) (by decide) (by decide) (by rintro d ⟨⟩; rfl),
      Token.scan_symbol (by decide) (by decide) hminus,
      Token.scan_symbol (by decide) (by decide) hopen,
      hdigit '3' _ (by decide) (by decide) (by decide) (by rintro d ⟨⟩; rfl),
      Token.scan_symbol (by decide) (by decide) hminus,
      hdigit '2' _ (by decide) (by decide) (by decide) (by rintro d ⟨⟩; rfl),
      Token.scan_symbol (by decide) (by decide) hclose,
      Token.scan_symbol (by decide) (by decide) hminus,
      hdigit '1' _ (by decide) (by decide) (by decide) (by rintro d ⟨⟩), Token.scan]
    rfl
  have hvalue := (evaluate_of_derivation
    (.sum (.sum (.ofTerm (.ofFactor (.number (digit '8')))) .sub (.inr rfl)
        (.ofFactor (.group (.sum (.ofTerm (.ofFactor (.number (digit '3')))) .sub (.inr rfl)
          (.ofFactor (.number (digit '2')))))))
      .sub (.inr rfl) (.ofFactor (.number (digit '1'))))).2.2 _ htext
  exact ⟨htext, hvalue⟩

end Reckoner
