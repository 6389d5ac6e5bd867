import Reckoner.Proofs.Expr.Acceptance

/-!
# Why a row of tokens fails

Reordering fails on account of the parentheses, and evaluating on account of the operands.  Which
error comes out can be told by counting tokens in the parts of the row that stand before others.

* `Token.Overcloses` — somewhere more groups are closed than were opened.
* `Token.Starves` — the first operator with fewer than two operands before it.
* `reversePolish_cases` — the three results of reordering.
* `error_of_evaluateRun` — the only way in which evaluating gets stuck.
* `failures_of_row` — which error comes out, for each row of tokens.
-/

namespace Reckoner

open Token

namespace Token

/-! ### Closing more than is open -/

/-- Up to some place in the row more groups are closed than were opened, given how many are open
    before it. -/
def Overcloses (depth : Nat) (row : List Token) : Prop :=
  ∃ before, before <+: row ∧ depth + before.count .openParen < before.count .closeParen

theorem not_overcloses_nil (depth : Nat) : ¬ Overcloses depth [] := by
  rintro ⟨before, hprefix, hcount⟩
  rw [List.prefix_nil.mp hprefix] at hcount
  exact Nat.not_lt_zero _ hcount

/-- The place is behind the first token. -/
theorem overcloses_cons (depth : Nat) (token : Token) (row : List Token) :
    Overcloses depth (token :: row) ↔ ∃ before, before <+: row ∧
      depth + (token :: before).count .openParen < (token :: before).count .closeParen := by
  constructor
  · rintro ⟨before, hprefix, hcount⟩
    obtain rfl | ⟨behind, rfl, hbehind⟩ := List.prefix_cons_iff.mp hprefix
    · exact absurd hcount (Nat.not_lt_zero _)
    · exact ⟨behind, hbehind, hcount⟩
  · rintro ⟨before, hprefix, hcount⟩
    exact ⟨token :: before, (List.prefix_cons_inj token).mpr hprefix, hcount⟩

@[simp] theorem overcloses_number (depth : Nat) (v : Binary64) (row : List Token) :
    Overcloses depth (.number v :: row) ↔ Overcloses depth row := by
  rw [overcloses_cons]
  simp [Overcloses]

@[simp] theorem overcloses_operator (depth : Nat) (op : Operator) (row : List Token) :
    Overcloses depth (.operator op :: row) ↔ Overcloses depth row := by
  rw [overcloses_cons]
  simp [Overcloses]

@[simp] theorem overcloses_openParen (depth : Nat) (row : List Token) :
    Overcloses depth (.openParen :: row) ↔ Overcloses (depth + 1) row := by
  rw [overcloses_cons]
  simp [Overcloses, Nat.add_assoc, Nat.add_comm 1]

@[simp] theorem overcloses_closeParen_succ (depth : Nat) (row : List Token) :
    Overcloses (depth + 1) (.closeParen :: row) ↔ Overcloses depth row := by
  rw [overcloses_cons]
  simp [Overcloses, Nat.add_right_comm]

theorem overcloses_closeParen_zero (row : List Token) : Overcloses 0 (.closeParen :: row) :=
  (overcloses_cons ..).mpr ⟨[], List.nil_prefix, Nat.zero_lt_one⟩

/-! ### Too few operands -/

/-- The operator is the first in the row that has fewer than two operands before it, given how many
    are there before the row.  Each number adds an operand, and each operator takes one away. -/
def Starves (height : Nat) (row : List Token) (op : Operator) : Prop :=
  ∃ before after, row = before ++ .operator op :: after ∧
    height + before.countP isNumber < before.countP isOperator + 2 ∧
    ∀ earlier other between, before = earlier ++ .operator other :: between →
      earlier.countP isOperator + 2 ≤ height + earlier.countP isNumber

theorem not_starves_nil (height : Nat) (op : Operator) : ¬ Starves height [] op := by
  rintro ⟨before, after, hrow, -⟩
  exact absurd hrow.symm (List.append_ne_nil_of_right_ne_nil _ (List.cons_ne_nil _ _))

/-- A number is one operand more. -/
@[simp] theorem starves_number (height : Nat) (v : Binary64) (row : List Token) (op : Operator) :
    Starves height (.number v :: row) op ↔ Starves (height + 1) row op := by
  have hcount (read : List Token) :
      height + (.number v :: read).countP isNumber = height + 1 + read.countP isNumber ∧
        (.number v :: read).countP isOperator = read.countP isOperator := by
    rw [List.countP_cons_of_pos rfl]
    exact ⟨by omega, List.countP_cons_of_neg Bool.false_ne_true⟩
  constructor
  · rintro ⟨before, after, hrow, hshort, hearlier⟩
    cases before with
    | nil => cases hrow
    | cons first before =>
      cases hrow
      rw [(hcount before).1, (hcount before).2] at hshort
      refine ⟨before, after, rfl, hshort, ?_⟩
      rintro earlier other between rfl
      have h := hearlier (.number v :: earlier) other between rfl
      rwa [(hcount earlier).1, (hcount earlier).2] at h
  · rintro ⟨before, after, rfl, hshort, hearlier⟩
    refine ⟨.number v :: before, after, rfl, ?_, ?_⟩
    · rwa [(hcount before).1, (hcount before).2]
    · intro earlier other between hbefore
      cases earlier with
      | nil => cases hbefore
      | cons first earlier =>
        cases hbefore
        rw [(hcount earlier).1, (hcount earlier).2]
        exact hearlier earlier other between rfl

/-- With fewer than two operands at hand, the first operator is the one. -/
theorem starves_operator_of_lt {height : Nat} (hshort : height < 2) (first : Operator)
    (row : List Token) (op : Operator) :
    Starves height (.operator first :: row) op ↔ op = first := by
  constructor
  · rintro ⟨before, after, hrow, -, hearlier⟩
    cases before with
    | nil =>
      cases hrow
      rfl
    | cons token before =>
      cases hrow
      have henough := hearlier [] first before rfl
      rw [List.countP_nil, List.countP_nil] at henough
      omega
  · rintro rfl
    refine ⟨[], row, rfl, ?_, ?_⟩
    · rwa [List.countP_nil, List.countP_nil, Nat.add_zero, Nat.zero_add]
    · intro earlier other between hnone
      exact absurd hnone.symm (List.append_ne_nil_of_right_ne_nil _ (List.cons_ne_nil _ _))

/-- With two operands at hand, an operator leaves one less. -/
@[simp] theorem starves_operator (height : Nat) (first : Operator) (row : List Token)
    (op : Operator) :
    Starves (height + 2) (.operator first :: row) op ↔ Starves (height + 1) row op := by
  have hcount (read : List Token) :
      (.operator first :: read).countP isNumber = read.countP isNumber ∧
        (.operator first :: read).countP isOperator = read.countP isOperator + 1 :=
    ⟨List.countP_cons_of_neg Bool.false_ne_true, List.countP_cons_of_pos rfl⟩
  constructor
  · rintro ⟨before, after, hrow, hshort, hearlier⟩
    cases before with
    | nil =>
      rw [List.countP_nil, List.countP_nil] at hshort
      omega
    | cons token before =>
      cases hrow
      rw [(hcount before).1, (hcount before).2] at hshort
      refine ⟨before, after, rfl, by omega, ?_⟩
      rintro earlier other between rfl
      have h := hearlier (.operator first :: earlier) other between rfl
      rw [(hcount earlier).1, (hcount earlier).2] at h
      omega
  · rintro ⟨before, after, rfl, hshort, hearlier⟩
    refine ⟨.operator first :: before, after, rfl, ?_, ?_⟩
    · rw [(hcount before).1, (hcount before).2]
      omega
    · intro earlier other between hbefore
      cases earlier with
      | nil =>
        rw [List.countP_nil, List.countP_nil]
        omega
      | cons token earlier =>
        cases hbefore
        have h := hearlier earlier other between rfl
        rw [(hcount earlier).1, (hcount earlier).2]
        omega

end Token

namespace Conversion

/-! ### What stops reordering -/

/-- Closing fails just if no group is open. -/
theorem close_cases (output : List Token) (w : List Waiting) :
    (openGroups w = 0 ∧ close output w = .error .unmatchedClose) ∨
      ∃ c, close output w = .ok c ∧ openGroups w = openGroups c.waiting + 1 := by
  induction w generalizing output with
  | nil => exact .inl ⟨rfl, rfl⟩
  | cons first rest ih =>
    cases first with
    | group => exact .inr ⟨⟨output, rest⟩, rfl, openGroups_group rest⟩
    | operator op =>
      rw [openGroups_operator]
      exact ih (.operator op :: output)

/-- The end comes too early just if a group is open. -/
theorem finish_cases (output : List Token) (w : List Waiting) :
    (0 < openGroups w ∧ finish output w = .error .unclosedParen) ∨
      (openGroups w = 0 ∧ ∃ row, finish output w = .ok row) := by
  induction w generalizing output with
  | nil => exact .inr ⟨rfl, output.reverse, rfl⟩
  | cons first rest ih =>
    cases first with
    | group =>
      rw [openGroups_group]
      exact .inl ⟨Nat.succ_pos _, rfl⟩
    | operator op =>
      rw [openGroups_operator]
      exact ih (.operator op :: output)

/-- **Taking a row.** It fails just where more is closed than is open, and otherwise the groups are
    counted up and down. -/
theorem run_cases (row : List Token) (c : Conversion) :
    (Overcloses (openGroups c.waiting) row ∧
        row.foldlM step c = .error .unmatchedClose) ∨
      (¬ Overcloses (openGroups c.waiting) row ∧ ∃ c', row.foldlM step c = .ok c' ∧
        openGroups c.waiting + row.count .openParen
          = openGroups c'.waiting + row.count .closeParen) := by
  induction row generalizing c with
  | nil => exact .inr ⟨not_overcloses_nil _, c, rfl, rfl⟩
  | cons token row ih =>
    rw [List.foldlM_cons]
    cases token with
    | number v =>
      rw [overcloses_number, List.count_cons_of_ne Token.noConfusion,
        List.count_cons_of_ne Token.noConfusion]
      exact ih ⟨.number v :: c.output, c.waiting⟩
    | operator op =>
      have hrest := ih ⟨(release op.precedence c.output c.waiting).output,
        .operator op :: (release op.precedence c.output c.waiting).waiting⟩
      rw [openGroups_operator, openGroups_release] at hrest
      rw [overcloses_operator, List.count_cons_of_ne Token.noConfusion,
        List.count_cons_of_ne Token.noConfusion]
      exact hrest
    | openParen =>
      have hrest := ih ⟨c.output, .group :: c.waiting⟩
      rw [openGroups_group] at hrest
      rw [overcloses_openParen, List.count_cons_self, List.count_cons_of_ne Token.noConfusion,
        ← Nat.add_assoc, Nat.add_right_comm]
      exact hrest
    | closeParen =>
      have hfirst : c.step .closeParen = close c.output c.waiting := rfl
      rw [hfirst]
      rcases close_cases c.output c.waiting with ⟨hnone, hclose⟩ | ⟨next, hclose, hopen⟩
      · rw [hnone, hclose]
        exact .inl ⟨overcloses_closeParen_zero row, rfl⟩
      · rw [hopen, hclose, overcloses_closeParen_succ, List.count_cons_self,
          List.count_cons_of_ne Token.noConfusion]
        obtain ⟨hover, herror⟩ | ⟨hover, c', hrun, hcount⟩ := ih next
        · exact .inl ⟨hover, herror⟩
        · exact .inr ⟨hover, c', hrun, by omega⟩

/-! ### The order of the numbers -/

/-- Releasing puts out no number. -/
theorem numbers_release (least : Nat) (output : List Token) (w : List Waiting) :
    (release least output w).output.filter isNumber = output.filter isNumber := by
  induction w generalizing output with
  | nil => rfl
  | cons first rest ih =>
    cases first with
    | group => rfl
    | operator op =>
      rw [release]
      split
      · exact ih (.operator op :: output)
      · rfl

/-- Closing puts out no number. -/
theorem numbers_close {output : List Token} {w : List Waiting} {c : Conversion}
    (h : close output w = .ok c) : c.output.filter isNumber = output.filter isNumber := by
  induction w generalizing output with
  | nil => cases h
  | cons first rest ih =>
    cases first with
    | group =>
      cases h
      rfl
    | operator op =>
      have hrest := ih h
      exact hrest

/-- At the end no number is put out, and the whole is turned round. -/
theorem numbers_finish {output row : List Token} {w : List Waiting}
    (h : finish output w = .ok row) :
    row.filter isNumber = (output.filter isNumber).reverse := by
  induction w generalizing output with
  | nil =>
    cases h
    rw [List.filter_reverse]
  | cons first rest ih =>
    cases first with
    | group => cases h
    | operator op =>
      have hrest := ih h
      exact hrest

/-- A number is put out at once. -/
theorem numbers_step {c next : Conversion} {token : Token} (h : c.step token = .ok next) :
    next.output.filter isNumber = [token].filter isNumber ++ c.output.filter isNumber := by
  cases token with
  | number v =>
    cases h
    rfl
  | operator op =>
    cases h
    exact numbers_release op.precedence c.output c.waiting
  | openParen =>
    cases h
    rfl
  | closeParen => exact numbers_close h

theorem numbers_of_run {row : List Token} {c c' : Conversion}
    (hrun : row.foldlM step c = .ok c') :
    c'.output.filter isNumber = (row.filter isNumber).reverse ++ c.output.filter isNumber := by
  induction row generalizing c with
  | nil =>
    cases hrun
    rfl
  | cons token row ih =>
    rw [List.foldlM_cons] at hrun
    obtain ⟨next, hstep, hrun⟩ := of_bind_ok hrun
    have hfirst : ([token].filter isNumber).reverse = [token].filter isNumber := by
      cases token <;> rfl
    rw [ih hrun, numbers_step hstep, ← List.append_assoc, ← List.singleton_append (l := row),
      List.filter_append, List.reverse_append, hfirst]

end Conversion

/-- Reordering leaves the numbers in their order. -/
theorem numbers_of_reversePolish {tokens row : List Token} (h : reversePolish tokens = .ok row) :
    row.filter isNumber = tokens.filter isNumber := by
  obtain ⟨c, hrun, hfinish⟩ := of_bind_ok h
  rw [Conversion.numbers_finish hfinish, Conversion.numbers_of_run hrun, Conversion.start,
    List.filter_nil, List.append_nil, List.reverse_reverse]

/-- **The results of reordering.** An unmatched parenthesis that closes comes first, then one that
    is never closed, and otherwise there is a row. -/
theorem reversePolish_cases (tokens : List Token) :
    (Overcloses 0 tokens ∧ reversePolish tokens = .error .unmatchedClose) ∨
      (¬ Overcloses 0 tokens ∧ tokens.count .closeParen < tokens.count .openParen ∧
        reversePolish tokens = .error .unclosedParen) ∨
      (¬ Overcloses 0 tokens ∧ tokens.count .openParen ≤ tokens.count .closeParen ∧
        ∃ row, reversePolish tokens = .ok row) := by
  have hnone : Conversion.openGroups Conversion.start.waiting = 0 := rfl
  have hrun := Conversion.run_cases tokens Conversion.start
  rw [hnone, Nat.zero_add] at hrun
  obtain ⟨hover, herror⟩ | ⟨hover, c, hrun, hcount⟩ := hrun
  · exact .inl ⟨hover, by rw [reversePolish, herror]; rfl⟩
  · have hresult : reversePolish tokens = Conversion.finish c.output c.waiting := by
      rw [reversePolish, hrun]
      rfl
    rw [hresult]
    obtain ⟨hopen, herror⟩ | ⟨hclosed, hrow⟩ := Conversion.finish_cases c.output c.waiting
    · exact .inr (.inl ⟨hover, by omega, herror⟩)
    · exact .inr (.inr ⟨hover, by omega, hrow⟩)

/-! ### What stops evaluating -/

/-- A row without parentheses gets stuck just at the first operator that lacks an operand. -/
theorem error_of_evaluateRun {row : List Token} (hparens : ∀ t ∈ row, t.isParen = false)
    (stack : List Binary64) (e : EvalError) :
    row.foldlM evaluateStep stack = .error e ↔
      ∃ op, e = .missingOperand op ∧ Starves stack.length row op := by
  induction row generalizing stack with
  | nil =>
    refine ⟨nofun, ?_⟩
    rintro ⟨op, -, hstarves⟩
    exact absurd hstarves (not_starves_nil _ op)
  | cons token row ih =>
    obtain ⟨htoken, hrest⟩ := List.forall_mem_cons.mp hparens
    rw [List.foldlM_cons]
    cases token with
    | number v =>
      simp only [starves_number]
      exact ih hrest (v :: stack)
    | openParen | closeParen => cases htoken
    | operator first =>
      have hstuck (hshort : stack.length < 2)
          (hstep : evaluateStep stack (.operator first) = .error (.missingOperand first)) :
          (evaluateStep stack (.operator first) >>= fun s => row.foldlM evaluateStep s) = .error e
            ↔ ∃ op, e = .missingOperand op ∧ Starves stack.length (.operator first :: row) op := by
        simp only [starves_operator_of_lt hshort, exists_eq_right, hstep]
        exact ⟨fun h => (Except.error.inj h).symm, fun h => congrArg Except.error h.symm⟩
      match stack with
      | [] => exact hstuck Nat.zero_lt_two rfl
      | [_] => exact hstuck Nat.one_lt_two rfl
      | rhs :: lhs :: below =>
        simp only [List.length_cons, starves_operator]
        exact ih hrest (first.apply lhs rhs :: below)

/-- Each token leaves an operand behind, so none is left only if there was no token. -/
theorem eq_nil_of_evaluateRun {row : List Token} {stack : List Binary64}
    (h : row.foldlM evaluateStep stack = .ok []) : row = [] := by
  obtain rfl | ⟨before, last, rfl⟩ := row.eq_nil_or_concat
  · rfl
  · rw [List.concat_eq_append, List.foldlM_append] at h
    obtain ⟨held, -, h⟩ := of_bind_ok h
    obtain ⟨left, hlast, hnil⟩ := of_bind_ok h
    cases hnil
    cases last with
    | number | openParen | closeParen => cases hlast
    | operator op =>
      match held with
      | [] | [_] | _ :: _ :: _ => cases hlast

/-- Only one operator is the first that lacks an operand. -/
theorem Token.Starves.unique {row : List Token} {op other : Operator}
    (hparens : ∀ t ∈ row, t.isParen = false) (h : Starves 0 row op) (h' : Starves 0 row other) :
    op = other := by
  have hop := (error_of_evaluateRun hparens [] _).mpr ⟨op, rfl, h⟩
  have hother := (error_of_evaluateRun hparens [] _).mpr ⟨other, rfl, h'⟩
  rw [hop] at hother
  exact EvalError.missingOperand.inj (Except.error.inj hother)

/-- **The results of evaluating.** An operator that lacks an operand comes first, and otherwise the
    number of operands that are left decides. -/
theorem evaluateReversePolish_cases {row : List Token} (hparens : ∀ t ∈ row, t.isParen = false) :
    (∃ op, Starves 0 row op ∧ evaluateReversePolish row = .error (.missingOperand op)) ∨
      ((∀ op, ¬ Starves 0 row op) ∧
        ((row = [] ∧ evaluateReversePolish row = .error .noOperands) ∨
          (row.countP isNumber = row.countP isOperator + 1 ∧
            ∃ v, evaluateReversePolish row = .ok v) ∨
          ∃ k, 2 ≤ k ∧ row.countP isNumber = row.countP isOperator + k ∧
            evaluateReversePolish row = .error (.leftoverOperands k))) := by
  have hstuck := error_of_evaluateRun hparens []
  rw [evaluateReversePolish]
  cases hrun : row.foldlM evaluateStep [] with
  | error e =>
    obtain ⟨op, rfl, hstarves⟩ := (hstuck e).mp hrun
    exact .inl ⟨op, hstarves, rfl⟩
  | ok stack =>
    have hcount := length_of_evaluateStep hrun
    rw [List.length_nil, Nat.zero_add] at hcount
    refine .inr ⟨?_, ?_⟩
    · intro op hstarves
      have herror := (hstuck _).mpr ⟨op, rfl, hstarves⟩
      rw [hrun] at herror
      cases herror
    · cases stack with
      | nil => exact .inl ⟨eq_nil_of_evaluateRun hrun, rfl⟩
      | cons v rest =>
        cases rest with
        | nil =>
          rw [List.length_singleton] at hcount
          exact .inr (.inl ⟨by omega, v, rfl⟩)
        | cons w below =>
          refine .inr (.inr ⟨(v :: w :: below).length, ?_, by omega, rfl⟩)
          exact Nat.le_add_left 2 below.length

/-! ### Both together -/

/-- The row holds the tokens without their parentheses, in some order, and the numbers in the order
    they had. -/
structure Reordered (tokens row : List Token) : Prop where
  noParen : ∀ t ∈ row, t.isParen = false
  perm : row.Perm (tokens.filter fun t => !t.isParen)
  numbers : row.filter isNumber = tokens.filter isNumber

theorem reordered_of_reversePolish {tokens row : List Token}
    (h : reversePolish tokens = .ok row) : Reordered tokens row where
  noParen t ht := by
    have hkept := (List.mem_filter.mp ((perm_of_reversePolish h).mem_iff.mp ht)).2
    rwa [Bool.not_eq_true'] at hkept
  perm := perm_of_reversePolish h
  numbers := numbers_of_reversePolish h

/-- What evaluating a row comes to, told by counting: in the row up to its operators, and in the
    tokens that it was reordered from. -/
structure Judged (tokens row : List Token) : Prop where
  /-- No parenthesis is met. -/
  noParen : evaluateReversePolish row ≠ .error .unclosedParen
  /-- The error is at the first operator that lacks an operand. -/
  missing : ∀ op, evaluateReversePolish row = .error (.missingOperand op) ↔ Starves 0 row op
  /-- Without such an operator, there is nothing to evaluate just if nothing was there. -/
  empty : (∀ op, ¬ Starves 0 row op) → (evaluateReversePolish row = .error .noOperands ↔
    tokens.countP isNumber = 0 ∧ tokens.countP isOperator = 0)
  /-- Without such an operator, what is left over is the numbers less the operators. -/
  leftover : (∀ op, ¬ Starves 0 row op) → ∀ k,
    (evaluateReversePolish row = .error (.leftoverOperands k) ↔
      2 ≤ k ∧ tokens.countP isNumber = tokens.countP isOperator + k)
  /-- Without such an operator, there is a value just if one is left. -/
  value : (∀ op, ¬ Starves 0 row op) → ((∃ v, evaluateReversePolish row = .ok v) ↔
    tokens.countP isNumber = tokens.countP isOperator + 1)

theorem judged_of_reversePolish {tokens row : List Token} (h : reversePolish tokens = .ok row) :
    Judged tokens row := by
  have hparens := (reordered_of_reversePolish h).noParen
  have hnumbers : row.countP isNumber = tokens.countP isNumber :=
    countP_of_reversePolish h fun t => by cases t <;> rfl
  have hoperators : row.countP isOperator = tokens.countP isOperator :=
    countP_of_reversePolish h fun t => by cases t <;> rfl
  obtain ⟨op, hstarves, hresult⟩ | ⟨hnone, hresults⟩ := evaluateReversePolish_cases hparens
  · refine ⟨by simp [hresult], fun other => ?_, ?_, ?_, ?_⟩
    · rw [hresult]
      constructor
      · intro herror
        cases herror
        exact hstarves
      · intro hother
        rw [hstarves.unique hparens hother]
    all_goals exact fun hnone => absurd hstarves (hnone op)
  · rw [hnumbers, hoperators] at hresults
    obtain ⟨hrow, hresult⟩ | ⟨hone, v, hresult⟩ | ⟨k, hk, hleft, hresult⟩ := hresults
    · rw [hrow, List.countP_nil] at hnumbers hoperators
      refine ⟨?_, ?_, fun _ => ?_, fun _ other => ?_, fun _ => ?_⟩ <;>
        simp [hresult, hnone, ← hnumbers, ← hoperators]
      omega
    · refine ⟨?_, ?_, fun _ => ?_, fun _ other => ?_, fun _ => ?_⟩ <;>
        simp [hresult, hnone, hone, -List.countP_eq_zero]
      omega
    · refine ⟨?_, ?_, fun _ => ?_, fun _ other => ?_, fun _ => ?_⟩ <;>
        simp [hresult, hnone, hleft, -List.countP_eq_zero] <;> omega

/-- **Which error comes out.** For each row of tokens: whether reordering fails, and on which
    parenthesis; else what the reordered row holds, and what evaluating it comes to. -/
theorem failures_of_row (tokens : List Token) :
    (reversePolish tokens = .error .unmatchedClose ↔ Overcloses 0 tokens) ∧
      (reversePolish tokens = .error .unclosedParen ↔
        ¬ Overcloses 0 tokens ∧ tokens.count .closeParen < tokens.count .openParen) ∧
      ((∃ row, reversePolish tokens = .ok row ∧ Reordered tokens row ∧ Judged tokens row) ↔
        ¬ Overcloses 0 tokens ∧ tokens.count .openParen ≤ tokens.count .closeParen) := by
  obtain ⟨hover, hresult⟩ | ⟨hover, hopen, hresult⟩ | ⟨hover, hclosed, row, hresult⟩ :=
    reversePolish_cases tokens
  · simp [hresult, hover]
  · simp [hresult, hover, hopen]
  · have hrow : Reordered tokens row ∧ Judged tokens row :=
      ⟨reordered_of_reversePolish hresult, judged_of_reversePolish hresult⟩
    simp [hresult, hover, hclosed, hrow]

end Reckoner
