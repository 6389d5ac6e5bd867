import Reckoner.Proofs.Expr.Derivation

/-!
# Reading a row of tokens

Which rows of tokens are expressions can be told in one pass from the left, with no more memory
than the number of open groups.

* `Token.alternates` — operands and operators take turns, and the last is an operand.
* `Token.balanced` — each opening parenthesis has its closing one.
* `Token.EndsTerm`, `Token.AwaitsFactor` — how much of an open group has been read.
* `derivable_iff` — a row is derived by the grammar just if it alternates and is balanced.
-/

namespace Reckoner

namespace Token

/-! ### Alternating and balanced rows -/

/-- Operands and operators take turns, given whether an operand is due.  A group opens where an
    operand is due, and closes where none is. -/
def alternates : Bool → List Token → Bool
  | operandDue, [] => !operandDue
  | true, .number _ :: row => alternates false row
  | true, .openParen :: row => alternates true row
  | true, .operator _ :: _ | true, .closeParen :: _ => false
  | false, .operator _ :: row => alternates true row
  | false, .closeParen :: row => alternates false row
  | false, .number _ :: _ | false, .openParen :: _ => false

/-- The parentheses match, given how many groups are open. -/
def balanced : Nat → List Token → Bool
  | depth, [] => depth == 0
  | depth, .number _ :: row | depth, .operator _ :: row => balanced depth row
  | depth, .openParen :: row => balanced (depth + 1) row
  | 0, .closeParen :: _ => false
  | depth + 1, .closeParen :: row => balanced depth row

end Token

open Token

namespace Derivation

/-- A derived row stands where an operand is due. -/
theorem alternates_append {k : Category} (d : Derivation k) (rest : List Token) :
    alternates true (d.tokens ++ rest) = alternates false rest := by
  induction d generalizing rest with
  | number v => rfl
  | group e ih =>
    show alternates true (e.tokens ++ [.closeParen] ++ rest) = _
    rw [List.append_assoc, ih]
    rfl
  | ofFactor f ih => exact ih rest
  | ofTerm t ih => exact ih rest
  | product t op _ f iht ihf =>
    rw [tokens, List.append_assoc, iht]
    exact ihf rest
  | sum e op _ t ihe iht =>
    rw [tokens, List.append_assoc, ihe]
    exact iht rest

/-- A derived row closes all groups that it opens, and no others. -/
theorem balanced_append {k : Category} (d : Derivation k) (depth : Nat) (rest : List Token) :
    balanced depth (d.tokens ++ rest) = balanced depth rest := by
  induction d generalizing depth rest with
  | number v => rfl
  | group e ih =>
    show balanced (depth + 1) (e.tokens ++ [.closeParen] ++ rest) = _
    rw [List.append_assoc, ih]
    rfl
  | ofFactor f ih => exact ih depth rest
  | ofTerm t ih => exact ih depth rest
  | product t op _ f iht ihf =>
    rw [tokens, List.append_assoc, iht]
    exact ihf depth rest
  | sum e op _ t ihe iht =>
    rw [tokens, List.append_assoc, ihe]
    exact iht depth rest

theorem alternates_tokens {k : Category} (d : Derivation k) : alternates true d.tokens = true := by
  have h := d.alternates_append []
  rwa [List.append_nil] at h

theorem balanced_tokens {k : Category} (d : Derivation k) : balanced 0 d.tokens = true := by
  have h := d.balanced_append 0 []
  rwa [List.append_nil] at h

end Derivation

namespace Token

/-! ### How much of a group has been read -/

/-- The row is what stands before a term: nothing, or an expression and `+` or `-`. -/
def AwaitsTerm (row : List Token) : Prop :=
  row = [] ∨ ∃ (e : Derivation .expression) (op : Operator),
    (op = .add ∨ op = .sub) ∧ row = e.tokens ++ [.operator op]

/-- The row is what stands before a term, and a term. -/
def EndsTerm (row : List Token) : Prop :=
  ∃ (before : List Token) (t : Derivation .term), AwaitsTerm before ∧ row = before ++ t.tokens

/-- The row is what stands before a factor: what stands before a term, and perhaps a term and
    `*`, `/` or `%`. -/
def AwaitsFactor (row : List Token) : Prop :=
  AwaitsTerm row ∨ ∃ (read : List Token) (op : Operator),
    (op = .mul ∨ op = .div ∨ op = .rem) ∧ EndsTerm read ∧ row = read ++ [.operator op]

theorem awaitsFactor_nil : AwaitsFactor [] := .inl (.inl rfl)

/-- A row that ends a term is an expression. -/
theorem EndsTerm.expression {row : List Token} (h : EndsTerm row) :
    ∃ e : Derivation .expression, row = e.tokens := by
  obtain ⟨before, t, rfl | ⟨e, op, hop, rfl⟩, rfl⟩ := h
  · exact ⟨.ofTerm t, rfl⟩
  · exact ⟨.sum e op hop t, List.append_assoc ..⟩

/-- A factor ends a term. -/
theorem AwaitsFactor.factor {row : List Token} (h : AwaitsFactor row) (f : Derivation .factor) :
    EndsTerm (row ++ f.tokens) := by
  rcases h with hrow | ⟨read, op, hop, ⟨before, t, hbefore, rfl⟩, rfl⟩
  · exact ⟨row, .ofFactor f, hrow, rfl⟩
  · exact ⟨before, .product t op hop f, hbefore, by simp [Derivation.tokens]⟩

/-- After an operator a factor is due. -/
theorem EndsTerm.operator {row : List Token} (h : EndsTerm row) (op : Operator) :
    AwaitsFactor (row ++ [.operator op]) := by
  have hsum (hop : op = .add ∨ op = .sub) : AwaitsFactor (row ++ [.operator op]) := by
    obtain ⟨e, rfl⟩ := h.expression
    exact .inl (.inr ⟨e, op, hop, rfl⟩)
  have hproduct (hop : op = .mul ∨ op = .div ∨ op = .rem) :
      AwaitsFactor (row ++ [.operator op]) := .inr ⟨row, op, hop, h, rfl⟩
  cases op with
  | add => exact hsum (.inl rfl)
  | sub => exact hsum (.inr rfl)
  | mul => exact hproduct (.inl rfl)
  | div => exact hproduct (.inr (.inl rfl))
  | rem => exact hproduct (.inr (.inr rfl))

/-! ### Reading to the end -/

/-- What has been read in all: the rows of the open groups, the innermost first, each before its
    opening parenthesis, and the row of the group that is being read. -/
def readIn : List (List Token) → List Token → List Token
  | [], row => row
  | outer :: groups, row => readIn groups (outer ++ .openParen :: row)

theorem readIn_append (groups : List (List Token)) (row rest : List Token) :
    readIn groups row ++ rest = readIn groups (row ++ rest) := by
  induction groups generalizing row with
  | nil => rfl
  | cons outer groups ih =>
    show readIn groups (outer ++ .openParen :: row) ++ rest = _
    rw [ih, List.append_assoc]
    rfl

/-- What has been read of the innermost group, given whether an operand is due. -/
def HasRead : Bool → List Token → Prop
  | true => AwaitsFactor
  | false => EndsTerm

/-- **Reading on.** Whatever was read before: if the rest alternates and closes all groups that are
    open, the whole is an expression. -/
theorem derivable_of_read {operandDue : Bool} {groups : List (List Token)} {row rest : List Token}
    (hgroups : ∀ outer ∈ groups, AwaitsFactor outer) (hrow : HasRead operandDue row)
    (halternates : alternates operandDue rest = true)
    (hbalanced : balanced groups.length rest = true) :
    ∃ e : Derivation .expression, e.tokens = readIn groups row ++ rest := by
  induction rest generalizing operandDue groups row with
  | nil =>
    -- All groups are closed, and the row ends a term.
    cases operandDue with
    | true => cases halternates
    | false =>
      cases groups with
      | cons => cases hbalanced
      | nil =>
        obtain ⟨e, rfl⟩ := EndsTerm.expression hrow
        exact ⟨e, (List.append_nil _).symm⟩
  | cons token rest ih =>
    have hread : readIn groups row ++ token :: rest = readIn groups (row ++ [token]) ++ rest := by
      rw [readIn_append, readIn_append, List.append_assoc]
      rfl
    cases operandDue with
    | true =>
      cases token with
      | number v =>
        have hnext : HasRead false (row ++ [.number v]) := AwaitsFactor.factor hrow (.number v)
        rw [hread]
        exact ih hgroups hnext halternates hbalanced
      | openParen =>
        have hnested : readIn groups (row ++ [.openParen]) = readIn (row :: groups) [] := rfl
        have hnext : HasRead true [] := awaitsFactor_nil
        rw [hread, hnested]
        exact ih (List.forall_mem_cons.mpr ⟨hrow, hgroups⟩) hnext halternates hbalanced
      | operator | closeParen => cases halternates
    | false =>
      cases token with
      | operator op =>
        have hnext : HasRead true (row ++ [.operator op]) := EndsTerm.operator hrow op
        rw [hread]
        exact ih hgroups hnext halternates hbalanced
      | closeParen =>
        cases groups with
        | nil => cases hbalanced
        | cons outer groups =>
          -- The group that ends here is a factor of the one around it.
          obtain ⟨e, rfl⟩ := EndsTerm.expression hrow
          obtain ⟨houter, hgroups⟩ := List.forall_mem_cons.mp hgroups
          have hclosed : readIn (outer :: groups) (e.tokens ++ [.closeParen])
              = readIn groups (outer ++ (Derivation.group e).tokens) := rfl
          have hnext : HasRead false (outer ++ (Derivation.group e).tokens) :=
            houter.factor (.group e)
          rw [hread, hclosed]
          exact ih hgroups hnext halternates hbalanced
      | number | openParen => cases halternates

end Token

/-- **What an expression is, in one pass.** A row of tokens is derived by the grammar just if its
    operands and operators take turns and its parentheses match. -/
theorem derivable_iff (row : List Token) : (∃ e : Derivation .expression, e.tokens = row) ↔
    alternates true row = true ∧ balanced 0 row = true := by
  constructor
  · rintro ⟨e, rfl⟩
    exact ⟨e.alternates_tokens, e.balanced_tokens⟩
  · rintro ⟨halternates, hbalanced⟩
    have hnone : ∀ outer ∈ ([] : List (List Token)), AwaitsFactor outer := nofun
    have hstart : HasRead true [] := awaitsFactor_nil
    exact derivable_of_read hnone hstart halternates hbalanced

end Reckoner
