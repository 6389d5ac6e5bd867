/-!
# Splitting lines into fields

* `trimLineEnd` — a line without the carriage returns and line feeds at its end.
* `splitFirst`, `splitLast` — the text before and after the first, or the last, of a character.

Each split loses only the separator (`eq_of_splitFirst`, `eq_of_splitLast`), and it is the separator
that the short side does not hold (`not_mem_of_splitFirst`, `splitLast_append`).
-/

namespace Reckoner

variable {s a b : List Char} {c : Char}

/-! ### Line ends -/

/-- The character ends a line. -/
def isLineEnd (c : Char) : Bool := c = '\n' || c = '\r'

/-- The line without the line-end characters at its end, however many. -/
def trimLineEnd (s : List Char) : List Char := (s.reverse.dropWhile isLineEnd).reverse

/-! ### The first separator -/

/-- What stands before and after the first `c`, or `none` without one. -/
def splitFirst (c : Char) : List Char → Option (List Char × List Char)
  | [] => none
  | x :: rest =>
    if x = c then some ([], rest)
    else (splitFirst c rest).map fun (before, after) => (x :: before, after)

theorem eq_of_splitFirst (h : splitFirst c s = some (a, b)) : s = a ++ c :: b := by
  induction s generalizing a with
  | nil => simp [splitFirst] at h
  | cons x rest ih =>
    unfold splitFirst at h
    split at h
    · rename_i hx; simp only [Option.some.injEq, Prod.mk.injEq] at h; simp [← h.1, h.2, hx]
    · obtain ⟨⟨a', b'⟩, h', heq⟩ := Option.map_eq_some_iff.1 h
      simp only [Prod.mk.injEq] at heq
      obtain ⟨rfl, rfl⟩ := heq
      simp [ih h']

theorem not_mem_of_splitFirst (h : splitFirst c s = some (a, b)) : c ∉ a := by
  induction s generalizing a with
  | nil => simp [splitFirst] at h
  | cons x rest ih =>
    unfold splitFirst at h
    split at h
    · simp only [Option.some.injEq, Prod.mk.injEq] at h; simp [← h.1]
    · rename_i hx
      obtain ⟨⟨a', b'⟩, h', heq⟩ := Option.map_eq_some_iff.1 h
      simp only [Prod.mk.injEq] at heq
      obtain ⟨rfl, rfl⟩ := heq
      simp only [List.mem_cons, not_or]
      exact ⟨fun e => hx e.symm, ih h'⟩

/-- A separator that the left part does not hold is the first one. -/
theorem splitFirst_append (h : c ∉ a) : splitFirst c (a ++ c :: b) = some (a, b) := by
  induction a with
  | nil => simp [splitFirst]
  | cons x rest ih =>
    simp only [List.mem_cons, not_or] at h
    simp [splitFirst, ih h.2, Ne.symm h.1]

/-- Only a text without the separator cannot be split at it. -/
theorem splitFirst_eq_none_iff : splitFirst c s = none ↔ c ∉ s := by
  induction s with
  | nil => simp [splitFirst]
  | cons x rest ih =>
    unfold splitFirst
    split
    · rename_i hx; simp [hx]
    · rename_i hx; simp [ih, Ne.symm hx]

/-! ### The last separator -/

/-- What stands before and after the last `c`, or `none` without one. -/
def splitLast (c : Char) (s : List Char) : Option (List Char × List Char) :=
  (splitFirst c s.reverse).map fun (after, before) => (before.reverse, after.reverse)

theorem eq_of_splitLast (h : splitLast c s = some (a, b)) : s = a ++ c :: b := by
  obtain ⟨⟨b', a'⟩, h', heq⟩ := Option.map_eq_some_iff.1 h
  simp only [Prod.mk.injEq] at heq
  obtain ⟨rfl, rfl⟩ := heq
  have := congrArg List.reverse (eq_of_splitFirst h')
  simpa using this

/-- A separator that the right part does not hold is the last one. -/
theorem splitLast_append (h : c ∉ b) : splitLast c (a ++ c :: b) = some (a, b) := by
  have : (a ++ c :: b).reverse = b.reverse ++ c :: a.reverse := by simp
  rw [splitLast, this, splitFirst_append (by simpa using h)]
  simp

end Reckoner
