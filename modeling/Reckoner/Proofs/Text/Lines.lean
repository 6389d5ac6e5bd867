import Reckoner.Text.Utf8

/-!
# Cutting bytes into lines

A line feed ends a line.  What stands behind the last one is the beginning of a line, or nothing.

* `completeLines`, `remainder` — the lines that have their end, and what stands behind them.
* `pieces` — all lines of a stream that has ended; a rest without a line feed is the last of them.
* `lines_induction` — a stream, taken apart line by line.
* `completeLines_flatten` — lines that were written one after the other are read back.
* `completeLines_of_begins` — where less has been written, only the first of them are.
-/

namespace Reckoner

/-- The lines that have their end, without it. -/
def completeLines (bytes : Bytes) : List Bytes := (bytes.splitOn lineFeed).dropLast

/-- What stands behind the last line feed. -/
def remainder (bytes : Bytes) : Bytes := (bytes.splitOn lineFeed).getLast?.getD []

/-- The lines of a stream that has ended.  A rest that is not empty is a line too. -/
def pieces (stream : Bytes) : List Bytes :=
  completeLines stream ++ if remainder stream = [] then [] else [remainder stream]

variable {body rest : Bytes}

/-! ### One line at a time -/

theorem splitOn_of_notMem (h : lineFeed ∉ body) : body.splitOn lineFeed = [body] := by
  refine List.splitOnP_eq_singleton fun b hb => ?_
  simpa using fun e : b = lineFeed => h (e ▸ hb)

theorem splitOn_line (h : lineFeed ∉ body) (rest : Bytes) :
    (body ++ lineFeed :: rest).splitOn lineFeed = body :: rest.splitOn lineFeed := by
  refine List.splitOnP_append_cons_of_forall_mem (fun b hb => ?_) lineFeed (by simp) rest
  simpa using fun e : b = lineFeed => h (e ▸ hb)

theorem splitOn_ne_nil (bytes : Bytes) : bytes.splitOn lineFeed ≠ [] := by
  by_cases hmem : lineFeed ∈ bytes
  · obtain ⟨body, rest, rfl, hbody⟩ := List.eq_append_cons_of_mem hmem
    rw [splitOn_line hbody]
    exact List.cons_ne_nil _ _
  · rw [splitOn_of_notMem hmem]
    exact List.cons_ne_nil _ _

theorem completeLines_of_notMem (h : lineFeed ∉ body) : completeLines body = [] := by
  rw [completeLines, splitOn_of_notMem h]
  rfl

theorem remainder_of_notMem (h : lineFeed ∉ body) : remainder body = body := by
  rw [remainder, splitOn_of_notMem h]
  rfl

theorem completeLines_line (h : lineFeed ∉ body) (rest : Bytes) :
    completeLines (body ++ lineFeed :: rest) = body :: completeLines rest := by
  rw [completeLines, splitOn_line h, List.dropLast_cons_of_ne_nil (splitOn_ne_nil rest)]
  rfl

theorem remainder_line (h : lineFeed ∉ body) (rest : Bytes) :
    remainder (body ++ lineFeed :: rest) = remainder rest := by
  rw [remainder, remainder, splitOn_line h, List.getLast?_cons_of_ne_nil (splitOn_ne_nil rest)]

/-- Bytes are lines, one after the other, and a rest without a line feed. -/
theorem lines_induction {P : Bytes → Prop} (hrest : ∀ rest, lineFeed ∉ rest → P rest)
    (hline : ∀ body rest, lineFeed ∉ body → P rest → P (body ++ lineFeed :: rest)) (bytes : Bytes) :
    P bytes := by
  -- By length, because a whole line is taken off at a time.
  induction hlength : bytes.length using Nat.strongRecOn generalizing bytes with
  | ind n ih =>
    by_cases hmem : lineFeed ∈ bytes
    · obtain ⟨body, rest, rfl, hbody⟩ := List.eq_append_cons_of_mem hmem
      exact hline body rest hbody (ih rest.length (by simp [← hlength]; omega) rest rfl)
    · exact hrest bytes hmem

/-- No byte is lost. -/
theorem flatten_completeLines (bytes : Bytes) :
    ((completeLines bytes).map (· ++ [lineFeed])).flatten ++ remainder bytes = bytes := by
  induction bytes using lines_induction with
  | hrest rest hmem =>
    rw [completeLines_of_notMem hmem, remainder_of_notMem hmem]
    rfl
  | hline body rest hbody ih =>
    rw [completeLines_line hbody, remainder_line hbody, List.map_cons, List.flatten_cons,
      List.append_assoc, ih, List.append_assoc]
    rfl

/-- There are as many lines as line feeds. -/
theorem length_completeLines (bytes : Bytes) :
    (completeLines bytes).length = bytes.count lineFeed := by
  induction bytes using lines_induction with
  | hrest rest hmem =>
    rw [completeLines_of_notMem hmem, List.count_eq_zero_of_not_mem hmem]
    rfl
  | hline body rest hbody ih =>
    rw [completeLines_line hbody, List.length_cons, ih, List.count_append,
      List.count_eq_zero_of_not_mem hbody, List.count_cons_self, Nat.zero_add]

/-! ### A stream that has ended -/

theorem pieces_line (h : lineFeed ∉ body) (rest : Bytes) :
    pieces (body ++ lineFeed :: rest) = body :: pieces rest := by
  simp only [pieces, completeLines_line h, remainder_line h, List.cons_append]

@[simp] theorem pieces_nil : pieces [] = [] := rfl

theorem pieces_of_notMem (h : lineFeed ∉ body) (hbody : body ≠ []) : pieces body = [body] := by
  rw [pieces, completeLines_of_notMem h, remainder_of_notMem h, if_neg hbody]
  rfl

/-- The first line goes on at least up to the first line feed. -/
theorem exists_pieces_eq (h : lineFeed ∉ body) (hbody : body ≠ []) (rest : Bytes) :
    ∃ more others, pieces (body ++ rest) = (body ++ more) :: others := by
  by_cases hmem : lineFeed ∈ rest
  · obtain ⟨more, rest, rfl, hmore⟩ := List.eq_append_cons_of_mem hmem
    refine ⟨more, pieces rest, ?_⟩
    rw [← List.append_assoc, pieces_line (by simp [h, hmore])]
  · exact ⟨rest, [], pieces_of_notMem (by simp [h, hmem]) (by simp [hbody])⟩

/-! ### Lines that were written -/

/-- **Reading back.** Lines that hold no line feed are the lines of what was written of them, one
    after the other, and a part of another line is none. -/
theorem completeLines_flatten {lines : List Bytes} (h : ∀ body ∈ lines, lineFeed ∉ body)
    (hrest : lineFeed ∉ rest) :
    completeLines ((lines.map (· ++ [lineFeed])).flatten ++ rest) = lines := by
  induction lines with
  | nil => exact completeLines_of_notMem hrest
  | cons body lines ih =>
    have hbody : lineFeed ∉ body := h body List.mem_cons_self
    have hlines := ih fun other hother => h other (List.mem_cons_of_mem _ hother)
    simp only [List.map_cons, List.flatten_cons, List.append_assoc, List.cons_append,
      List.nil_append]
    rw [completeLines_line hbody, hlines]

/-- Where only a part of it has been written, the first lines are complete. -/
theorem completeLines_of_begins {lines : List Bytes} {bytes : Bytes}
    (h : ∀ body ∈ lines, lineFeed ∉ body)
    (hbegins : bytes <+: (lines.map (· ++ [lineFeed])).flatten) :
    completeLines bytes <+: lines := by
  induction lines generalizing bytes with
  | nil =>
    rw [List.prefix_nil.mp hbegins]
    exact List.prefix_rfl
  | cons body lines ih =>
    have hbody : lineFeed ∉ body := h body List.mem_cons_self
    have hlines : ∀ other ∈ lines, lineFeed ∉ other :=
      fun other hother => h other (List.mem_cons_of_mem _ hother)
    rw [List.map_cons, List.flatten_cons] at hbegins
    -- The bytes end within the first line, or they go on behind it.
    rcases List.prefix_or_prefix_of_prefix hbegins (List.prefix_append (body ++ [lineFeed]) _)
      with hshort | ⟨rest, rfl⟩
    · rcases List.prefix_concat_iff.mp hshort with rfl | hshort
      · rw [completeLines_line hbody]
        exact (List.prefix_cons_inj body).mpr List.nil_prefix
      · rw [completeLines_of_notMem fun hmem => hbody (hshort.subset hmem)]
        exact List.nil_prefix
    · have hrest := ih hlines ((List.prefix_append_right_inj _).mp hbegins)
      rw [List.append_assoc]
      show completeLines (body ++ lineFeed :: rest) <+: _
      rw [completeLines_line hbody]
      exact (List.prefix_cons_inj body).mpr hrest

end Reckoner
