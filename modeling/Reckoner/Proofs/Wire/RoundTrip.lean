import Reckoner.Expr.Eval
import Reckoner.Wire.Response
import Mathlib.Data.Nat.Digits.Defs
import Mathlib.Data.List.TakeWhile

/-!
# Reading back the lines of a name

A client may join under every name that a line has room for, also under one with separators.

* `IsTrimmed` — a text that does not lose anything when line ends are trimmed.
* `Command.ofLine_eq`, `Response.ofLine?_eq` — a written line is read by its fields.
* `Binary64.isTrimmed_result` — the text of a value has no line end in it.
* `reads_back_of_join` — which lines of a joined name are read back: those in which the name is
  followed by a word or by nothing always are, and those in which it is followed by a free text
  just if the name has no separator.
-/

namespace Reckoner

/-! ### Line ends -/

/-- The text does not end in a line-end character. -/
def IsTrimmed (s : List Char) : Prop := ∀ c ∈ s.getLast?, isLineEnd c = false

/-- Whatever is trimmed is so afterwards. -/
theorem isTrimmed_trimLineEnd (s : List Char) : IsTrimmed (trimLineEnd s) := by
  intro c hc
  rw [trimLineEnd, List.getLast?_reverse] at hc
  have hfirst := List.head?_dropWhile_not isLineEnd s.reverse
  rw [Option.mem_def.mp hc] at hfirst
  simpa using hfirst

theorem IsTrimmed.trimLineEnd_eq {s : List Char} (h : IsTrimmed s) : trimLineEnd s = s := by
  have hfirst : s.reverse.dropWhile isLineEnd = s.reverse := by
    rw [List.dropWhile_eq_self_iff]
    intro hlength
    have hlast : s.reverse[0] ∈ s.getLast? := by
      rw [← List.head?_reverse, List.head?_eq_getElem?]
      exact List.getElem?_eq_getElem hlength
    rw [h _ hlast]
    exact Bool.false_ne_true
  rw [trimLineEnd, hfirst, List.reverse_reverse]

/-- Only what stands behind the last separator decides. -/
theorem isTrimmed_fields (a b : List Char) :
    IsTrimmed (a ++ separator :: b) ↔ IsTrimmed b := by
  cases b with
  | nil => simp [IsTrimmed, separator, isLineEnd]
  | cons c b => simp [IsTrimmed, List.getLast?_cons_cons]

/-- Without a line end in it a text is trimmed. -/
theorem isTrimmed_of_forall {s : List Char} (h : ∀ c ∈ s, isLineEnd c = false) : IsTrimmed s :=
  fun c hc => h c (List.mem_of_getLast? hc)

theorem isTrimmed_of_any {s : List Char} (h : s.any isLineEnd = false) : IsTrimmed s :=
  isTrimmed_of_forall fun c hc => by simpa using List.any_eq_false.mp h c hc

/-! ### Fields -/

/-- A text is cut at a separator just if that is the first one. -/
theorem splitFirst_fields_iff (a b : List Char) :
    splitFirst separator (a ++ separator :: b) = some (a, b) ↔ separator ∉ a :=
  ⟨not_mem_of_splitFirst, splitFirst_append⟩

/-- A line is read by its keyword, if there is no line end behind it. -/
theorem Command.ofLine_eq {line : String} {keyword rest : List Char}
    (hline : line.toList = keyword ++ separator :: rest) (hkeyword : separator ∉ keyword)
    (hrest : IsTrimmed rest) : ofLine line = ofFields keyword rest := by
  have htrimmed : IsTrimmed line.toList := by rwa [hline, isTrimmed_fields]
  rw [ofLine, htrimmed.trimLineEnd_eq, hline, splitFirst_append hkeyword]

theorem Response.ofLine?_eq {line : String} {keyword rest : List Char}
    (hline : line.toList = keyword ++ separator :: rest) (hkeyword : separator ∉ keyword)
    (hrest : IsTrimmed rest) : ofLine? line = ofFields? keyword rest := by
  have htrimmed : IsTrimmed line.toList := by rwa [hline, isTrimmed_fields]
  rw [ofLine?, htrimmed.trimLineEnd_eq, hline, splitFirst_append hkeyword]

/-- The name that a client joins under is the rest of a line. -/
theorem Command.isTrimmed_of_join {line name : String} (h : ofLine line = .join name) :
    IsTrimmed name.toList := by
  unfold ofLine at h
  split at h
  · cases h
  · rename_i keyword rest hsplit
    have hrest : IsTrimmed rest := by
      have htrimmed := isTrimmed_trimLineEnd line.toList
      rwa [eq_of_splitFirst hsplit, isTrimmed_fields] at htrimmed
    unfold ofFields at h
    split at h
    · split at h
      · cases h
      · cases h
        rwa [String.toList_ofList]
    · split at h
      · split at h <;> cases h
      · split at h <;> cases h

/-! ### Values -/

theorem isLineEnd_of_isDigit {c : Char} (h : c.isDigit = true) : isLineEnd c = false := by
  have hfeed : c ≠ '\n' := by
    rintro rfl
    exact absurd h (by decide)
  have hreturn : c ≠ '\r' := by
    rintro rfl
    exact absurd h (by decide)
  simp [isLineEnd, hfeed, hreturn]

namespace Decimal

theorem isLineEnd_of_mem_digitRow {n : Nat} {c : Char} (h : c ∈ digitRow n) :
    isLineEnd c = false :=
  isLineEnd_of_isDigit (Nat.isDigit_of_mem_toDigits (by decide) (by decide) h)

/-- Taking zeros away adds no character. -/
theorem mem_of_mem_dropZeros {places : Nat} {row : List Char} {c : Char}
    (h : c ∈ (dropZeros places row).2) : c ∈ row := by
  induction row generalizing places with
  | nil => cases places <;> exact h
  | cons first rest ih =>
    unfold dropZeros at h
    split at h
    · rename_i heq
      cases heq
      exact List.mem_cons_of_mem _ (ih h)
    · exact h

theorem isLineEnd_of_mem_text {d : Decimal} {c : Char} (h : c ∈ d.text) :
    isLineEnd c = false := by
  have hzero : isLineEnd '0' = false := by decide
  have hpoint : isLineEnd '.' = false := by decide
  unfold text at h
  split at h
  · rcases List.mem_append.mp h with h | h
    · exact isLineEnd_of_mem_digitRow h
    · rw [List.eq_of_mem_replicate h, hzero]
  · rename_i n _
    -- All digits that are left are digits of the number.
    have hdigits {c : Char} (h : c ∈ (dropZeros (n + 1) (digitRow d.digits).reverse).2) :
        isLineEnd c = false :=
      isLineEnd_of_mem_digitRow (List.mem_reverse.mp (mem_of_mem_dropZeros h))
    generalize dropZeros (n + 1) (digitRow d.digits).reverse = left at h hdigits
    obtain ⟨places, row⟩ := left
    have hrow {c : Char} (h : c ∈ row.reverse) : isLineEnd c = false :=
      hdigits (List.mem_reverse.mp h)
    dsimp only at h
    split at h
    · exact hrow h
    · split at h
      · rcases List.mem_append.mp h with h | h
        · exact hrow (List.mem_of_mem_take h)
        · rcases List.mem_cons.mp h with rfl | h
          · exact hpoint
          · exact hrow (List.mem_of_mem_drop h)
      · rcases List.mem_append.mp h with h | h
        · rcases List.mem_cons.mp h with rfl | h
          · exact hzero
          · rcases List.mem_cons.mp h with rfl | h
            · exact hpoint
            · rw [List.eq_of_mem_replicate h, hzero]
        · exact hrow h

end Decimal

/-- A value is answered without a line end. -/
theorem Binary64.isLineEnd_of_mem_result {v : Binary64} {c : Char} (h : c ∈ v.result.toList) :
    isLineEnd c = false := by
  have hname {s : String} (hs : s.toList.any isLineEnd = false) (hc : c ∈ s.toList) :
      isLineEnd c = false := by simpa using List.any_eq_false.mp hs c hc
  cases v with
  | nan => exact hname (by decide) h
  | infinite negative => cases negative <;> exact hname (by decide) h
  | finite negative units _ =>
    rw [result, String.toList_ofList] at h
    rcases List.mem_append.mp h with h | h
    · split at h
      · rw [List.mem_singleton.mp h]
        rfl
      · cases h
    · unfold magnitudeText at h
      split at h
      · exact Decimal.isLineEnd_of_mem_digitRow h
      · exact Decimal.isLineEnd_of_mem_text h

theorem Binary64.isTrimmed_result (v : Binary64) : IsTrimmed v.result.toList :=
  isTrimmed_of_forall fun _ hc => isLineEnd_of_mem_result hc

/-! ### The lines of a name -/

section Lines

variable {name : String}

theorem Command.toList_leave (name : String) :
    (leave name).text.toList = "LEAVE".toList ++ separator :: name.toList := by
  simp [text, separator]

theorem Command.toList_calculate (name expression : String) :
    (calculate name expression).text.toList
      = "CALC".toList ++ separator :: (name.toList ++ separator :: expression.toList) := by
  simp [text, separator]

theorem Response.toList_result (name value : String) :
    (result name value).text.toList
      = "RES".toList ++ separator :: (name.toList ++ separator :: value.toList) := by
  simp [text, separator]

theorem Command.ofLine_leave (hname : IsTrimmed name.toList) :
    ofLine (leave name).text = .leave name := by
  rw [ofLine_eq (toList_leave name) (by decide) hname, ofFields, if_neg (by decide),
    if_neg (by decide), if_pos rfl, String.ofList_toList]

/-- A calculation is read back just if its name has no separator. -/
theorem Command.ofLine_calculate_iff {expression : String}
    (hexpression : IsTrimmed expression.toList) :
    ofLine (calculate name expression).text = .calculate name expression
      ↔ separator ∉ name.toList := by
  rw [ofLine_eq (toList_calculate name expression) (by decide)
    ((isTrimmed_fields _ _).mpr hexpression), ofFields, if_neg (by decide), if_pos rfl,
    ← splitFirst_fields_iff name.toList expression.toList]
  cases hsplit : splitFirst separator (name.toList ++ separator :: expression.toList) with
  | none => simp
  | some fields =>
    obtain ⟨before, after⟩ := fields
    simp [← String.toList_inj]

/-- The name of an acknowledgement is all that stands before the last separator. -/
theorem Response.ofLine?_acknowledgement {line : String} {word : List Char}
    (hline : line.toList = "ACK".toList ++ separator :: (name.toList ++ separator :: word))
    (hword : separator ∉ word) (hend : IsTrimmed word) :
    ofLine? line = if word = "Welcome".toList then some (welcome name)
      else if word = "Goodbye".toList then some (goodbye name) else none := by
  rw [ofLine?_eq hline (by decide) ((isTrimmed_fields _ _).mpr hend), ofFields?,
    if_neg (by decide), if_pos rfl, splitLast_append hword]
  simp only [String.ofList_toList]

theorem Response.ofLine?_welcome : ofLine? (welcome name).text = some (welcome name) := by
  have hline : (welcome name).text.toList
      = "ACK".toList ++ separator :: (name.toList ++ separator :: "Welcome".toList) := by
    simp [text, separator]
  rw [ofLine?_acknowledgement hline (by decide) (isTrimmed_of_any (by decide)), if_pos rfl]

theorem Response.ofLine?_goodbye : ofLine? (goodbye name).text = some (goodbye name) := by
  have hline : (goodbye name).text.toList
      = "ACK".toList ++ separator :: (name.toList ++ separator :: "Goodbye".toList) := by
    simp [text, separator]
  rw [ofLine?_acknowledgement hline (by decide) (isTrimmed_of_any (by decide)),
    if_neg (by decide), if_pos rfl]

/-- A result is read back just if its name has no separator. -/
theorem Response.ofLine?_result_iff {value : String} (hvalue : IsTrimmed value.toList) :
    ofLine? (result name value).text = some (result name value) ↔ separator ∉ name.toList := by
  rw [ofLine?_eq (toList_result name value) (by decide) ((isTrimmed_fields _ _).mpr hvalue),
    ofFields?, if_neg (by decide), if_neg (by decide), if_pos rfl,
    ← splitFirst_fields_iff name.toList value.toList]
  cases hsplit : splitFirst separator (name.toList ++ separator :: value.toList) with
  | none => simp
  | some fields =>
    obtain ⟨before, after⟩ := fields
    simp [← String.toList_inj]

/-- **What is read back of a name.** Whatever name a client joins under, the lines in which it is
    acknowledged, and the line with which it leaves, are read back.  Those in which an expression or
    a value follows it, which may hold separators of their own, are read back just if the name has
    none. -/
theorem reads_back_of_join {line expression : String} (hjoin : Command.ofLine line = .join name)
    (hexpression : IsTrimmed expression.toList) (v : Binary64) :
    Command.ofLine (Command.leave name).text = .leave name ∧
      Response.ofLine? (Response.welcome name).text = some (.welcome name) ∧
      Response.ofLine? (Response.goodbye name).text = some (.goodbye name) ∧
      (Command.ofLine (Command.calculate name expression).text = .calculate name expression
        ↔ separator ∉ name.toList) ∧
      (Response.ofLine? (Response.result name v.result).text = some (.result name v.result)
        ↔ separator ∉ name.toList) :=
  ⟨Command.ofLine_leave (Command.isTrimmed_of_join hjoin), Response.ofLine?_welcome,
    Response.ofLine?_goodbye, Command.ofLine_calculate_iff hexpression,
    Response.ofLine?_result_iff v.isTrimmed_result⟩

/-- A name without separators is read back everywhere. -/
theorem reads_back_al : Command.ofLine "JOIN:al" = .join "al" ∧ IsTrimmed "1+2".toList ∧
    Command.ofLine (Command.calculate "al" "1+2").text = .calculate "al" "1+2" ∧
    Response.ofLine? (Response.result "al" Binary64.nan.result).text
      = some (.result "al" Binary64.nan.result) := by
  have hjoin : Command.ofLine "JOIN:al" = .join "al" := by decide +kernel
  have hexpression : IsTrimmed "1+2".toList := isTrimmed_of_any (by decide)
  obtain ⟨-, -, -, hcalculate, hresult⟩ := reads_back_of_join hjoin hexpression .nan
  exact ⟨hjoin, hexpression, hcalculate.mpr (by decide), hresult.mpr (by decide)⟩

/-- A client joins under a name with a separator.  Its calculations are read back under the first
    part of the name, and so are its results. -/
theorem cut_joinedWithSeparator : Command.ofLine "JOIN:a:b" = .join "a:b" ∧
    Command.ofLine (Command.calculate "a:b" "1").text = .calculate "a" "b:1" ∧
    Response.ofLine? (Response.result "a:b" (Numeral.value ['1']).result).text
      = some (.result "a" "b:1") := by
  decide +kernel

end Lines

end Reckoner
