import Reckoner.Proofs.Wire.RoundTrip

/-!
# Reading and writing are inverse

A line that is understood is what its command or response is written as, but for the line ends
behind it.  The other way round, a command or response is read back from its line unless one of its
fields runs into what follows.

* `Trims`, `trims_iff` — a line is a text with line ends behind it.
* `Malformed.Fits`, `Command.ofLine_malformed_iff` — which lines are no commands, and why.
* `commands_read_back`, `responses_read_back` — both directions, for every line and every command
  or response.
-/

namespace Reckoner

/-! ### Line ends -/

/-- The line is the text with any number of line-end characters behind it, and the text does not end
    in one. -/
structure Trims (line text : List Char) : Prop where
  trimmed : IsTrimmed text
  ends : ∃ ends, line = text ++ ends ∧ ∀ c ∈ ends, isLineEnd c = true

theorem trims_trimLineEnd (s : List Char) : Trims s (trimLineEnd s) := by
  refine ⟨isTrimmed_trimLineEnd s, (s.reverse.takeWhile isLineEnd).reverse, ?_, ?_⟩
  · rw [trimLineEnd, ← List.reverse_append, List.takeWhile_append_dropWhile, List.reverse_reverse]
  · intro c hc
    exact List.mem_takeWhile_imp (List.mem_reverse.mp hc)

/-- There is only one such text. -/
theorem trims_iff {s text : List Char} : Trims s text ↔ trimLineEnd s = text := by
  constructor
  · rintro ⟨htrimmed, ends, rfl, hends⟩
    -- Line ends are dropped from the back, so first the ones that were added.
    have hdropped : (text ++ ends).reverse.dropWhile isLineEnd
        = text.reverse.dropWhile isLineEnd := by
      rw [List.reverse_append, List.dropWhile_append_of_pos]
      exact fun c hc => hends c (List.mem_reverse.mp hc)
    rw [trimLineEnd, hdropped]
    exact htrimmed.trimLineEnd_eq
  · rintro rfl
    exact trims_trimLineEnd s

/-! ### Fields -/

/-- A text has only one first separator. -/
theorem eq_of_fields {a b a' b' : List Char} (ha : separator ∉ a) (ha' : separator ∉ a')
    (h : a ++ separator :: b = a' ++ separator :: b') : a = a' ∧ b = b' := by
  have hsplit := splitFirst_append (b := b) ha
  rw [h, splitFirst_append ha', Option.some.injEq, Prod.mk.injEq] at hsplit
  exact ⟨hsplit.1.symm, hsplit.2.symm⟩

/-! ### Commands -/

/-- **What is wrong with a line**, given the text of it without line ends. -/
inductive Malformed.Fits (text : List Char) : Malformed → Prop where
  /-- It has no separator. -/
  | missingSeparator (h : separator ∉ text) : Fits text .missingSeparator
  /-- What stands before the first separator is no keyword. -/
  | unknownCommand {keyword rest : List Char} (htext : text = keyword ++ separator :: rest)
      (hfirst : separator ∉ keyword)
      (hkeyword : keyword ∉ ["JOIN".toList, "CALC".toList, "LEAVE".toList]) :
      Fits text (.unknownCommand (String.ofList keyword))
  /-- A client joins, and nothing follows. -/
  | emptyName (htext : text = "JOIN:".toList) : Fits text .emptyName
  /-- A client asks for a calculation, and no separator follows. -/
  | missingExpression {rest : List Char} (htext : text = "CALC:".toList ++ rest)
      (hrest : separator ∉ rest) : Fits text .missingExpression

namespace Command

variable {line : String} {reason : Malformed}

/-- What the fields of a line make: nothing, or a command that is written as these fields. -/
theorem text_ofFields {keyword rest : List Char}
    (h : ∀ reason, ofFields keyword rest ≠ .malformed reason) :
    (ofFields keyword rest).text.toList = keyword ++ separator :: rest := by
  unfold ofFields at h ⊢
  split
  · rename_i hjoin
    split
    · rename_i hempty
      exact absurd (by rw [if_pos hjoin, if_pos hempty]) (h .emptyName)
    · rw [hjoin]
      simp [text, separator]
  · split
    · rename_i hjoin hcalc
      cases hsplit : splitFirst separator rest with
      | none => exact absurd (by rw [if_neg hjoin, if_pos hcalc, hsplit]) (h .missingExpression)
      | some fields =>
        rw [hcalc, eq_of_splitFirst hsplit]
        simp [text, separator]
    · split
      · rename_i hleave
        rw [hleave]
        simp [text, separator]
      · rename_i hjoin hcalc hleave
        exact absurd (by rw [if_neg hjoin, if_neg hcalc, if_neg hleave]) (h (.unknownCommand _))

/-- **Writing what was read.** A command is written as the line that it was read from, without line
    ends. -/
theorem trims_text (h : ∀ reason, ofLine line ≠ .malformed reason) :
    Trims line.toList (ofLine line).text.toList := by
  refine trims_iff.mpr ?_
  unfold ofLine at h ⊢
  cases hsplit : splitFirst separator (trimLineEnd line.toList) with
  | none => exact absurd (by rw [hsplit]) (h .missingSeparator)
  | some fields =>
    simp only [hsplit] at h ⊢
    rw [text_ofFields h, eq_of_splitFirst hsplit]

/-- A command that is read back is written without line ends. -/
theorem isTrimmed_of_ofLine {c : Command} (h : ofLine c.text = c)
    (hc : ∀ reason, c ≠ .malformed reason) : IsTrimmed c.text.toList := by
  have htrims : Trims c.text.toList (ofLine c.text).text.toList := trims_text (by rwa [h])
  rw [h] at htrims
  exact htrims.trimmed

theorem ofLine_text_join_iff (name : String) :
    ofLine (join name).text = .join name ↔ name ≠ "" ∧ IsTrimmed name.toList := by
  have hline : (join name).text.toList = "JOIN".toList ++ separator :: name.toList := by
    simp [text, separator]
  constructor
  · intro h
    refine ⟨?_, isTrimmed_of_join h⟩
    rintro rfl
    revert h
    decide
  · rintro ⟨hname, htrimmed⟩
    rw [ofLine_eq hline (by decide) htrimmed, ofFields, if_pos rfl, if_neg (by simpa using hname),
      String.ofList_toList]

theorem ofLine_text_leave_iff (name : String) :
    ofLine (leave name).text = .leave name ↔ IsTrimmed name.toList := by
  refine ⟨fun h => ?_, ofLine_leave⟩
  have htrimmed := isTrimmed_of_ofLine h nofun
  rwa [toList_leave, isTrimmed_fields] at htrimmed

theorem ofLine_text_calculate_iff (name expression : String) :
    ofLine (calculate name expression).text = .calculate name expression
      ↔ separator ∉ name.toList ∧ IsTrimmed expression.toList := by
  constructor
  · intro h
    have htrimmed := isTrimmed_of_ofLine h nofun
    rw [toList_calculate, isTrimmed_fields, isTrimmed_fields] at htrimmed
    exact ⟨(ofLine_calculate_iff htrimmed).mp h, htrimmed⟩
  · rintro ⟨hname, hexpression⟩
    exact (ofLine_calculate_iff hexpression).mpr hname

/-- The fields of a line make no command just if something is wrong with them. -/
theorem ofFields_malformed_iff {keyword rest : List Char} (hkeyword : separator ∉ keyword) :
    ofFields keyword rest = .malformed reason ↔ reason.Fits (keyword ++ separator :: rest) := by
  constructor
  · intro h
    unfold ofFields at h
    split at h
    · rename_i hjoin
      split at h
      · rename_i hempty
        cases h
        rw [hjoin, List.isEmpty_iff.mp hempty]
        exact .emptyName rfl
      · cases h
    · split at h
      · rename_i hcalc
        split at h
        · cases h
        · rename_i hsplit
          cases h
          rw [hcalc]
          exact .missingExpression rfl (splitFirst_eq_none_iff.mp hsplit)
      · split at h
        · cases h
        · rename_i hjoin hcalc hleave
          cases h
          refine .unknownCommand rfl hkeyword ?_
          simp only [List.mem_cons, List.not_mem_nil, or_false, not_or]
          exact ⟨hjoin, hcalc, hleave⟩
  · intro h
    -- The text has only one first separator, so its fields are the ones that the reason speaks of.
    generalize htext : keyword ++ separator :: rest = text at h
    cases h with
    | missingSeparator hnone => simp [← htext] at hnone
    | unknownCommand hfields hfirst hunknown =>
      obtain ⟨rfl, rfl⟩ := eq_of_fields hkeyword hfirst (htext.trans hfields)
      simp only [List.mem_cons, List.not_mem_nil, or_false, not_or] at hunknown
      rw [ofFields, if_neg hunknown.1, if_neg hunknown.2.1, if_neg hunknown.2.2]
    | emptyName hfields =>
      have hjoin : "JOIN:".toList = "JOIN".toList ++ separator :: [] := rfl
      obtain ⟨rfl, rfl⟩ := eq_of_fields hkeyword (by decide) (htext.trans (hfields.trans hjoin))
      rfl
    | @missingExpression after hfields hrest =>
      have hcalc : "CALC:".toList ++ after = "CALC".toList ++ separator :: after := rfl
      obtain ⟨rfl, rfl⟩ := eq_of_fields hkeyword (by decide) (htext.trans (hfields.trans hcalc))
      rw [ofFields, if_neg (by decide), if_pos rfl, splitFirst_eq_none_iff.mpr hrest]

/-- **Which lines are no commands**, and why. -/
theorem ofLine_malformed_iff :
    ofLine line = .malformed reason ↔ reason.Fits (trimLineEnd line.toList) := by
  unfold ofLine
  cases hsplit : splitFirst separator (trimLineEnd line.toList) with
  | none =>
    have hnone := splitFirst_eq_none_iff.mp hsplit
    constructor
    · intro h
      cases h
      exact .missingSeparator hnone
    · intro h
      cases h with
      | missingSeparator => rfl
      | unknownCommand htext | emptyName htext | missingExpression htext =>
        simp [htext, separator] at hnone
  | some fields =>
    rw [eq_of_splitFirst hsplit]
    exact ofFields_malformed_iff (not_mem_of_splitFirst hsplit)

end Command

/-- **Commands are read back.** Whatever line is understood as a command is its text, but for line
    ends.  A command that is written is read back just if no field of it is cut, by line ends behind
    it or by a separator inside it, and a name that is joined under is not empty.  Every other line
    is malformed, for a reason that it fits. -/
theorem commands_read_back :
    (∀ line, (∀ reason, Command.ofLine line ≠ .malformed reason) →
      Trims line.toList (Command.ofLine line).text.toList) ∧
      (∀ name, Command.ofLine (Command.join name).text = .join name ↔
        name ≠ "" ∧ IsTrimmed name.toList) ∧
      (∀ name, Command.ofLine (Command.leave name).text = .leave name ↔ IsTrimmed name.toList) ∧
      (∀ name expression,
        Command.ofLine (Command.calculate name expression).text = .calculate name expression ↔
          separator ∉ name.toList ∧ IsTrimmed expression.toList) ∧
      ∀ line text, Trims line.toList text → ∀ reason : Malformed,
        Command.ofLine line = .malformed reason ↔ reason.Fits text := by
  refine ⟨fun line => Command.trims_text, Command.ofLine_text_join_iff,
    Command.ofLine_text_leave_iff, Command.ofLine_text_calculate_iff, ?_⟩
  intro line text htext reason
  rw [← trims_iff.mp htext]
  exact Command.ofLine_malformed_iff

/-- A name that is empty, and an expression with separators and a line end in it. -/
theorem read_back_emptyName :
    Command.ofLine "CALC::1\r:2\r\n" = .calculate "" "1\r:2" ∧
      Trims "CALC::1\r:2\r\n".toList "CALC::1\r:2".toList ∧
      Command.ofLine "JOIN:\n" = .malformed .emptyName := by
  have hcalc : Command.ofLine "CALC::1\r:2\r\n" = .calculate "" "1\r:2" := by decide +kernel
  refine ⟨hcalc, ?_, ?_⟩
  · have htrims := commands_read_back.1 "CALC::1\r:2\r\n" (by rw [hcalc]; exact nofun)
    rwa [hcalc] at htrims
  · have htrims : Trims "JOIN:\n".toList "JOIN:".toList := trims_iff.mpr (by decide)
    exact (commands_read_back.2.2.2.2 _ _ htrims .emptyName).mpr (.emptyName rfl)

/-! ### Responses -/

namespace Response

variable {line : String} {r : Response}

theorem text_ofFields {keyword rest : List Char} (h : ofFields? keyword rest = some r) :
    r.text.toList = keyword ++ separator :: rest := by
  unfold ofFields? at h
  split at h
  · rename_i herr
    cases h
    rw [herr]
    simp [text, separator]
  · split at h
    · rename_i hack
      split at h
      · cases h
      · rename_i name word hsplit
        rw [hack, eq_of_splitLast hsplit]
        split at h
        · rename_i hwelcome
          cases h
          rw [hwelcome]
          simp [text, separator]
        · split at h
          · rename_i hgoodbye
            cases h
            rw [hgoodbye]
            simp [text, separator]
          · cases h
    · split at h
      · rename_i hres
        obtain ⟨⟨name, value⟩, hsplit, heq⟩ := Option.map_eq_some_iff.mp h
        cases heq
        rw [hres, eq_of_splitFirst hsplit]
        simp [text, separator]
      · cases h

/-- **Writing what was read.** A response is written as the line that it was read from, without line
    ends. -/
theorem trims_text (h : ofLine? line = some r) : Trims line.toList r.text.toList := by
  refine trims_iff.mpr ?_
  unfold ofLine? at h
  cases hsplit : splitFirst separator (trimLineEnd line.toList) with
  | none => simp [hsplit] at h
  | some fields =>
    simp only [hsplit] at h
    rw [text_ofFields h, eq_of_splitFirst hsplit]

/-- No field of the response is cut when its line is read, by a separator inside it or by line ends
    behind it. -/
def Uncut : Response → Prop
  | welcome _ | goodbye _ => True
  | result name value => separator ∉ name.toList ∧ IsTrimmed value.toList
  | error message => IsTrimmed message.toList

theorem ofLine?_text_iff (r : Response) : ofLine? r.text = some r ↔ r.Uncut := by
  -- What is read back has no line end behind it, and what stands there is its last field.
  have hend (h : ofLine? r.text = some r) : IsTrimmed r.text.toList := (trims_text h).trimmed
  cases r with
  | welcome name => exact iff_of_true ofLine?_welcome trivial
  | goodbye name => exact iff_of_true ofLine?_goodbye trivial
  | result name value =>
    rw [toList_result, isTrimmed_fields, isTrimmed_fields] at hend
    refine ⟨fun h => ⟨(ofLine?_result_iff (hend h)).mp h, hend h⟩, ?_⟩
    rintro ⟨hname, hvalue⟩
    exact (ofLine?_result_iff hvalue).mpr hname
  | error message =>
    have hline : (error message).text.toList = "ERR".toList ++ separator :: message.toList := by
      simp [text, separator]
    rw [hline, isTrimmed_fields] at hend
    refine ⟨hend, fun hmessage => ?_⟩
    rw [ofLine?_eq hline (by decide) hmessage, ofFields?, if_pos rfl, String.ofList_toList]

end Response

/-- **Responses are read back.** Whatever line is understood as a response is its text, but for line
    ends.  A response that is written is read back just if it is uncut, so the lines of different
    uncut responses differ. -/
theorem responses_read_back :
    (∀ line r, Response.ofLine? line = some r → Trims line.toList r.text.toList) ∧
      (∀ r : Response, Response.ofLine? r.text = some r ↔ r.Uncut) ∧
      ∀ r r' : Response, r.Uncut → r'.Uncut → r.text = r'.text → r = r' := by
  refine ⟨fun line r => Response.trims_text, Response.ofLine?_text_iff, ?_⟩
  intro r r' hr hr' htext
  have hread := (Response.ofLine?_text_iff r).mpr hr
  rw [htext, (Response.ofLine?_text_iff r').mpr hr'] at hread
  exact (Option.some.inj hread).symm

/-- A name with a separator and a line end is welcomed, and the line is told from others. -/
theorem read_back_welcome :
    Response.ofLine? "ACK:a:\nb:Welcome\r\n" = some (.welcome "a:\nb") ∧
      Trims "ACK:a:\nb:Welcome\r\n".toList "ACK:a:\nb:Welcome".toList ∧
      (Response.welcome "a:\nb").text ≠ (Response.goodbye "a:\nb:Welcome").text := by
  have hread : Response.ofLine? "ACK:a:\nb:Welcome\r\n" = some (.welcome "a:\nb") := by
    decide +kernel
  refine ⟨hread, responses_read_back.1 _ _ hread, ?_⟩
  intro htext
  cases responses_read_back.2.2 (.welcome "a:\nb") (.goodbye "a:\nb:Welcome") trivial trivial htext

end Reckoner
