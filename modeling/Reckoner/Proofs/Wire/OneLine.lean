import Reckoner.Proofs.Wire.RoundTrip
import Reckoner.Proofs.Text.Lines
import Reckoner.Evaluation.Queue
import Reckoner.Session.Input

/-!
# Every response is one line

A line of the input holds no line feed, so no name that is cut from it does, and no response says
anything else that could.

* `notMem_utf8`, `notMem_decodeLossy` — line feeds in a text and in its bytes are the same.
* `Command.subset_of_fields` — the texts of a command are parts of its line.
* `Response.IsLine` — a response without a line feed in it.
* `Response.OneLine`, `Response.IsLine.oneLine` — what is written for it has one line feed, at the
  end.
* `Response.eq_goodbye_of_text` — a good-bye cannot be mistaken for anything else.
-/

namespace Reckoner

/-! ### Bytes and characters -/

/-- Only the line feed has its byte. -/
theorem eq_newline_of_mem {c : Char} (h : lineFeed ∈ String.utf8EncodeChar c) : c = '\n' := by
  have hten : lineFeed.toNat = 10 := rfl
  -- The bytes of a longer sequence are all beyond those of one byte.
  have hlong (n m k : Nat) (hm : 0 < m) (hk : 10 < k) (hkm : k + m ≤ 256) :
      lineFeed ≠ UInt8.ofNat (n % m + k) := by
    intro heq
    have hvalue := congrArg UInt8.toNat heq
    rw [UInt8.toNat_ofNat'] at hvalue
    have := Nat.mod_lt n hm
    omega
  unfold String.utf8EncodeChar at h
  dsimp only at h
  split at h
  · have hvalue := congrArg UInt8.toNat (List.mem_singleton.mp h)
    rw [UInt8.toNat_ofNat'] at hvalue
    have hcode : c.val.toNat = 10 := by omega
    exact Char.ext (UInt32.toNat_inj.mp hcode)
  · exfalso
    split at h
    · simp only [List.mem_cons, List.not_mem_nil, or_false] at h
      rcases h with h | h <;> exact hlong _ _ _ (by decide) (by decide) (by decide) h
    · split at h <;> simp only [List.mem_cons, List.not_mem_nil, or_false] at h
      · rcases h with h | h | h <;> exact hlong _ _ _ (by decide) (by decide) (by decide) h
      · rcases h with h | h | h | h <;> exact hlong _ _ _ (by decide) (by decide) (by decide) h

/-- Texts with the same bytes are the same. -/
theorem utf8_inj {s t : String} (h : utf8 s = utf8 t) : s = t := by
  rw [← String.toByteArray_inj, ← String.utf8Encode_toList, ← String.utf8Encode_toList]
  exact congrArg List.toByteArray h

theorem notMem_utf8 {s : String} (h : '\n' ∉ s.toList) : lineFeed ∉ utf8 s := by
  intro hmem
  obtain ⟨c, hc, hbyte⟩ := List.mem_flatMap.mp hmem
  exact h (eq_newline_of_mem hbyte ▸ hc)

/-- Only ten is the code of the line feed. -/
theorem eq_ten_of_ofNat {code : Nat} (h : Char.ofNat code = '\n') : code = 10 := by
  by_cases hvalid : code.isValidChar
  · rw [Char.ofNat, dif_pos hvalid] at h
    exact congrArg Char.toNat h
  · rw [Char.ofNat, dif_neg hvalid] at h
    exact absurd h (by decide)

/-- The bytes that follow make the code of a character no smaller. -/
theorem le_of_finishChar {n bits : Nat} {least greatest : UInt8} {rest rest' : Bytes} {c : Char}
    (h : finishChar n least greatest bits rest = (some c, rest')) :
    ∃ code, c = Char.ofNat code ∧ bits ≤ code := by
  induction n generalizing least greatest bits rest with
  | zero =>
    cases h
    exact ⟨bits, rfl, Nat.le_refl _⟩
  | succ n ih =>
    cases rest with
    | nil => cases h
    | cons b rest =>
      unfold finishChar at h
      split at h
      · obtain ⟨code, hcode, hle⟩ := ih h
        exact ⟨code, hcode, by omega⟩
      · cases h

/-- A first byte that begins a longer sequence, with the least byte that may follow, begins no
    character that one byte could stand for. -/
theorem Lead.large {b : UInt8} {lead : Lead} (h : Lead.ofByte? b = some lead) :
    0 < lead.following ∧
      (0 < lead.bits ∨ 0x90 ≤ lead.least.toNat ∧ lead.greatest.toNat ≤ 0xbf) := by
  have htwo : (0xc2 : UInt8).toNat = 194 := rfl
  have hthree : (0xe0 : UInt8).toNat = 224 := rfl
  have hfour : (0xf0 : UInt8).toNat = 240 := rfl
  have hlast : (0xf4 : UInt8).toNat = 244 := rfl
  have hne {k : UInt8} (hk : b ≠ k) : b.toNat ≠ k.toNat := fun heq => hk (UInt8.toNat_inj.mp heq)
  -- Down the table of first bytes: where no bit is left of one, the bytes that may follow are few.
  simp only [Lead.ofByte?, UInt8.lt_iff_toNat_lt] at h
  split at h
  · cases h
  split at h
  · cases h
    exact ⟨Nat.succ_pos _, .inl (by dsimp only; omega)⟩
  split at h
  · cases h
    exact ⟨by decide, .inr (by decide)⟩
  split at h
  · cases h
    exact ⟨by decide, .inl (by decide)⟩
  split at h
  · rename_i hno _ _
    have := hne hno
    cases h
    exact ⟨Nat.succ_pos _, .inl (by dsimp only; omega)⟩
  split at h
  · cases h
    exact ⟨by decide, .inr (by decide)⟩
  split at h
  · rename_i hno _
    have := hne hno
    cases h
    exact ⟨Nat.succ_pos _, .inl (by dsimp only; omega)⟩
  split at h
  · cases h
    exact ⟨by decide, .inl (by decide)⟩
  · cases h

/-- A sequence of several bytes is no line feed. -/
theorem ne_newline_of_finishChar {b : UInt8} {lead : Lead} (hlead : Lead.ofByte? b = some lead)
    {rest rest' : Bytes} {c : Char}
    (h : finishChar lead.following lead.least lead.greatest lead.bits rest = (some c, rest')) :
    c ≠ '\n' := by
  obtain ⟨hfollowing, hlarge⟩ := Lead.large hlead
  obtain ⟨n, hn⟩ := Nat.exists_eq_succ_of_ne_zero (Nat.ne_of_gt hfollowing)
  rw [hn] at h
  cases rest with
  | nil => cases h
  | cons next rest =>
    unfold finishChar at h
    split at h
    · rename_i hrange
      obtain ⟨code, rfl, hle⟩ := le_of_finishChar h
      have hleast := UInt8.le_iff_toNat_le.mp hrange.1
      have hgreatest := UInt8.le_iff_toNat_le.mp hrange.2
      intro heq
      have := eq_ten_of_ofNat heq
      omega
    · cases h

theorem suffix_finishChar (n : Nat) (least greatest : UInt8) (bits : Nat) (rest : Bytes) :
    (finishChar n least greatest bits rest).2 <:+ rest := by
  induction n generalizing least greatest bits rest with
  | zero => exact List.suffix_rfl
  | succ n ih =>
    cases rest with
    | nil => exact List.suffix_rfl
    | cons b rest =>
      unfold finishChar
      split
      · exact (ih ..).trans (List.suffix_cons b rest)
      · exact List.suffix_rfl

theorem suffix_takeChar (b : UInt8) (rest : Bytes) : (takeChar b rest).2 <:+ rest := by
  unfold takeChar
  split
  · exact List.suffix_rfl
  · split
    · exact List.suffix_rfl
    · exact suffix_finishChar ..

/-- A character that is read is a line feed only if its byte is. -/
theorem eq_lineFeed_of_takeChar {b : UInt8} {rest : Bytes}
    (h : (takeChar b rest).1 = some '\n') : b = lineFeed := by
  unfold takeChar at h
  split at h
  · have hcode := eq_ten_of_ofNat (Option.some.inj h)
    exact UInt8.toNat_inj.mp hcode
  · split at h
    · cases h
    · rename_i lead hlead
      generalize hread : finishChar _ _ _ _ rest = read at h
      obtain ⟨c, rest'⟩ := read
      obtain rfl : c = some '\n' := h
      exact absurd rfl (ne_newline_of_finishChar hlead hread)

theorem notMem_takeChars {bytes : Bytes} (h : lineFeed ∉ bytes) : some '\n' ∉ takeChars bytes := by
  induction bytes using takeChars.induct with
  | case1 => simp [takeChars]
  | case2 b rest hle ih =>
    rw [takeChars, List.mem_cons, not_or]
    rw [List.mem_cons, not_or] at h
    exact ⟨fun hread => h.1 (eq_lineFeed_of_takeChar hread.symm).symm,
      ih fun hmem => h.2 ((suffix_takeChar b rest).subset hmem)⟩

theorem notMem_decodeLossy {bytes : Bytes} (h : lineFeed ∉ bytes) :
    '\n' ∉ (decodeLossy bytes).toList := by
  rw [decodeLossy, String.toList_ofList]
  intro hmem
  obtain ⟨read, hread, hchar⟩ := List.mem_map.mp hmem
  cases read with
  | none => exact absurd hchar (by decide)
  | some c =>
    obtain rfl : c = '\n' := hchar
    exact notMem_takeChars h hread

/-! ### Commands -/

namespace Command

/-- The texts that a command has taken from its line. -/
def fields : Command → List String
  | join name | leave name => [name]
  | calculate name expression => [name, expression]
  | malformed (.unknownCommand keyword) => [keyword]
  | malformed _ => []

theorem subset_of_ofFields {keyword rest : List Char} {field : String}
    (h : field ∈ (ofFields keyword rest).fields) :
    field.toList ⊆ keyword ∨ field.toList ⊆ rest := by
  unfold ofFields at h
  split at h
  · split at h
    · cases h
    · rw [List.mem_singleton.mp h, String.toList_ofList]
      exact .inr fun _ hc => hc
  split at h
  · refine .inr ?_
    split at h
    · rename_i name expression hsplit
      rw [eq_of_splitFirst hsplit]
      rcases List.mem_cons.mp h with rfl | h
      · rw [String.toList_ofList]
        exact List.subset_append_left _ _
      · rw [List.mem_singleton.mp h, String.toList_ofList]
        exact fun c hc => List.mem_append_right _ (List.mem_cons_of_mem _ hc)
    · cases h
  split at h
  · rw [List.mem_singleton.mp h, String.toList_ofList]
    exact .inr fun _ hc => hc
  · rw [List.mem_singleton.mp h, String.toList_ofList]
    exact .inl fun _ hc => hc

/-- **Nothing but the line.** The texts of a command are parts of its line. -/
theorem subset_of_fields {line field : String} (h : field ∈ (ofLine line).fields) :
    field.toList ⊆ line.toList := by
  unfold ofLine at h
  split at h
  · cases h
  · rename_i keyword rest hsplit
    have htrimmed : trimLineEnd line.toList ⊆ line.toList := fun c hc =>
      List.mem_reverse.mp ((List.dropWhile_sublist _).subset (List.mem_reverse.mp hc))
    rw [eq_of_splitFirst hsplit] at htrimmed
    rcases subset_of_ofFields h with hkeyword | hrest
    · exact fun c hc => htrimmed (List.mem_append_left _ (hkeyword hc))
    · exact fun c hc => htrimmed (List.mem_append_right _ (List.mem_cons_of_mem _ (hrest hc)))

theorem notMem_of_fields {line field : String} (hline : '\n' ∉ line.toList)
    (h : field ∈ (ofLine line).fields) : '\n' ∉ field.toList :=
  fun hmem => hline (subset_of_fields h hmem)

/-- A client does not join under a name with a line feed. -/
theorem notMem_of_join {line name : String} (h : ofLine line = .join name)
    (hline : '\n' ∉ line.toList) : '\n' ∉ name.toList := by
  refine notMem_of_fields hline ?_
  rw [h]
  exact List.mem_cons_self

end Command

/-- A line of the input holds no line feed but the one at its end. -/
theorem notMem_of_lineOfPiece {longest : Nat} {bytes : Bytes} {line : String}
    (h : lineOfPiece longest bytes = some line) (hbytes : lineFeed ∉ dropLast? lineFeed bytes) :
    '\n' ∉ line.toList := by
  unfold lineOfPiece at h
  simp only at h
  split at h
  · cases h
  · cases h
    refine notMem_decodeLossy fun hmem => hbytes ?_
    unfold stripLineEnd at hmem
    rw [dropLast?] at hmem
    split at hmem
    · exact List.dropLast_subset _ hmem
    · exact hmem

/-! ### Responses -/

namespace Response

/-- There is no line feed in the response. -/
def IsLine (r : Response) : Prop := '\n' ∉ r.text.toList

/-- The bytes are the line of one response, and hold no line feed but that at their end. -/
def OneLine (bytes : Bytes) : Prop :=
  ∃ r : Response, bytes = utf8 r.text ++ [lineFeed] ∧ lineFeed ∉ utf8 r.text

variable {name value message : String}

theorem IsLine.notMem {r : Response} (h : r.IsLine) : lineFeed ∉ utf8 r.text := notMem_utf8 h

theorem IsLine.oneLine {r : Response} (h : r.IsLine) : OneLine r.line := ⟨r, rfl, h.notMem⟩

theorem isLine_welcome (hname : '\n' ∉ name.toList) : (welcome name).IsLine := by
  simp [IsLine, text, hname]

theorem isLine_goodbye (hname : '\n' ∉ name.toList) : (goodbye name).IsLine := by
  simp [IsLine, text, hname]

theorem isLine_result (hname : '\n' ∉ name.toList) (hvalue : '\n' ∉ value.toList) :
    (result name value).IsLine := by
  simp [IsLine, text, hname, hvalue]

theorem isLine_error (hmessage : '\n' ∉ message.toList) : (error message).IsLine := by
  simp [IsLine, text, hmessage]

/-- **Good-byes are unmistakable.** No other response has the same text. -/
theorem eq_goodbye_of_text {r : Response} (h : r.text = (goodbye name).text) :
    r = goodbye name := by
  have hchars := congrArg String.toList h
  cases r with
  | welcome other =>
    -- The last words differ, and both have the same length.
    have hlast := congrArg List.reverse hchars
    simp [text] at hlast
  | goodbye other =>
    have hsame : other.toList = name.toList := by simpa [text] using hchars
    rw [String.toList_inj.mp hsame]
  | result other value => simp [text] at hchars
  | error message => simp [text] at hchars

end Response

/-- The value of a request is the text of a number. -/
theorem Request.notMem_value {r : Request} {value : String} (h : r.outcome = .ok value) :
    '\n' ∉ value.toList := by
  rw [outcome] at h
  cases hvalue : evaluate r.expression with
  | error e =>
    rw [hvalue] at h
    cases h
  | ok v =>
    rw [hvalue] at h
    cases h
    exact fun hmem => absurd (Binary64.isLineEnd_of_mem_result hmem) (by decide)

/-- The reply to a request is one line if the client's name is. -/
theorem Request.isLine_reply {r : Request} (hclient : '\n' ∉ r.client.toList) :
    (r.reply r.outcome).IsLine := by
  cases houtcome : r.outcome with
  | error e => exact Response.isLine_error (by decide)
  | ok value => exact Response.isLine_result hclient (notMem_value houtcome)

end Reckoner
