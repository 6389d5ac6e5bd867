/-!
# Text and bytes

Text goes out as UTF-8.  Bytes that come in are read as UTF-8 with every ill-formed part replaced:
a part is the longest run that could still have begun a character, and each such part becomes one
replacement character `U+FFFD`.

* `utf8` — the bytes of a text.
* `decodeLossy` — the text of any bytes.
* `decodeStrict` — the text of well-formed bytes only.
-/

namespace Reckoner

/-- A byte sequence, as it travels on a connection or lies in a file. -/
abbrev Bytes := List UInt8

/-- The line feed, which ends every line on a connection. -/
def lineFeed : UInt8 := 10

/-- The carriage return, which may stand before a line feed. -/
def carriageReturn : UInt8 := 13

/-! ### Encoding -/

/-- The UTF-8 bytes of a text. -/
def utf8 (s : String) : Bytes := s.toList.flatMap String.utf8EncodeChar

/-! ### Decoding -/

/-- What the first byte of a character of several bytes says: how many bytes follow, the range of
    the first of them, and the bits it carries. -/
structure Lead where
  /-- The number of bytes that follow. -/
  following : Nat
  /-- The least byte that may follow first. -/
  least : UInt8
  /-- The greatest byte that may follow first. -/
  greatest : UInt8
  /-- The high bits of the code point. -/
  bits : Nat

/-- The leading bytes of well-formed sequences.  The narrowed ranges shut out overlong forms,
    surrogates, and code points past the last. -/
def Lead.ofByte? (b : UInt8) : Option Lead :=
  if b < 0xc2 then none
  else if b < 0xe0 then some ⟨1, 0x80, 0xbf, b.toNat % 32⟩
  else if b = 0xe0 then some ⟨2, 0xa0, 0xbf, 0⟩
  else if b = 0xed then some ⟨2, 0x80, 0x9f, 13⟩
  else if b < 0xf0 then some ⟨2, 0x80, 0xbf, b.toNat % 16⟩
  else if b = 0xf0 then some ⟨3, 0x90, 0xbf, 0⟩
  else if b < 0xf4 then some ⟨3, 0x80, 0xbf, b.toNat % 8⟩
  else if b = 0xf4 then some ⟨3, 0x80, 0x8f, 4⟩
  else none

/-- Reads the bytes that have to follow.  A byte out of range stays unread. -/
def finishChar : (following : Nat) → (least greatest : UInt8) → (bits : Nat) → Bytes →
    Option Char × Bytes
  | 0, _, _, bits, rest => (some (Char.ofNat bits), rest)
  | _ + 1, _, _, _, [] => (none, [])
  | n + 1, least, greatest, bits, b :: rest =>
    if least ≤ b ∧ b ≤ greatest then finishChar n 0x80 0xbf (bits * 64 + b.toNat % 64) rest
    else (none, b :: rest)

theorem length_finishChar_le (n : Nat) (least greatest : UInt8) (bits : Nat) (rest : Bytes) :
    (finishChar n least greatest bits rest).2.length ≤ rest.length := by
  induction n generalizing least greatest bits rest with
  | zero => simp [finishChar]
  | succ n ih =>
    cases rest with
    | nil => simp [finishChar]
    | cons b rest =>
      unfold finishChar
      split
      · exact Nat.le_succ_of_le (ih ..)
      · exact Nat.le_refl _

/-- Reads the first character or ill-formed part of `b :: rest`; `none` for the latter. -/
def takeChar (b : UInt8) (rest : Bytes) : Option Char × Bytes :=
  if b < 0x80 then (some (Char.ofNat b.toNat), rest)
  else match Lead.ofByte? b with
    | none => (none, rest)
    | some lead => finishChar lead.following lead.least lead.greatest lead.bits rest

theorem length_takeChar_le (b : UInt8) (rest : Bytes) :
    (takeChar b rest).2.length ≤ rest.length := by
  unfold takeChar
  split
  · exact Nat.le_refl _
  · split
    · exact Nat.le_refl _
    · exact length_finishChar_le ..

/-- Bytes cut into characters and ill-formed parts, in order. -/
def takeChars : Bytes → List (Option Char)
  | [] => []
  | b :: rest =>
    have := length_takeChar_le b rest
    (takeChar b rest).1 :: takeChars (takeChar b rest).2
termination_by bytes => bytes.length
decreasing_by simp only [List.length_cons]; omega

/-- The character that stands for an ill-formed part. -/
def replacementChar : Char := '\ufffd'

/-- The text of any bytes, each ill-formed part replaced. -/
def decodeLossy (bytes : Bytes) : String :=
  String.ofList ((takeChars bytes).map (·.getD replacementChar))

/-- The text of well-formed bytes. -/
def decodeStrict (bytes : Bytes) : Option String :=
  ((takeChars bytes).mapM id).map String.ofList

end Reckoner
