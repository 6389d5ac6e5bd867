import Reckoner.Text.Invisible
import Reckoner.Text.Joining

/-!
# Quoted text

A text in double quotes, as reports show it: double quotes and backslashes are escaped, so are the
usual control characters by their letters, and every other character that is invisible or joins
the one before it by its code point.  A single quote needs no escape.
-/

namespace Reckoner

namespace Quoted

/-- A character by its code point. -/
def encodeCodePoint (c : Char) : List Char :=
  '\\' :: 'u' :: '\x7b' :: Nat.toDigits 16 c.toNat ++ ['\x7d']

/-- One character inside the quotes. -/
def encodeChar (c : Char) : List Char :=
  match c with
  | '\t' => ['\\', 't']
  | '\n' => ['\\', 'n']
  | '\r' => ['\\', 'r']
  | '\x00' => ['\\', '0']
  | '"' => ['\\', '"']
  | '\\' => ['\\', '\\']
  | c => if isInvisible c || isJoining c then encodeCodePoint c else [c]

/-- The text in quotes. -/
def encode (s : String) : String :=
  String.ofList ('"' :: s.toList.flatMap encodeChar ++ ['"'])

end Quoted

end Reckoner
