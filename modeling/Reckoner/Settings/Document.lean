/-!
# Settings documents

A settings document is a flat TOML document: one entry per line, a key and a string or an integer.
Tables, arrays, and all other kinds of values are never settings, so a document that holds one is
refused like a document that is not TOML.

* `Setting` — the value of an entry.
* `Document.entries?` — the entries of a document in order, or `none` if it is refused.
-/

namespace Reckoner

/-- The value of an entry. -/
inductive Setting where
  /-- A string. -/
  | text (value : String)
  /-- An integer of 64 bits. -/
  | integer (value : Int)
  deriving DecidableEq, Repr

namespace Document

/-! ### Characters -/

/-- Space and tab, which separate the parts of an entry. -/
def isSpace (c : Char) : Bool := c = ' ' || c = '\t'

/-- A character that may stand in a comment or, quotes and backslashes apart, in a string. -/
def isPlain (c : Char) : Bool := c = '\t' || (0x20 ≤ c.toNat && c.toNat ≤ 0x7e) || 0x80 ≤ c.toNat

/-- A character of a key without quotes. -/
def isBare (c : Char) : Bool := c.isAlphanum || c = '_' || c = '-'

/-- The value of a digit below `radix`. -/
def digit? (radix : Nat) (c : Char) : Option Nat :=
  let n :=
    if c.isDigit then c.toNat - '0'.toNat
    else if 'a' ≤ c ∧ c ≤ 'f' then c.toNat - 'a'.toNat + 10
    else if 'A' ≤ c ∧ c ≤ 'F' then c.toNat - 'A'.toNat + 10
    else radix
  if n < radix then some n else none

/-! ### Strings -/

/-- The character that hexadecimal digits name, if they name one. -/
def scalar? (digits : List Char) : Option Char := do
  let values ← digits.mapM (digit? 16)
  let n := values.foldl (16 * · + ·) 0
  if n.isValidChar then some (Char.ofNat n) else none

/-- The character that a letter after a backslash names. -/
def escaped? : Char → Option Char
  | 'b' => some '\x08'
  | 't' => some '\t'
  | 'n' => some '\n'
  | 'f' => some '\x0c'
  | 'r' => some '\r'
  | '"' => some '"'
  | '\\' => some '\\'
  | _ => none

/-- Puts a character before the string that is read next. -/
def before (c : Char) (r : Option (List Char × List Char)) : Option (List Char × List Char) :=
  r.map fun (s, rest) => (c :: s, rest)

/-- The string up to a double quote, and what follows. -/
def basic : List Char → Option (List Char × List Char)
  | '"' :: rest => some ([], rest)
  | '\\' :: 'u' :: a :: b :: c :: d :: rest => do before (← scalar? [a, b, c, d]) (basic rest)
  | '\\' :: 'U' :: a :: b :: c :: d :: e :: f :: g :: h :: rest => do
    before (← scalar? [a, b, c, d, e, f, g, h]) (basic rest)
  | '\\' :: c :: rest => do before (← escaped? c) (basic rest)
  | c :: rest => if isPlain c then before c (basic rest) else none
  | [] => none

/-- The string up to a single quote, and what follows. -/
def literal : List Char → Option (List Char × List Char)
  | '\'' :: rest => some ([], rest)
  | c :: rest => if isPlain c then before c (literal rest) else none
  | [] => none

/-- What follows a line break. -/
def afterBreak? : List Char → Option (List Char)
  | '\n' :: rest => some rest
  | '\r' :: '\n' :: rest => some rest
  | _ => none

/-- The text without a line break at its start. -/
def dropBreak (s : List Char) : List Char := (afterBreak? s).getD s

/-- The string up to three double quotes, and what follows.  Up to two more quotes before them
    belong to the string.  After a backslash at the end of a line, `skipping`, all space and line
    breaks are left out. -/
def basicLines : (skipping : Bool) → List Char → Option (List Char × List Char)
  | _, '"' :: '"' :: '"' :: '"' :: '"' :: rest => some (['"', '"'], rest)
  | _, '"' :: '"' :: '"' :: '"' :: rest => some (['"'], rest)
  | _, '"' :: '"' :: '"' :: rest => some ([], rest)
  | _, '"' :: rest => before '"' (basicLines false rest)
  | skipping, '\r' :: '\n' :: rest =>
    if skipping then basicLines true rest else before '\n' (basicLines false rest)
  | skipping, '\n' :: rest =>
    if skipping then basicLines true rest else before '\n' (basicLines false rest)
  | _, '\\' :: 'u' :: a :: b :: c :: d :: rest => do
    before (← scalar? [a, b, c, d]) (basicLines false rest)
  | _, '\\' :: 'U' :: a :: b :: c :: d :: e :: f :: g :: h :: rest => do
    before (← scalar? [a, b, c, d, e, f, g, h]) (basicLines false rest)
  | _, '\\' :: c :: rest =>
    if (afterBreak? ((c :: rest).dropWhile isSpace)).isSome then
      if c = '\r' then basicLines true (rest.drop 1) else basicLines true rest
    else do before (← escaped? c) (basicLines false rest)
  | skipping, c :: rest =>
    if isPlain c then
      if skipping && isSpace c then basicLines true rest else before c (basicLines false rest)
    else none
  | _, [] => none
termination_by _ s => s.length
decreasing_by all_goals simp only [List.length_cons, List.length_drop]; omega

/-- The string up to three single quotes, and what follows.  Up to two more quotes before them
    belong to the string. -/
def literalLines : List Char → Option (List Char × List Char)
  | '\'' :: '\'' :: '\'' :: '\'' :: '\'' :: rest => some (['\'', '\''], rest)
  | '\'' :: '\'' :: '\'' :: '\'' :: rest => some (['\''], rest)
  | '\'' :: '\'' :: '\'' :: rest => some ([], rest)
  | '\r' :: '\n' :: rest => before '\n' (literalLines rest)
  | '\n' :: rest => before '\n' (literalLines rest)
  | c :: rest => if isPlain c then before c (literalLines rest) else none
  | [] => none

/-- A string in any of the four forms. -/
def string? : List Char → Option (List Char × List Char)
  | '"' :: '"' :: '"' :: rest => basicLines false (dropBreak rest)
  | '"' :: rest => basic rest
  | '\'' :: '\'' :: '\'' :: rest => literalLines (dropBreak rest)
  | '\'' :: rest => literal rest
  | _ => none

/-! ### Integers -/

/-- The rest of a row of digits after its value so far; single underscores may stand between
    digits. -/
def moreDigits (radix : Nat) (n : Nat) : List Char → Nat × List Char
  | '_' :: c :: rest =>
    match digit? radix c with
    | some d => moreDigits radix (n * radix + d) rest
    | none => (n, '_' :: c :: rest)
  | c :: rest =>
    match digit? radix c with
    | some d => moreDigits radix (n * radix + d) rest
    | none => (n, c :: rest)
  | [] => (n, [])

/-- A row of at least one digit. -/
def digits (radix : Nat) : List Char → Option (Nat × List Char)
  | c :: rest => (digit? radix c).map fun d => moreDigits radix d rest
  | [] => none

/-- A decimal number: a zero, or a row of digits that does not begin with one. -/
def decimal : List Char → Option (Nat × List Char)
  | '0' :: rest => some (0, rest)
  | s => digits 10 s

/-- An integer, decimal with or without a sign, or in another radix without one. -/
def integer? : List Char → Option (Int × List Char)
  | '0' :: 'x' :: rest => (digits 16 rest).map fun (n, rest) => (n, rest)
  | '0' :: 'o' :: rest => (digits 8 rest).map fun (n, rest) => (n, rest)
  | '0' :: 'b' :: rest => (digits 2 rest).map fun (n, rest) => (n, rest)
  | '+' :: rest => (decimal rest).map fun (n, rest) => (n, rest)
  | '-' :: rest => (decimal rest).map fun (n, rest) => (-n, rest)
  | s => (decimal s).map fun (n, rest) => (n, rest)

/-- The integer fits in 64 bits. -/
def fits (n : Int) : Bool := -(Int.pow 2 63) ≤ n && n < Int.pow 2 63

/-! ### Entries -/

/-- A key: bare, or a string on one line. -/
def key? (s : List Char) : Option (List Char × List Char) :=
  match s with
  | '"' :: rest => basic rest
  | '\'' :: rest => literal rest
  | _ =>
    let key := s.takeWhile isBare
    if key.isEmpty then none else some (key, s.dropWhile isBare)

/-- The value of an entry. -/
def setting? (s : List Char) : Option (Setting × List Char) :=
  match s with
  | '"' :: _ | '\'' :: _ => (string? s).map fun (t, rest) => (.text (String.ofList t), rest)
  | _ => do
    let (n, rest) ← integer? s
    if fits n then some (.integer n, rest) else none

/-- What follows the end of a line: space, a comment, and a line break or the end of the text. -/
def endLine? (s : List Char) : Option (List Char) :=
  let s := s.dropWhile isSpace
  let s := match s with
    | '#' :: rest => rest.dropWhile isPlain
    | s => s
  match s with
  | [] => some []
  | s => afterBreak? s

/-- One line, an entry or an empty one, and what follows. -/
def line? (s : List Char) : Option (Option (String × Setting) × List Char) :=
  match endLine? s with
  | some rest => some (none, rest)
  | none => do
    let (key, s) ← key? (s.dropWhile isSpace)
    match s.dropWhile isSpace with
    | '=' :: s =>
      let (value, s) ← setting? (s.dropWhile isSpace)
      let rest ← endLine? s
      return (some (String.ofList key, value), rest)
    | _ => none

/-- The entries of the lines, at most `fuel` of them. -/
def lines? : (fuel : Nat) → List Char → Option (List (String × Setting))
  | _, [] => some []
  | 0, _ => none
  | fuel + 1, s => do
    let (entry, rest) ← line? s
    let entries ← lines? fuel rest
    return entry.toList ++ entries

/-- The entries of a document in order.  A byte-order mark at the start is skipped; a key may occur
    once.  Every line takes up a character, so the length bounds their number. -/
def entries? (text : String) : Option (List (String × Setting)) := do
  let s := match text.toList with
    | '\ufeff' :: rest => rest
    | s => s
  let entries ← lines? s.length s
  if (entries.map Prod.fst).eraseDups.length = entries.length then some entries else none

end Document

end Reckoner
