import Reckoner.Text.Utf8

/-!
# The input of a session

Bytes arrive in chunks of any size; a session wants lines.

* `Input.arrive`, `Input.finish` — what the network does.
* `Input.pull` — goes on with the line that was begun, as far as bytes have arrived.  A line ends
  with a line feed, with the input, or when it is too long to be accepted anyway.
* `Input.effort` — whether that takes an operation: what has arrived is taken over in portions,
  and a line in a portion that was taken over takes none.
* `lineOfPiece` — the text of a line without its end, unless it is too long.
-/

namespace Reckoner

/-- How the input ends. -/
inductive InputEnd where
  /-- The client has finished sending. -/
  | eof
  /-- The connection has failed. -/
  | failure (reason : String)
  deriving DecidableEq, Repr

/-- What a client has sent and its session has not handled. -/
structure Input where
  /-- The bytes of the line that was begun. -/
  line : Bytes := []
  /-- The bytes after those, as far as they were taken over. -/
  taken : Bytes := []
  /-- The bytes after those that have arrived. -/
  unread : Bytes := []
  /-- What follows the bytes, once it is known. -/
  ending : Option InputEnd := none
  deriving DecidableEq

/-- What a session gets when it asks for a line. -/
inductive Pulled where
  /-- The bytes of a line with its end, or as many as are looked at. -/
  | piece (bytes : Bytes)
  /-- There is no other line. -/
  | eof
  /-- The connection has failed. -/
  | failure (reason : String)
  deriving DecidableEq

namespace Input

/-! ### What the network does -/

/-- More bytes arrive.  After the end of the input nothing does. -/
def arrive (i : Input) (chunk : Bytes) : Input :=
  if i.ending.isSome then i else { i with unread := i.unread ++ chunk }

/-- The input ends.  The first end counts, but a connection may still fail after the client has
    finished sending. -/
def finish (i : Input) (ending : InputEnd) : Input :=
  match i.ending, ending with
  | none, _ | some .eof, .failure _ => { i with ending := some ending }
  | some _, _ => i

/-! ### What the session does -/

/-- How many bytes are taken over at a time. -/
def portion : Nat := 8192

/-- Takes over the next portion of what has arrived. -/
def takeOver (i : Input) : Input :=
  { i with taken := i.unread.take portion, unread := i.unread.drop portion }

/-- Goes on with the line that was begun, up to a line feed or `limit` bytes in all, in the bytes
    that were taken over.  There is no result if they are too few. -/
def look (limit : Nat) (i : Input) : Input × Option Bytes :=
  let window := i.taken.take (min (limit - i.line.length) i.taken.length)
  let body := window.takeWhile (· ≠ lineFeed)
  if body.length < window.length then
    ({ i with line := [], taken := i.taken.drop (body.length + 1) },
      some (i.line ++ body ++ [lineFeed]))
  else
    let i := { i with line := i.line ++ window, taken := i.taken.drop window.length }
    if limit ≤ i.line.length then ({ i with line := [] }, some i.line) else (i, none)

/-- What follows all bytes that have arrived: at the end of the input an unfinished line is a line
    too, but not after a failure. -/
def pullEnd (i : Input) : Input × Option Pulled :=
  match i.ending with
  | none => (i, none)
  | some (.failure reason) => (i, some (.failure reason))
  | some .eof =>
    if i.line.isEmpty then (i, some .eof) else ({ i with line := [] }, some (.piece i.line))

/-- Goes on with the line that was begun; at most one portion is taken over.  There is no result
    yet if the line has not ended with it. -/
def pull (limit : Nat) (i : Input) : Input × Option Pulled :=
  match i.look limit with
  | (i, some piece) => (i, some (.piece piece))
  | (i, none) =>
    if i.unread.isEmpty then i.pullEnd
    else
      let (i, piece) := i.takeOver.look limit
      (i, piece.map Pulled.piece)

/-- How many operations it takes to go on with the line. -/
def effort (limit : Nat) (i : Input) : Nat :=
  if (i.look limit).2.isSome || (i.unread.isEmpty && i.ending.isNone) then 0 else 1

/-- There is nothing to go on with: more bytes have to arrive, or the input has to end. -/
def isExhausted (i : Input) : Bool := i.taken.isEmpty && i.unread.isEmpty && i.ending.isNone

end Input

/-! ### Lines -/

/-- The bytes without a certain byte at the end. -/
def dropLast? (b : UInt8) (bytes : Bytes) : Bytes :=
  if bytes.getLast? = some b then bytes.dropLast else bytes

/-- The bytes of a line without a line feed and a carriage return before it. -/
def stripLineEnd (piece : Bytes) : Bytes := dropLast? carriageReturn (dropLast? lineFeed piece)

/-- How many bytes of a line are looked at: those that are accepted and a line end of two bytes,
    as far as they can be counted in 64 bits. -/
def lineLimit (longest : Nat) : Nat := min (longest + 2) (Nat.pow 2 64 - 1)

/-- The text of a line; none if it has more than `longest` bytes. -/
def lineOfPiece (longest : Nat) (piece : Bytes) : Option String :=
  let body := stripLineEnd piece
  if longest < body.length then none else some (decodeLossy body)

end Reckoner
