import Reckoner.Text.Utf8

/-!
# Pipes

A pipe carries bytes to one client.  It holds a bounded number of bytes that the client has not
read yet; more of them have to wait.

* `Pipe.write` — puts in as many bytes as there is room for, unless one of the ends is gone.
* `Pipe.read` — takes out the first bytes.
* `Pipe.accepted` — every byte that was ever put in, so that what a client is offered can be
  stated whether or not it has been read.
-/

namespace Reckoner

/-- Bytes on their way to a client. -/
structure Pipe where
  /-- How many bytes may be unread at a time. -/
  capacity : Nat
  /-- The bytes that are not read yet. -/
  unread : Bytes := []
  /-- Every byte that was put in. -/
  accepted : Bytes := []
  /-- The client has given up reading. -/
  deaf : Bool := false
  /-- The writing end is closed: the client sees the end after the unread bytes. -/
  closed : Bool := false
  deriving DecidableEq

namespace Pipe

/-- How many bytes can be put in. -/
def room (p : Pipe) : Nat := p.capacity - p.unread.length

/-- Nothing can be put in any more, for one of the ends is gone. -/
def isSevered (p : Pipe) : Bool := p.deaf || p.closed

/-- Puts in the first of the bytes, as many as there is room for, and gives back the others.
    There is no result if an end is gone. -/
def write (p : Pipe) (bytes : Bytes) : Option (Pipe × Bytes) :=
  if p.isSevered then none
  else
    let part := bytes.take p.room
    some ({ p with unread := p.unread ++ part, accepted := p.accepted ++ part },
      bytes.drop p.room)

/-- Takes out at most `limit` bytes. -/
def read (p : Pipe) (limit : Nat) : Pipe × Bytes :=
  if p.deaf then (p, [])
  else ({ p with unread := p.unread.drop limit }, p.unread.take limit)

/-- The client stops reading; what it has not read is lost. -/
def deafen (p : Pipe) : Pipe := { p with deaf := true, unread := [] }

/-- The writing end is closed. -/
def close (p : Pipe) : Pipe := { p with closed := true }

end Pipe

end Reckoner
