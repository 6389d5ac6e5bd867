import Reckoner.Channel.Basic

/-!
# How a session ends
-/

namespace Reckoner

/-- What can go wrong with a connection. -/
inductive SessionError where
  /-- The input failed. -/
  | io (reason : String)
  /-- No line came in time. -/
  | timeout (limit : Span)
  /-- A line was too long. -/
  | lineTooLong (longest : Nat)
  /-- A response could not be written. -/
  | write (e : WriteError)
  /-- The registry is gone. -/
  | registryClosed
  /-- The request queue is gone. -/
  | queueClosed
  deriving DecidableEq, Repr

/-- The error in words. -/
def SessionError.message : SessionError → String
  | io reason => "I/O error: " ++ reason
  | timeout limit => "Read timed out after " ++ limit.text
  | lineTooLong longest => "Line too long (max: " ++ toString longest ++ " bytes)"
  | write e => "Write failed: " ++ e.message
  | registryClosed => "Client registry unavailable"
  | queueClosed => "Request queue unavailable"

/-- Why a session ends. -/
inductive SessionEnd where
  /-- The client has left. -/
  | left
  /-- The client went away without leaving. -/
  | peerClosed
  /-- The service shuts down. -/
  | shutdown
  /-- Something went wrong. -/
  | failed (e : SessionError)
  deriving DecidableEq, Repr

end Reckoner
