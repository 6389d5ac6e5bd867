import Reckoner.Expr.Eval
import Reckoner.EventLog.Entry
import Reckoner.Channel.Basic
import Reckoner.Wire.Response

/-!
# Requests and their queue

Every calculation that a client asks for becomes a `Request`.  All sessions put their requests
into one `RequestQueue`, which keeps them in order and holds a bounded number of them.

* `RequestQueue.submit` — puts a request behind the others, unless there is no room.
* `RequestQueue.next?` — takes out the first.
* `Request.outcome`, `Completion` — what becomes of a request.
-/

namespace Reckoner

/-- A calculation that a client asks for. -/
structure Request where
  /-- The name that the client has joined under. -/
  client : String
  /-- What to evaluate. -/
  expression : String
  /-- The connection that the reply goes to. -/
  connection : Nat
  deriving DecidableEq, Repr

/-- The value of an expression as it is answered, or why there is none. -/
abbrev Outcome := Except EvalError String

instance : DecidableEq Outcome := fun
  | .ok a, .ok b => if h : a = b then isTrue (h ▸ rfl) else isFalse fun e => h (Except.ok.inj e)
  | .error a, .error b =>
    if h : a = b then isTrue (h ▸ rfl) else isFalse fun e => h (Except.error.inj e)
  | .ok _, .error _ => isFalse nofun
  | .error _, .ok _ => isFalse nofun

/-- What became of a request. -/
structure Completion where
  /-- How many requests were taken up before it. -/
  position : Nat
  /-- The request. -/
  request : Request
  /-- What came out. -/
  outcome : Outcome
  /-- The reply went out in full. -/
  delivered : Bool
  deriving DecidableEq

namespace Request

/-- The outcome of a request. -/
def outcome (r : Request) : Outcome := (evaluate r.expression).map Binary64.result

/-- The reply to a request, given its outcome. -/
def reply (r : Request) : Outcome → Response
  | .ok value => .result r.client value
  | .error _ => .error EvalError.clientMessage

/-- The log entry for a request that is taken up. -/
def receivedEntry (r : Request) : LogEntry :=
  ⟨.calcRequest, r.client, "Expression received: " ++ r.expression⟩

/-- The log entry for a request that was evaluated. -/
def evaluatedEntry (r : Request) : Outcome → LogEntry
  | .ok value => ⟨.calcResponse, r.client, r.expression ++ " = " ++ value⟩
  | .error e =>
    ⟨.err, r.client, "Error evaluating expression '" ++ r.expression ++ "': " ++ e.message⟩

/-- The log entry for a reply that did not go out. -/
def undeliveredEntry (r : Request) (e : WriteError) : LogEntry :=
  ⟨.err, r.client, "Failed to deliver reply: " ++ e.message⟩

end Request

/-! ### The queue -/

/-- The largest number of places that can be kept count of. -/
def mostPlaces : Nat := Nat.pow 2 61 - 1

/-- What is said about more places than that. -/
def tooManyPlacesText : String :=
  "a semaphore may not have more than MAX_PERMITS permits (" ++ toString mostPlaces ++ ")"

/-- Why a request is not taken. -/
inductive QueueError where
  /-- There is no room. -/
  | full (capacity : Nat)
  /-- Nothing takes requests out any more. -/
  | closed
  deriving DecidableEq, Repr

/-- The error in words. -/
def QueueError.message : QueueError → String
  | full capacity => "Request queue full (capacity: " ++ toString capacity ++ ")"
  | closed => "Request queue closed"

/-- The requests that wait for their turn. -/
structure RequestQueue where
  /-- How many may wait; a queue has room for one in any case. -/
  capacity : Nat
  /-- The requests that wait, the oldest first. -/
  waiting : List Request := []
  /-- Every request that was ever taken in. -/
  accepted : List Request := []
  /-- Nothing takes requests out any more. -/
  closed : Bool := false
  deriving DecidableEq

namespace RequestQueue

/-- How many requests may wait. -/
def slots (q : RequestQueue) : Nat := max q.capacity 1

/-- Why a request would not be taken now. -/
def refusal? (q : RequestQueue) : Option QueueError :=
  if q.closed then some .closed
  else if q.slots ≤ q.waiting.length then some (.full q.capacity)
  else none

/-- Puts a request behind the others. -/
def push (q : RequestQueue) (r : Request) : RequestQueue :=
  { q with waiting := q.waiting ++ [r], accepted := q.accepted ++ [r] }

/-- Puts a request behind the others, if there is room. -/
def submit (q : RequestQueue) (r : Request) : Except QueueError RequestQueue :=
  match q.refusal? with
  | some e => .error e
  | none => .ok (q.push r)

/-- The oldest request, and the queue without it. -/
def next? (q : RequestQueue) : Option (Request × RequestQueue) :=
  match q.waiting with
  | [] => none
  | r :: waiting => some (r, { q with waiting })

/-- Nothing takes requests out any more; those that wait are lost. -/
def close (q : RequestQueue) : RequestQueue := { q with waiting := [], closed := true }

end RequestQueue

end Reckoner
