import Reckoner.Channel.Basic
import Reckoner.Wire.Response

/-!
# Refused connections

A connection for which there is no room gets no session.  It is told that the service is busy,
and its output is closed.
-/

namespace Reckoner

/-- What is being done about a refused connection. -/
inductive Refusal where
  /-- Nothing yet. -/
  | fresh
  /-- The client is told. -/
  | telling (ticket : Nat)
  /-- The output is about to be closed. -/
  | told
  /-- The output is closed. -/
  | shutting (ticket : Nat)
  /-- Nothing more. -/
  | finished
  deriving DecidableEq, Repr

/-- What a step of refusing leads to. -/
structure RefusalStep where
  /-- What is being done after it. -/
  refusal : Refusal
  /-- The output channel. -/
  output : Channel
  /-- How many operations it took. -/
  effort : Nat := 0

namespace Refusal

/-- What is done once the client was told, as far as it could be. -/
def afterTelling (output : Channel) : Refusal := if output.broken then .finished else .told

/-- Tells the client. -/
def tell (output : Channel) : RefusalStep :=
  if output.broken then { refusal := .finished, output }
  else
    let (output, ticket) := output.startLine Response.busy.line
    { refusal := .telling ticket, output }

/-- Starts to close the output. -/
def close (output : Channel) : RefusalStep :=
  let (output, ticket) := output.startClose
  { refusal := .shutting ticket, output }

/-- Carries on with a job; a result of any kind leads on. -/
def carryOn (clock ticket : Nat) (now : Refusal) (next : Channel → Refusal) (output : Channel) :
    Option RefusalStep :=
  if output.isReady clock ticket then
    let job := output.poll clock ticket
    let refusal := if job.progress.isSome then next job.channel else now
    some { refusal, output := job.channel, effort := job.effort }
  else none

/-- The next thing that is done; nothing if it has to wait or is done. -/
def step (clock : Nat) (r : Refusal) (output : Channel) : Option RefusalStep :=
  match r with
  | .fresh => some (tell output)
  | .telling ticket => carryOn clock ticket r afterTelling output
  | .told => some (close output)
  | .shutting ticket => carryOn clock ticket r (fun _ => .finished) output
  | .finished => none

/-- What is done next takes an operation, or has to wait. -/
def needsOperation (r : Refusal) : Bool := r ≠ .finished

end Refusal

end Reckoner
