import Reckoner.EventLog.Entry
import Reckoner.Evaluation.Queue
import Reckoner.Registry.Basic
import Reckoner.Session.End
import Reckoner.Session.Input
import Reckoner.Wire.Command
import Reckoner.Wire.Response

/-!
# Sessions

A session serves one client: it reads a line, answers it or passes it on, and reads the next.  A
client first joins under a name; then it may ask for calculations, until it leaves.  However a
session ends, it gives back its name and closes its output.

* `Session` — the client's name, what it has sent, and what the session is doing.
* `Session.step` — the next thing that a session does, or nothing if it has to wait.  It sees the
  rest of the service through an `Outlook`, and asks it for an `Errand`.
* `Session.needsOperation` — whether that takes an operation, so may have to be put off.
-/

namespace Reckoner

/-! ### The state of a session -/

/-- What happens once a response is written. -/
inductive AfterReply where
  /-- The session reads on. -/
  | readOn
  /-- The session ends: the client has left. -/
  | leave
  deriving DecidableEq, Repr

/-- What a session is doing. -/
inductive SessionPhase where
  /-- It has waited for a line since the given time. -/
  | reading (since : Nat)
  /-- It is about to ask the registry for a name. -/
  | asking (name : String)
  /-- It has asked the registry for a name. -/
  | joining (name : String)
  /-- The registry has answered. -/
  | joinAnswered (name : String) (granted : Bool)
  /-- It is about to write a response. -/
  | answering (r : Response) (next : AfterReply)
  /-- It writes a response. -/
  | sending (ticket : Nat) (next : AfterReply)
  /-- It reads no more lines. -/
  | ending (e : SessionEnd)
  /-- It is about to ask the registry to take back its name. -/
  | returning (e : SessionEnd)
  /-- It has asked the registry to take back its name. -/
  | deregistering (e : SessionEnd)
  /-- The registry has answered that as well. -/
  | deregistered (e : SessionEnd)
  /-- It is about to close its output. -/
  | closing (e : SessionEnd)
  /-- It closes its output. -/
  | shutting (ticket : Nat) (e : SessionEnd)
  /-- It has ended. -/
  | finished (e : SessionEnd)
  deriving DecidableEq

/-- A client's name, and when it was given. -/
structure Joined where
  /-- The name. -/
  name : String
  /-- When the client joined, on the wall clock. -/
  since : Nat
  deriving DecidableEq, Repr

/-- The service for one client. -/
structure Session where
  /-- Where the client is. -/
  peer : String
  /-- The name, once the client has joined. -/
  joined : Option Joined := none
  /-- What the client has sent. -/
  input : Input := {}
  /-- The lines that were handled. -/
  handled : List String := []
  /-- What the session is doing. -/
  phase : SessionPhase
  deriving DecidableEq

/-! ### The surroundings of a session -/

/-- The limits for every session. -/
structure SessionLimits where
  /-- How many milliseconds a line may take to arrive. -/
  readTimeout : Nat
  /-- How many bytes a line may have. -/
  longestLine : Nat
  deriving DecidableEq

/-- What a session sees of the service. -/
structure Outlook where
  /-- The limits. -/
  limits : SessionLimits
  /-- The time in milliseconds, which the limits refer to. -/
  clock : Nat
  /-- The time on the wall clock in milliseconds, which the log tells. -/
  wall : Nat
  /-- The service shuts down. -/
  cancelled : Bool
  /-- The registry answers. -/
  registryRuns : Bool
  /-- Why a request would not be taken now. -/
  refusal? : Option QueueError

/-- What a session asks the service to do. -/
inductive Errand where
  /-- Ask the registry for a name. -/
  | register (name : String)
  /-- Ask the registry to take back a name. -/
  | deregister (name : String)
  /-- Queue up a request. -/
  | submit (client expression : String)
  deriving DecidableEq, Repr

/-- What a step of a session leads to. -/
structure SessionStep where
  /-- The session after it. -/
  session : Session
  /-- Its output channel. -/
  output : Channel
  /-- What the service is asked to do. -/
  errand : Option Errand := none
  /-- What is logged. -/
  log : List LogEntry := []
  /-- How many operations it took. -/
  effort : Nat := 0

namespace Session

/-- The session has ended. -/
def hasFinished (s : Session) : Bool :=
  match s.phase with
  | .finished _ => true
  | _ => false

/-- The name in the log for the client. -/
def label (s : Session) : String :=
  match s.joined with
  | some j => j.name
  | none => unknownLabel

/-- A log entry for something that failed. -/
def errorEntry (s : Session) (detail : String) : LogEntry := ⟨.err, s.label, detail⟩

/-! ### Handling lines -/

/-- The session goes on to something else. -/
def turnTo (s : Session) (phase : SessionPhase) (output : Channel) : SessionStep :=
  { session := { s with phase }, output }

/-- The session ends. -/
def endWith (s : Session) (e : SessionEnd) (output : Channel) : SessionStep :=
  s.turnTo (.ending e) output

/-- Is about to write a response, unless the output is broken. -/
def reply (s : Session) (r : Response) (next : AfterReply) (log : List LogEntry)
    (output : Channel) : SessionStep :=
  if output.broken then { s.endWith (.failed (.write .broken)) output with log }
  else { s.turnTo (.answering r next) output with log }

/-- Refuses a line that is malformed or out of place. -/
def refuse (s : Session) (detail : String) (output : Channel) : SessionStep :=
  s.reply .invalidFormat .readOn [s.errorEntry detail] output

/-- Passes on a request of a client who has joined. -/
def calculate (o : Outlook) (s : Session) (name expression : String) (output : Channel) :
    SessionStep :=
  match o.refusal? with
  | none =>
    { s.turnTo (.reading o.clock) output with errand := some (.submit name expression) }
  | some .closed => s.endWith (.failed .queueClosed) output
  | some (.full capacity) =>
    s.reply .busy .readOn [s.errorEntry (QueueError.message (.full capacity))] output

/-- Handles a command.  What a client who has joined asks for is done in the name that it joined
    under, whatever name the line gives. -/
def handleCommand (o : Outlook) (s : Session) (command : Command) (output : Channel) :
    SessionStep :=
  match command, s.joined with
  | .malformed reason, _ => s.refuse reason.message output
  | .join name, none => s.turnTo (.asking name) output
  | command, none => s.refuse (command.keyword?.getD "" ++ " before JOIN") output
  | .join _, some _ => s.refuse "Already joined" output
  | .calculate _ expression, some j => s.calculate o j.name expression output
  | .leave _, some j => s.reply (.goodbye j.name) .leave [] output

/-- Handles a line. -/
def handleLine (o : Outlook) (s : Session) (line : String) (output : Channel) : SessionStep :=
  { s with handled := s.handled ++ [line] }.handleCommand o (Command.ofLine line) output

/-- Handles what was read. -/
def handlePulled (o : Outlook) (s : Session) (output : Channel) : Pulled → SessionStep
  | .eof => s.endWith .peerClosed output
  | .failure reason => s.endWith (.failed (.io reason)) output
  | .piece bytes =>
    match lineOfPiece o.limits.longestLine bytes with
    | none => s.endWith (.failed (.lineTooLong o.limits.longestLine)) output
    | some line => s.handleLine o line output

/-- Waits for a line.  That the service shuts down or the output is broken counts before any
    line, and a line before the time is up. -/
def read (o : Outlook) (s : Session) (since : Nat) (output : Channel) : Option SessionStep :=
  if o.cancelled then some (s.endWith .shutdown output)
  else if output.broken then some (s.endWith (.failed (.write .broken)) output)
  else if s.input.isExhausted then
    if since + o.limits.readTimeout ≤ o.clock then
      some { s.endWith (.failed (.timeout (.ofMillis o.limits.readTimeout))) output with
        effort := 1 }
    else none
  else
    let limit := lineLimit o.limits.longestLine
    let effort := s.input.effort limit
    match s.input.pull limit with
    | (input, some pulled) => some { { s with input }.handlePulled o output pulled with effort }
    | (input, none) => some { session := { s with input }, output, effort }

/-! ### After the lines -/

/-- Asks the registry for a name. -/
def askToJoin (o : Outlook) (s : Session) (name : String) (output : Channel) : SessionStep :=
  if o.registryRuns then
    { s.turnTo (.joining name) output with errand := some (.register name), effort := 1 }
  else { s.endWith (.failed .registryClosed) output with effort := 1 }

/-- The registry has answered the wish for a name. -/
def answerJoin (o : Outlook) (s : Session) (name : String) (granted : Bool) (output : Channel) :
    SessionStep :=
  let next :=
    if granted then
      { s with joined := some ⟨name, o.wall⟩ }.reply (.welcome name) .readOn
        [⟨.connect, name, "Connected from " ++ s.peer⟩] output
    else
      s.reply .nameTaken .readOn
        [⟨.err, unknownLabel, "Client name already in use: " ++ name⟩] output
  { next with effort := 1 }

/-- Starts a response. -/
def startReply (s : Session) (r : Response) (next : AfterReply) (output : Channel) : SessionStep :=
  let (output, ticket) := output.startLine r.line
  s.turnTo (.sending ticket next) output

/-- Carries on with a response. -/
def send (o : Outlook) (s : Session) (ticket : Nat) (next : AfterReply) (output : Channel) :
    SessionStep :=
  let job := output.poll o.clock ticket
  let after : SessionStep := match job.progress, next with
    | none, _ => { session := s, output := job.channel }
    | some (.error e), _ => s.endWith (.failed (.write e)) job.channel
    | some (.ok ()), .readOn => s.turnTo (.reading o.clock) job.channel
    | some (.ok ()), .leave => s.endWith .left job.channel
  { after with effort := job.effort }

/-! ### The end -/

/-- What is logged of the end itself. -/
def endEntries (s : Session) : SessionEnd → List LogEntry
  | .failed e => [s.errorEntry e.message]
  | _ => []

/-- Is about to close the output.  If it is broken, there is nothing to close. -/
def close (s : Session) (e : SessionEnd) (output : Channel) : SessionStep :=
  s.turnTo (if output.broken then .finished e else .closing e) output

/-- Begins to clean up: a failure is logged, and a name is to be given back. -/
def cleanUp (s : Session) (e : SessionEnd) (output : Channel) : SessionStep :=
  let next := if s.joined.isSome then s.turnTo (.returning e) output else s.close e output
  { next with log := s.endEntries e }

/-- Logs that a client is gone. -/
def signOff (o : Outlook) (s : Session) (e : SessionEnd) (output : Channel) : SessionStep :=
  let log := match s.joined with
    | none => []
    | some j =>
      let seconds := toString ((o.wall - j.since) / 1000)
      [⟨.disconnect, j.name, "Client disconnected after " ++ seconds ++ " seconds"⟩]
  { s.close e output with log, effort := 1 }

/-- Gives back the name, if the registry is there. -/
def giveBack (o : Outlook) (s : Session) (e : SessionEnd) (output : Channel) : SessionStep :=
  match s.joined with
  | some j =>
    if o.registryRuns then
      { s.turnTo (.deregistering e) output with
        errand := some (.deregister j.name), effort := 1 }
    else s.signOff o e output
  | none => s.signOff o e output

/-- Starts to close the output. -/
def startClose (s : Session) (e : SessionEnd) (output : Channel) : SessionStep :=
  let (output, ticket) := output.startClose
  s.turnTo (.shutting ticket e) output

/-- Carries on with closing the output. -/
def shut (o : Outlook) (s : Session) (ticket : Nat) (e : SessionEnd) (output : Channel) :
    SessionStep :=
  let job := output.poll o.clock ticket
  let phase := if job.progress.isSome then .finished e else s.phase
  { s.turnTo phase job.channel with effort := job.effort }

/-! ### Steps -/

/-- The next thing that the session does; nothing if it has to wait or has ended. -/
def step (o : Outlook) (s : Session) (output : Channel) : Option SessionStep :=
  match s.phase with
  | .reading since => s.read o since output
  | .asking name => some (s.askToJoin o name output)
  | .joining _ =>
    if o.registryRuns then none
    else some { s.endWith (.failed .registryClosed) output with effort := 1 }
  | .joinAnswered name granted => some (s.answerJoin o name granted output)
  | .answering r next => some (s.startReply r next output)
  | .sending ticket next =>
    if output.isReady o.clock ticket then some (s.send o ticket next output) else none
  | .ending e => some (s.cleanUp e output)
  | .returning e => some (s.giveBack o e output)
  | .deregistering e => if o.registryRuns then none else some (s.signOff o e output)
  | .deregistered e => some (s.signOff o e output)
  | .closing e => some (s.startClose e output)
  | .shutting ticket e =>
    if output.isReady o.clock ticket then some (s.shut o ticket e output) else none
  | .finished _ => none

/-- What the session does next takes an operation, or has to wait, or begins with the question
    whether it may do any. -/
def needsOperation (s : Session) : Bool :=
  match s.phase with
  | .ending _ | .finished _ => false
  | _ => true

/-- The registry answers. -/
def hear (s : Session) (reply : RegistryReply) : Session :=
  match s.phase, reply with
  | .joining name, .registered (.ok ()) => { s with phase := .joinAnswered name true }
  | .joining name, .registered (.error _) => { s with phase := .joinAnswered name false }
  | .deregistering e, .deregistered _ => { s with phase := .deregistered e }
  | _, _ => s

/-- When the session has waited too long for a line. -/
def deadline? (limits : SessionLimits) (s : Session) : Option Nat :=
  match s.phase with
  | .reading since => some (since + limits.readTimeout)
  | _ => none

end Session

end Reckoner
