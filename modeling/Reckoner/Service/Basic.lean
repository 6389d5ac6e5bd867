import Reckoner.Evaluation.Worker
import Reckoner.Session.Basic
import Reckoner.Session.Refusal

/-!
# The service

A `Service` is the state of everything that runs at a time: the connections with their sessions,
the registry, the queue and its worker, the clock, and what was logged.

* `Service.stepHandler`, `Service.stepRegistry`, `Service.stepWorker` — one step of one of the
  tasks, and how many operations it took; no result if the task has to wait.
* `Service.holdsOutput` — whether the output of a connection can still be written to.
* `Service.deadline?` — the next moment at which a wait ends.
-/

namespace Reckoner

/-! ### The parts -/

/-- Who looks after a connection. -/
inductive Handler where
  /-- A session. -/
  | session (s : Session)
  /-- Nobody but to refuse it. -/
  | refusal (r : Refusal)
  /-- Somebody outside the service, who may write to its output. -/
  | outside
  /-- Nobody any more. -/
  | released
  deriving DecidableEq

namespace Handler

/-- The session of a connection. -/
def session? : Handler → Option Session
  | session s => some s
  | _ => none

/-- The connection is looked after no more. -/
def hasFinished : Handler → Bool
  | session s => s.hasFinished
  | refusal r => r = .finished
  | outside => false
  | released => true

/-- The handler may send requests. -/
def mayRequest : Handler → Bool
  | session s => !s.hasFinished
  | _ => false

/-- What the handler does next takes an operation, or has to wait. -/
def needsOperation : Handler → Bool
  | session s => s.needsOperation
  | refusal r => r.needsOperation
  | outside | released => false

end Handler

/-- A connection with a client. -/
structure Connection where
  /-- Its number, counted from one. -/
  id : Nat
  /-- Where responses go. -/
  output : Channel
  /-- Who looks after it. -/
  handler : Handler
  deriving DecidableEq

/-- Who has written a log entry. -/
inductive LogSource where
  /-- The worker. -/
  | worker
  /-- The handler of a connection. -/
  | connection (i : Nat)
  /-- The service itself. -/
  | service
  deriving DecidableEq, Repr

/-- The registry and the commands that it has not carried out. -/
structure RegistryTask where
  /-- Who owns which name. -/
  table : Registry := {}
  /-- The commands with the connections they come from, the oldest first. -/
  mailbox : List (Nat × RegistryCommand) := []
  /-- It carries out commands. -/
  runs : Bool := true
  deriving DecidableEq

/-- The state of everything. -/
structure Service where
  /-- The limits for every session. -/
  limits : SessionLimits
  /-- The time in milliseconds, which limits refer to. -/
  clock : Nat := 0
  /-- The time on the wall clock in milliseconds, which the log tells. -/
  wall : Nat := 0
  /-- The service shuts down. -/
  cancelled : Bool := false
  /-- All connections there ever were. -/
  connections : List Connection := []
  /-- The registry. -/
  registry : RegistryTask := {}
  /-- The requests that wait. -/
  queue : RequestQueue
  /-- Requests may come from outside the sessions, or from sessions yet to come. -/
  queueHeld : Bool := true
  /-- The worker. -/
  worker : Worker := {}
  /-- Everything logged so far. -/
  log : List (LogSource × LogEntry) := []
  deriving DecidableEq

namespace Service

/-! ### Parts by number -/

/-- A service that has just been started. -/
def start (limits : SessionLimits) (queueCapacity : Nat) : Service :=
  { limits, queue := { capacity := queueCapacity } }

/-- The output of a connection. -/
def output? (s : Service) (i : Nat) : Option Channel := s.connections[i]?.map Connection.output

/-- The session of a connection. -/
def session? (s : Service) (i : Nat) : Option Session :=
  s.connections[i]?.bind fun c => c.handler.session?

/-- Changes a connection. -/
def modifyConnection (s : Service) (i : Nat) (f : Connection → Connection) : Service :=
  { s with connections := s.connections.modify i f }

/-- Changes the output of a connection. -/
def modifyOutput (s : Service) (i : Nat) (f : Channel → Channel) : Service :=
  s.modifyConnection i fun c => { c with output := f c.output }

/-- Changes the session of a connection. -/
def modifySession (s : Service) (i : Nat) (f : Session → Session) : Service :=
  s.modifyConnection i fun c =>
    match c.handler with
    | .session session => { c with handler := .session (f session) }
    | _ => c

/-- Adds entries to the log. -/
def record (s : Service) (source : LogSource) (entries : List LogEntry) : Service :=
  { s with log := s.log ++ entries.map fun e => (source, e) }

/-- Adds a connection. -/
def addConnection (s : Service) (output : Channel) (handler : Handler) : Service :=
  { s with connections := s.connections ++ [⟨s.connections.length + 1, output, handler⟩] }

/-! ### Handlers -/

/-- What a session sees. -/
def outlook (s : Service) : Outlook :=
  { limits := s.limits, clock := s.clock, wall := s.wall, cancelled := s.cancelled,
    registryRuns := s.registry.runs, refusal? := s.queue.refusal? }

/-- Puts a command into the mailbox of the registry. -/
def post (s : Service) (i : Nat) (command : RegistryCommand) : Service :=
  { s with registry := { s.registry with mailbox := s.registry.mailbox ++ [(i, command)] } }

/-- Does what the session of a connection asks for. -/
def run (s : Service) (i id : Nat) : Errand → Service
  | .register name => s.post i (.register name ⟨id, i⟩)
  | .deregister name => s.post i (.deregister name id)
  | .submit client expression => { s with queue := s.queue.push ⟨client, expression, i⟩ }

/-- One step of the handler of a connection. -/
def stepHandler (s : Service) (i : Nat) : Option (Service × Nat) := do
  let c ← s.connections[i]?
  match c.handler with
  | .session session =>
    let next ← session.step s.outlook c.output
    let s := s.modifyConnection i fun c =>
      { c with output := next.output, handler := .session next.session }
    let s := s.record (.connection i) next.log
    match next.errand with
    | some errand => return (s.run i c.id errand, next.effort)
    | none => return (s, next.effort)
  | .refusal r =>
    let next ← r.step s.clock c.output
    let s := s.modifyConnection i fun c =>
      { c with output := next.output, handler := .refusal next.refusal }
    return (s, next.effort)
  | .outside | .released => none

/-! ### The registry -/

/-- The registry carries out one command. -/
def stepRegistry (s : Service) : Option (Service × Nat) :=
  match s.registry.mailbox with
  | [] => none
  | (i, command) :: mailbox =>
    let (table, reply) := s.registry.table.handle command
    let s := { s with registry := { s.registry with table, mailbox } }
    some (s.modifySession i fun session => session.hear reply, 1)

/-! ### The worker -/

/-- A request may still come. -/
def mayRequest (s : Service) : Bool :=
  s.queueHeld || s.connections.any fun c => c.handler.mayRequest

/-- Puts in what a step of the worker leads to. -/
def afterWorker (s : Service) (i : Nat) (next : WorkerStep) : Service × Nat :=
  let s := s.modifyOutput i fun _ => next.output
  ({ s with worker := next.worker }.record .worker next.log, next.effort)

/-- The worker takes up the next request, or ends if no more can come. -/
def takeRequest (s : Service) : Option (Service × Nat) :=
  match s.queue.next? with
  | some (request, queue) =>
    (s.output? request.connection).map fun output =>
      { s with queue }.afterWorker request.connection (s.worker.take request output)
  | none =>
    if s.mayRequest then none
    else some ({ s with worker := { s.worker with phase := .stopped }, queue := s.queue.close }, 1)

/-- One step of the worker. -/
def stepWorker (s : Service) : Option (Service × Nat) :=
  match s.worker.phase with
  | .idle => s.takeRequest
  | .answering request outcome =>
    (s.output? request.connection).map fun output =>
      s.afterWorker request.connection (s.worker.startReply request outcome output)
  | .replying request outcome ticket => do
    let output ← s.output? request.connection
    if output.isReady s.clock ticket then
      return s.afterWorker request.connection
        (s.worker.proceed s.clock request outcome ticket output)
    else none
  | .stopped | .killed => none

/-- The worker is ended by force.  Requests that wait are lost, and the reply it was writing stops
    where it is. -/
def killWorker (s : Service) : Service :=
  if s.worker.hasEnded then s
  else
    let s := match s.worker.phase with
      | .replying request _ ticket => s.modifyOutput request.connection (·.abandon ticket)
      | _ => s
    { s with worker := { s.worker with phase := .killed }, queue := s.queue.close }

/-- The registry is ended by force; its names are lost. -/
def killRegistry (s : Service) : Service :=
  { s with registry :=
      { table := { s.registry.table with owners := [] }, mailbox := [], runs := false } }

/-! ### Views -/

/-- The connection that the worker writes a reply to. -/
def replyingTo? (s : Service) : Option Nat := s.worker.request?.map Request.connection

/-- The output of a connection can still be written to: by its handler, or by the worker, now or
    for a request that waits.  (A registered name belongs to a session that has not ended.) -/
def holdsOutput (s : Service) (i : Nat) : Bool :=
  (match s.connections[i]? with
    | some c => !c.handler.hasFinished
    | none => false) ||
  s.replyingTo? = some i || s.queue.waiting.any fun r => r.connection = i

/-- The client of a connection sees the end of the output after what is unread. -/
def outputEnds (s : Service) (i : Nat) : Bool :=
  match s.output? i with
  | some c => c.pipe.closed || !s.holdsOutput i
  | none => true

/-- The names that clients have joined under. -/
def names (s : Service) : List String := s.registry.table.names

/-- The earlier of two moments. -/
def earlier : Option Nat → Option Nat → Option Nat
  | some a, some b => some (min a b)
  | some a, none => some a
  | none, b => b

/-- The next moment at which the wait of some task ends. -/
def deadline? (s : Service) : Option Nat :=
  s.connections.foldl (fun d c =>
    let d := earlier d c.output.deadline?
    match c.handler with
    | .session session => earlier d (session.deadline? s.limits)
    | _ => d) none

end Service

end Reckoner
