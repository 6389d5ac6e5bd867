import Reckoner.Service.Basic

/-!
# What can happen

Everything that can happen to a service is a `Move`: a step of one of its tasks, something that a
client does, the passing of time, or an order from outside.  Moves may come in any order, and a
move that is not possible changes nothing.  So what holds after every list of moves holds however
the tasks are scheduled.

* `Service.apply` — what a move does.
* `Service.Reachable` — the states that moves lead to.
-/

namespace Reckoner

/-- Something that can happen to a service. -/
inductive Move where
  /-- The handler of a connection takes a step. -/
  | handler (i : Nat)
  /-- The registry takes a step. -/
  | registry
  /-- The worker takes a step. -/
  | worker
  /-- A client connects and gets a session. -/
  | connect (peer : String) (capacity timeout : Nat)
  /-- A client connects and is refused. -/
  | refuse (capacity timeout : Nat)
  /-- Somebody outside the service gets an output to write to. -/
  | attach (capacity timeout : Nat)
  /-- Somebody outside gives up an output. -/
  | detach (i : Nat)
  /-- A request comes from outside the sessions. -/
  | submit (request : Request)
  /-- Bytes arrive from a client. -/
  | arrive (i : Nat) (chunk : Bytes)
  /-- The input from a client ends. -/
  | finish (i : Nat) (ending : InputEnd)
  /-- A client reads. -/
  | read (i limit : Nat)
  /-- A client stops reading. -/
  | deafen (i : Nat)
  /-- So many milliseconds go by. -/
  | wait (milliseconds : Nat)
  /-- So many milliseconds go by on the wall clock. -/
  | age (milliseconds : Nat)
  /-- The service has to shut down. -/
  | cancel
  /-- No more requests come from outside, nor sessions. -/
  | release
  /-- The worker is ended by force. -/
  | killWorker
  /-- The registry is ended by force. -/
  | killRegistry

namespace Service

/-- A client connects and gets a session. -/
def connect (s : Service) (peer : String) (output : Channel) : Service :=
  s.addConnection output (.session { peer, phase := .reading s.clock })

/-- Somebody outside gives up an output. -/
def detach (s : Service) (i : Nat) : Service :=
  s.modifyConnection i fun c =>
    match c.handler with
    | .outside => { c with handler := .released }
    | _ => c

/-- Puts a request into the queue, if there is room. -/
def submit (s : Service) (request : Request) : Except QueueError Service :=
  (s.queue.submit request).map fun queue => { s with queue }

/-- A request can come from outside: the connection that it names is there, and the queue is not
    given up. -/
def takesRequest (s : Service) (request : Request) : Bool :=
  s.queueHeld && request.connection < s.connections.length

/-- Changes the input of a session. -/
def modifyInput (s : Service) (i : Nat) (f : Input → Input) : Service :=
  s.modifySession i fun session => { session with input := f session.input }

/-- Changes the pipe of a connection. -/
def modifyPipe (s : Service) (i : Nat) (f : Pipe → Pipe) : Service :=
  s.modifyOutput i fun c => { c with pipe := f c.pipe }

/-- What a move does. -/
def apply (s : Service) : Move → Service
  | .handler i => ((s.stepHandler i).map Prod.fst).getD s
  | .registry => (s.stepRegistry.map Prod.fst).getD s
  | .worker => (s.stepWorker.map Prod.fst).getD s
  | .connect peer capacity timeout =>
    if s.queueHeld then s.connect peer (.create capacity timeout) else s
  | .refuse capacity timeout => s.addConnection (.create capacity timeout) (.refusal .fresh)
  | .attach capacity timeout => s.addConnection (.create capacity timeout) .outside
  | .detach i => s.detach i
  | .submit request =>
    if s.takesRequest request then
      match s.submit request with
      | .ok s => s
      | .error _ => s
    else s
  | .arrive i chunk => s.modifyInput i (·.arrive chunk)
  | .finish i ending => s.modifyInput i (·.finish ending)
  | .read i limit => s.modifyPipe i fun p => (p.read limit).1
  | .deafen i => s.modifyPipe i Pipe.deafen
  | .wait milliseconds => { s with clock := s.clock + milliseconds }
  | .age milliseconds => { s with wall := s.wall + milliseconds }
  | .cancel => { s with cancelled := true }
  | .release => { s with queueHeld := false }
  | .killWorker => s.killWorker
  | .killRegistry => s.killRegistry

/-- What moves do, one after the other. -/
def applyAll (s : Service) (moves : List Move) : Service := moves.foldl apply s

/-- The states that a service can get into. -/
inductive Reachable (limits : SessionLimits) (queueCapacity : Nat) : Service → Prop where
  /-- The state at the start. -/
  | start : Reachable limits queueCapacity (.start limits queueCapacity)
  /-- The state after a move. -/
  | move {s : Service} (m : Move) :
      Reachable limits queueCapacity s → Reachable limits queueCapacity (s.apply m)

end Service

end Reckoner
