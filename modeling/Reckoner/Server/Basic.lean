import Reckoner.Service.Move
import Reckoner.Service.Task
import Reckoner.Settings.Basic

/-!
# The server

A server listens on an address.  It gives a session to every client who connects while there is
room, and refuses the others.

* `Server.start` — listens, if the settings and the host allow it.
* `Server.Move`, `Server.apply` — what can happen: a client connects, the server goes on with its
  own shutdown, or something happens to the `Service` behind it.
* `Server.processed?` — the result of a shutdown that is complete: how many requests were answered.

Once the service has to shut down, the server takes no connections.  It waits for every handler to
finish, lets the queue go, and waits for the worker to answer what is left.
-/

namespace Reckoner

/-! ### Errors -/

/-- Why an address cannot be listened on. -/
inductive ListenError where
  /-- Somebody else listens there. -/
  | inUse
  /-- The address is not one of this host. -/
  | notLocal
  /-- Nobody can listen on an address of this kind. -/
  | unsuitable
  deriving DecidableEq, Repr

/-- The error in words, with its number. -/
def ListenError.message : ListenError → String
  | inUse => "Address already in use (os error 98)"
  | notLocal => "Cannot assign requested address (os error 99)"
  | unsuitable => "Invalid argument (os error 22)"

/-- Why a server does not run. -/
inductive ServerError where
  /-- The settings are not usable. -/
  | settings (e : SettingsError)
  /-- The address cannot be listened on. -/
  | listen (address : SocketAddress) (reason : String)
  /-- The address that is listened on cannot be told. -/
  | localAddress (reason : String)
  /-- The worker has failed. -/
  | worker (reason : String)
  /-- The settings ask for more places than can be kept count of. -/
  | tooManyPlaces
  deriving DecidableEq

/-- A failure to listen in words. -/
def listenFailure (address : SocketAddress) (reason : String) : String :=
  "Failed to bind " ++ address.text ++ ": " ++ reason

/-- The error in words. -/
def ServerError.message : ServerError → String
  | settings e => "Invalid configuration: " ++ e.message
  | listen address reason => listenFailure address reason
  | localAddress reason => "Failed to read local address: " ++ reason
  | worker reason => "Evaluation worker failed: " ++ reason
  | tooManyPlaces => tooManyPlacesText

/-- Why a client cannot connect. -/
inductive ConnectError where
  /-- The host has no network. -/
  | networkUnreachable
  /-- The host has no address that the client could connect from. -/
  | noAddress
  deriving DecidableEq, Repr

/-- The error as reports show it. -/
def ConnectError.debugText : ConnectError → String
  | networkUnreachable =>
    "Os \x7b code: 101, kind: NetworkUnreachable, message: \"Network is unreachable\" \x7d"
  | noAddress =>
    "Os \x7b code: 99, kind: AddrNotAvailable, " ++
      "message: \"Cannot assign requested address\" \x7d"

/-! ### The host -/

/-- A host: who listens on it, and whether it has a network. -/
structure Host where
  /-- Clients can connect. -/
  hasNetwork : Bool := false
  /-- The addresses that are listened on. -/
  taken : List SocketAddress := []
  /-- A free port, for whoever does not care. -/
  free : UInt16
  deriving DecidableEq

namespace Host

/-- Why the host lets nobody listen on an address, whatever the port.  Without a network it does
    not know its own addresses: it takes four octets as they are, and of eight groups only the
    unspecified ones. -/
def refusal? (h : Host) (ip : IpAddress) : Option ListenError :=
  match ip.unmapped with
  | .v4 a b c d =>
    let ip := IpAddress.v4 a b c d
    if !h.hasNetwork || ip.isUnspecified || ip.isLoopback || ip.isMulticast || ip.isBroadcast
    then none
    else some .notLocal
  | .v6 groups =>
    let ip := IpAddress.v6 groups
    if ip.isMulticast || ip.isLinkLocal then some .unsuitable
    else if ip.isUnspecified || (h.hasNetwork && ip.isLoopback) then none
    else some .notLocal

/-- Somebody else listens on an address. -/
def isTaken (h : Host) (address : SocketAddress) : Bool :=
  h.taken.any fun other => other.port = address.port && other.ip.overlaps address.ip

/-- Listens on an address; the result is the port. -/
def listen (h : Host) (address : SocketAddress) : Except ListenError UInt16 :=
  match h.refusal? address.ip with
  | some e => .error e
  | none =>
    if address.port = 0 then .ok h.free
    else if h.isTaken address then .error .inUse
    else .ok address.port

/-- A client on the host connects to an address that is listened on. -/
def connect (h : Host) (ip : IpAddress) : Except ConnectError Unit :=
  if h.hasNetwork then .ok ()
  else match ip.unmapped with
    | .v4 .. => .error .networkUnreachable
    | .v6 _ => .error .noAddress

end Host

/-! ### The server -/

/-- How far a server has got. -/
inductive Stage where
  /-- It takes connections. -/
  | accepting
  /-- It waits for the handlers. -/
  | draining
  /-- It waits for the worker. -/
  | released
  deriving DecidableEq, Repr

/-- A server and the service behind it. -/
structure Server where
  /-- How many sessions there may be at a time. -/
  maxSessions : Nat
  /-- How many milliseconds the writing of a response may take. -/
  writeTimeout : Nat
  /-- The service. -/
  service : Service
  /-- How far the server has got. -/
  stage : Stage := .accepting
  deriving DecidableEq

namespace Server

/-- The log entry for a server that listens. -/
def startEntry (port : UInt16) : LogEntry :=
  ⟨.connect, serverLabel, "Server started on port " ++ toString port.toNat⟩

/-- The log entry for a server that shuts down. -/
def stopEntry : LogEntry := ⟨.connect, serverLabel, "Server shutting down..."⟩

/-- The log entry for a connection that is refused. -/
def refusalEntry (peer : String) (maxSessions : Nat) : LogEntry :=
  ⟨.err, unknownLabel, "Server busy, rejected connection from " ++ peer ++ " (max sessions: " ++
    toString maxSessions ++ ")"⟩

/-- The log entry for an address that cannot be listened on. -/
def failureEntry (address : SocketAddress) (reason : String) : LogEntry :=
  ⟨.err, serverLabel, listenFailure address reason⟩

/-- A server that listens on a port. -/
def create (settings : Settings) (port : UInt16) : Server :=
  { maxSessions := settings.maxSessions, writeTimeout := settings.writeTimeoutSecs * 1000,
    service :=
      (Service.start ⟨settings.readTimeoutSecs * 1000, settings.maxLineLength⟩
        settings.queueCapacity).record .service [startEntry port] }

/-- A server that listens on a port, unless it cannot keep count of the requests that may wait or
    of the sessions.  What is logged is given too: the first is found out before the start is. -/
def begin (settings : Settings) (port : UInt16) : Except ServerError Server × List LogEntry :=
  if mostPlaces < settings.queueCapacity then (.error .tooManyPlaces, [])
  else if mostPlaces < settings.maxSessions then (.error .tooManyPlaces, [startEntry port])
  else (.ok (create settings port), [startEntry port])

/-- Listens with the given settings.  What is logged is given too, whether or not the server
    runs. -/
def start (host : Host) (settings : Settings) : Except ServerError Server × List LogEntry :=
  match settings.check >>= fun _ => settings.socketAddress with
  | .error e => (.error (.settings e), [])
  | .ok address =>
    match host.listen address with
    | .error e => (.error (.listen address e.message), [failureEntry address e.message])
    | .ok port => begin settings port

/-! ### What can happen -/

/-- How many sessions have not ended. -/
def active (s : Server) : Nat := s.service.connections.countP fun c => c.handler.mayRequest

/-- A client connects.  The first free place is its own; without one it is refused. -/
def accept (s : Server) (peer : String) (capacity : Nat) : Server :=
  if s.active < s.maxSessions then
    { s with service := s.service.connect peer (.create capacity s.writeTimeout) }
  else
    let service := s.service.addConnection (.create capacity s.writeTimeout) (.refusal .fresh)
    { s with service := service.record .service [refusalEntry peer s.maxSessions] }

/-- All handlers are done. -/
def isDrained (s : Server) : Bool := s.service.connections.all fun c => c.handler.hasFinished

/-- The server goes on with its shutdown. -/
def proceed (s : Server) : Server :=
  match s.stage with
  | .accepting =>
    if s.service.cancelled then
      { s with stage := .draining, service := s.service.record .service [stopEntry] }
    else s
  | .draining =>
    if s.isDrained then { s with stage := .released, service := s.service.apply .release } else s
  | .released => s

/-- Lets the tasks go on until they wait. -/
def workOff (s : Server) : Server := { s with service := s.service.workOff }

/-- The server goes on with its shutdown, and then the tasks go on; no result if it has to wait. -/
def windDown (s : Server) : Option Server :=
  if s.proceed.stage = s.stage then none else some s.proceed.workOff

/-- Lets the tasks and the shutdown go on until all of them wait. -/
def run (s : Server) : Server := exhaust windDown patience s.workOff

/-- The number of requests that were answered, once the shutdown is complete. -/
def processed? (s : Server) : Option Nat :=
  match s.stage, s.service.worker.phase with
  | .released, .stopped => some s.service.worker.completions.length
  | _, _ => none

/-- Something that can happen to a server. -/
inductive Move where
  /-- A client connects. -/
  | accept (peer : String) (capacity : Nat)
  /-- The server goes on with its shutdown. -/
  | proceed
  /-- The handler of a connection takes a step. -/
  | handler (i : Nat)
  /-- The registry takes a step. -/
  | registry
  /-- The worker takes a step. -/
  | worker
  /-- Bytes arrive from a client. -/
  | arrive (i : Nat) (chunk : Bytes)
  /-- The input from a client ends. -/
  | finish (i : Nat) (ending : InputEnd)
  /-- A client reads. -/
  | read (i limit : Nat)
  /-- A client stops reading. -/
  | deafen (i : Nat)
  /-- So many milliseconds go by. -/
  | wait (milliseconds : Nat)
  /-- So many milliseconds go by on the wall clock. -/
  | age (milliseconds : Nat)
  /-- The service has to shut down. -/
  | cancel

/-- What happens to the service behind a server. -/
def Move.inner? : Move → Option Reckoner.Move
  | .accept .. | .proceed => none
  | .handler i => some (.handler i)
  | .registry => some .registry
  | .worker => some .worker
  | .arrive i chunk => some (.arrive i chunk)
  | .finish i ending => some (.finish i ending)
  | .read i limit => some (.read i limit)
  | .deafen i => some (.deafen i)
  | .wait milliseconds => some (.wait milliseconds)
  | .age milliseconds => some (.age milliseconds)
  | .cancel => some .cancel

/-- What a move does.  Once the server has begun to shut down, nobody can connect. -/
def apply (s : Server) (m : Move) : Server :=
  match m with
  | .accept peer capacity => if s.stage = .accepting then s.accept peer capacity else s
  | .proceed => s.proceed
  | m =>
    match m.inner? with
    | some inner => { s with service := s.service.apply inner }
    | none => s

/-- The server is told to shut down, and does as far as it need not wait. -/
def shutDown (s : Server) : Server := (s.apply .cancel).run

/-- The states that a server with the given settings can get into. -/
inductive Reachable (settings : Settings) (port : UInt16) : Server → Prop where
  /-- The state at the start. -/
  | start : Reachable settings port (create settings port)
  /-- The state after a move. -/
  | move {s : Server} (m : Move) : Reachable settings port s → Reachable settings port (s.apply m)

end Server

end Reckoner
