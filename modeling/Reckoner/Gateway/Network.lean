import Reckoner.Gateway.Host
import Std.Async
import Std.Sync

/-!
# The network of the program

Everything that happens on the network is reported to one loop, which makes moves of it for the
server: clients connect, bytes arrive, bytes are sent on.  After each report the server goes on
until it has to wait; then the loop receives, sends and closes what the server is ready for, and
sets an alarm for the next moment at which a wait ends.

* `Gateway.listen` — listens on an address.
* `Gateway.serve` — runs a server until its shutdown is complete.
-/

namespace Reckoner

open Std.Async

namespace Gateway

/-! ### Reports -/

/-- What is reported to the loop. -/
inductive Report where
  /-- A client has connected. -/
  | connected (socket : TCP.Socket.Client)
  /-- No client could connect. -/
  | notConnected
  /-- Bytes have arrived. -/
  | arrived (i : Nat) (bytes : Bytes)
  /-- The input has ended. -/
  | ended (i : Nat) (ending : InputEnd)
  /-- So many bytes were sent on. -/
  | sent (i count : Nat)
  /-- Bytes could not be sent on. -/
  | lost (i : Nat)
  /-- Time has gone by, or something was done that does not matter to the server. -/
  | woken
  /-- The program has to stop. -/
  | stop

instance : Inhabited Report := ⟨.woken⟩

/-- The moves that a report stands for. -/
def Report.moves : Report → List Server.Move
  | connected _ | notConnected | woken => []
  | arrived i bytes => [.arrive i bytes]
  | ended i ending => [.finish i ending]
  | sent i count => [.read i count]
  | lost i => [.deafen i]
  | stop => [.cancel]

/-- Where reports go. -/
abbrev Reports := Std.Channel Report

/-- Starts a task whose result, or whose failure, is reported. -/
def launch (reports : Reports) (task : Async Report) (failure : IO.Error → Report) : IO Unit := do
  let reporting : Async Unit := do
    let report ← try task catch e => pure (failure e)
    discard <| reports.send report
  discard reporting.toIO

/-! ### The loop -/

/-- A connection on the network. -/
structure Link where
  /-- The socket. -/
  socket : TCP.Socket.Client
  /-- Ends the wait for bytes. -/
  hush : Std.CancellationToken
  /-- Bytes are waited for. -/
  receiving : Bool := false
  /-- Bytes are being sent. -/
  sending : Bool := false

/-- A socket that listens. -/
structure Listener where
  /-- The socket. -/
  socket : TCP.Socket.Server
  /-- Ends the wait for clients. -/
  hush : Std.CancellationToken

/-- The state of the loop. -/
structure State where
  /-- The server. -/
  server : Server
  /-- The connections that are not over, by number. -/
  links : Array (Option Link) := #[]
  /-- The socket that listens, until the shutdown. -/
  listener : Option Listener
  /-- A client is waited for. -/
  accepting : Bool := false
  /-- How many log entries were written. -/
  written : Nat := 0
  /-- When the loop was started, in milliseconds. -/
  origin : Nat
  /-- The moment that an alarm is set for. -/
  alarm : Option Nat := none

/-- How many bytes are received at a time, and may wait to be handled. -/
def portion : Nat := 8192

/-- How many bytes of a client may wait to be sent. -/
def sendCapacity : Nat := 65536

/-- The address of the other end of a socket. -/
def peerText (socket : TCP.Socket.Client) : IO String := do
  try
    let address : SocketAddress := match ← socket.getPeerName with
      | .v4 a =>
        let octets := a.addr.octets
        { ip := .v4 octets[0] octets[1] octets[2] octets[3], port := a.port }
      | .v6 a => { ip := .v6 a.addr.segments, port := a.port }
    return address.text
  catch e => return reason e

/-- Lets the time on the clock of the server go by. -/
def passTime (state : State) : IO State := do
  let elapsed := (← IO.monoMsNow) - state.origin
  let server := state.server
  let server := server.apply (.wait (elapsed - server.service.clock))
  let server := server.apply (.age (elapsed - server.service.wall))
  return { state with server, alarm := state.alarm.filter fun moment => elapsed < moment }

/-- Changes a link. -/
def modifyLink (state : State) (i : Nat) (f : Link → Link) : State :=
  { state with links := state.links.modify i fun link => link.map f }

/-- Takes note of a report. -/
def note (state : State) (report : Report) : IO State := do
  let state := { state with server := report.moves.foldl Server.apply state.server }
  match report with
  | .connected socket =>
    try socket.noDelay catch _ => pure ()
    let peer ← peerText socket
    let server := state.server.apply (.accept peer sendCapacity)
    let state := { state with server, accepting := false }
    -- A client that comes too late has no connection, and the socket is dropped.
    if server.service.connections.length = state.links.size then return state
    let link : Link := { socket, hush := ← Std.CancellationToken.new }
    return { state with links := state.links.push (some link) }
  | .notConnected => return { state with accepting := false }
  | .arrived i _ | .ended i _ => return modifyLink state i ({ · with receiving := false })
  | .sent i _ | .lost i => return modifyLink state i ({ · with sending := false })
  | .woken | .stop => return state

/-- Waits for bytes. -/
def receive (link : Link) (i : Nat) : Async Report :=
  Selectable.one #[
    .case (link.socket.recvSelector portion.toUInt64) fun
      | some bytes => return .arrived i bytes.toList
      | none => return .ended i .eof,
    .case link.hush.selector fun _ => return .woken]

/-- Sends bytes on. -/
def send (link : Link) (i : Nat) (bytes : Bytes) : Async Report := do
  link.socket.send (ByteArray.mk bytes.toArray)
  return .sent i bytes.length

/-- Waits for a client. -/
def acceptNext (listener : Listener) : Async Report :=
  Selectable.one #[
    .case listener.socket.acceptSelector fun socket => return .connected socket,
    .case listener.hush.selector fun _ => return .woken]

/-- The session of a connection reads on, and has handled what it was given but for a portion. -/
def wantsInput (s : Service) (i : Nat) : Bool :=
  match s.session? i with
  | some session =>
    !session.hasFinished && session.input.ending.isNone && session.input.unread.length < portion
  | none => false

/-- Receives, sends, or closes, as the server is ready for it. -/
def tend (reports : Reports) (state : State) (i : Nat) (link : Link) : IO State := do
  let mut link := link
  let some output := state.server.service.output? i | return state
  let bytes := output.pipe.unread
  if bytes.isEmpty && !link.sending && state.server.service.outputEnds i then
    link.hush.cancel
    let socket := link.socket
    launch reports (do socket.shutdown; return .woken) fun _ => .woken
    return { state with links := state.links.set! i none }
  if !bytes.isEmpty && !link.sending then
    launch reports (send link i bytes) fun _ => .lost i
    link := { link with sending := true }
  if wantsInput state.server.service i && !link.receiving then
    launch reports (receive link i) fun e => .ended i (.failure (reason e))
    link := { link with receiving := true }
  return { state with links := state.links.set! i (some link) }

/-- Waits for clients as long as the server takes any, and not after. -/
def tendListener (reports : Reports) (state : State) : IO State := do
  let some listener := state.listener | return state
  if state.server.stage ≠ .accepting then
    listener.hush.cancel
    return { state with listener := none }
  if state.accepting then return state
  launch reports (acceptNext listener) fun _ => .notConnected
  return { state with accepting := true }

/-- Sets an alarm for the next moment at which a wait ends, unless one is set that is as early. -/
def setAlarm (reports : Reports) (state : State) : IO State := do
  let some moment := state.server.service.deadline? | return state
  if state.alarm.any fun set => set ≤ moment then return state
  let span := Std.Time.Millisecond.Offset.ofNat (moment - state.server.service.clock)
  launch reports (do sleep span; return .woken) fun _ => .woken
  return { state with alarm := some moment }

/-- Handles a report. -/
def handle (reports : Reports) (log : LogFile) (state : State) (report : Report) : IO State := do
  let state ← note (← passTime state) report
  let server := state.server.run
  writeEntries log ((server.service.log.drop state.written).map Prod.snd)
  let mut state := { state with server, written := server.service.log.length }
  for i in [0:state.links.size] do
    if let some link := state.links[i]?.join then state ← tend reports state i link
  setAlarm reports (← tendListener reports state)

/-- Handles reports until the shutdown is complete. -/
partial def loop (reports : Reports) (log : LogFile) (state : State) : IO Unit := do
  let state ← handle reports log state (← reports.sync.recv)
  if state.server.processed?.isNone then loop reports log state

/-! ### Orders to stop -/

/-- Waits for the word to stop on the console.  Nobody can be woken who waits for a line, so this
    ends with the console or with a line. -/
partial def watchConsole (reports : Reports) (input : IO.FS.Stream) : IO Unit := do
  let line ← input.getLine
  if line.isEmpty then return
  else if isQuit line then discard <| reports.send .stop
  else watchConsole reports input

/-- Waits for a signal to stop. -/
def watchSignal (reports : Reports) (signal : Signal) : IO Unit := do
  let waiter ← Signal.Waiter.mk signal false
  launch reports (do
    discard <| Async.ofAsyncTask (← waiter.wait)
    return .stop) fun _ => .woken

/-! ### Serving -/

/-- An address as the network has it. -/
def networkAddress (address : SocketAddress) : Std.Net.SocketAddress :=
  match address.ip with
  | .v4 a b c d => .v4 ⟨.ofParts a b c d, address.port⟩
  | .v6 groups => .v6 ⟨⟨groups⟩, address.port⟩

/-- Listens on an address; the result has the port that was taken. -/
def listen (address : SocketAddress) : IO (Except String (Listener × UInt16)) := do
  try
    let socket ← TCP.Socket.Server.mk
    socket.bind (networkAddress address)
    socket.listen 1024
    return .ok (⟨socket, ← Std.CancellationToken.new⟩, (← socket.getSockName).port)
  catch e => return .error (reason e)

/-- Runs a server until its shutdown is complete. -/
def serve (listener : Listener) (server : Server) (log : LogFile) (console : Bool) : IO Unit := do
  let reports : Reports ← Std.Channel.new
  watchSignal reports .sigterm
  watchSignal reports .sigint
  if console then
    let input ← IO.getStdin
    discard <| IO.asTask (watchConsole reports input) .dedicated
  discard <| reports.send .woken
  loop reports log { server, listener := some listener, origin := ← IO.monoMsNow }

end Gateway

end Reckoner
