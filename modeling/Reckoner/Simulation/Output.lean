import Reckoner.Channel.Basic
import Reckoner.Schedule.Repeat
import Reckoner.Wire.Response

/-!
# A single output channel in a simulation

A host writes to a channel and waits for each job to be done, on a clock that moves straight to
the deadline of the job if nothing else can happen.  The other end of the channel reads only when
told to.
-/

namespace Reckoner

/-- A channel, and the clock of its host. -/
structure OutputSimulation where
  /-- The channel. -/
  channel : Channel
  /-- The time in milliseconds. -/
  clock : Nat := 0
  deriving DecidableEq

namespace OutputSimulation

/-- A new channel. -/
def create (capacity timeout : Nat) : OutputSimulation := { channel := .create capacity timeout }

/-- The next thing that happens to a job which is not done: an operation, or else the clock moves to
    its deadline. -/
def awaitStep (ticket : Nat) :
    OutputSimulation × Channel.Progress → Option (OutputSimulation × Channel.Progress)
  | (_, some _) => none
  | (sim, none) =>
    if sim.channel.isReady sim.clock ticket then
      let job := sim.channel.poll sim.clock ticket
      some ({ sim with channel := job.channel }, job.progress)
    else sim.channel.deadline?.map fun clock => ({ sim with clock }, none)

/-- Waits until a job is done.  It is, at the latest, when its time is up. -/
def await (sim : OutputSimulation) (ticket : Nat) : OutputSimulation × Channel.Progress :=
  exhaust (awaitStep ticket) patience (sim, none)

/-- Sends a response. -/
def send (sim : OutputSimulation) (r : Response) : OutputSimulation × Except WriteError Unit :=
  if sim.channel.broken then (sim, .error .broken)
  else
    let (channel, ticket) := sim.channel.startLine r.line
    let (sim, progress) := { sim with channel }.await ticket
    (sim, progress.getD (.ok ()))

/-- Closes the channel, unless it is broken. -/
def close (sim : OutputSimulation) : OutputSimulation :=
  if sim.channel.broken then sim
  else
    let (channel, ticket) := sim.channel.startClose
    ({ sim with channel }.await ticket).1

/-- Waits for the channel to break, at most so many milliseconds. -/
def awaitBreak (sim : OutputSimulation) (milliseconds : Nat) : OutputSimulation × Bool :=
  if sim.channel.broken then (sim, true)
  else ({ sim with clock := sim.clock + milliseconds }, false)

/-- The other end stops reading. -/
def deafen (sim : OutputSimulation) : OutputSimulation :=
  { sim with channel := { sim.channel with pipe := sim.channel.pipe.deafen } }

/-- The other end reads at most `limit` bytes.  The result says, too, whether it sees the end,
    for which it looks only if fewer bytes have come; `ends` says that nobody will write. -/
def read (sim : OutputSimulation) (limit : Option Nat) (ends : Bool) :
    OutputSimulation × Bytes × Bool :=
  let pipe := sim.channel.pipe
  let limit := limit.getD (pipe.unread.length + 1)
  let (after, bytes) := pipe.read limit
  ({ sim with channel := { sim.channel with pipe := after } }, bytes,
    decide (bytes.length < limit) && !pipe.deaf && (pipe.closed || ends))

end OutputSimulation

end Reckoner
