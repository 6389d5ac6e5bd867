import Reckoner.Simulation.Basic

/-!
# What clients do in a simulation

* `Simulation.Step` — something that a client or the host does.
* `Simulation.perform` — does it and lets everything settle.
* `Simulation.conclude` — shuts down what is left and lets manual clients read the rest.
* `Simulation.close`, `Simulation.submit` — what the host does with outputs that it holds.
-/

namespace Reckoner

namespace Simulation

/-! ### Steps -/

/-- Something that a client or the host does. -/
inductive Step where
  /-- A client connects.  A client with the same label is replaced: its input ends, and what it
      still gets is not observed. -/
  | connect (label peer : String) (capacity timeout : Nat) (manual : Bool)
  /-- A client sends bytes. -/
  | send (label : String) (bytes : Bytes)
  /-- The input from a client ends. -/
  | finish (label : String) (ending : InputEnd)
  /-- A client stops reading. -/
  | deafen (label : String)
  /-- A client stops reading, and its input ends. -/
  | hangUp (label : String)
  /-- A manual client reads. -/
  | read (label : String) (limit : Option Nat)
  /-- Time goes by. -/
  | sleep (milliseconds : Nat)
  /-- The service has to shut down. -/
  | cancel
  /-- The worker is ended by force. -/
  | killWorker
  /-- The registry is ended by force. -/
  | killRegistry
  /-- Nothing is done. -/
  | settle
  deriving DecidableEq

/-- The bytes that a client sends can go out: its input has not ended, and if there are any, its
    session reads on. -/
def takesInput (sim : Simulation) (c : Client) (bytes : Bytes) : Bool :=
  match sim.service.session? c.connection with
  | some session => session.input.ending.isNone && (bytes.isEmpty || !session.hasFinished)
  | none => false

/-- A client connects. -/
def connect (sim : Simulation) (label peer : String) (capacity timeout : Nat) (manual : Bool) :
    Simulation :=
  let sim := match sim.client? label with
    | some c =>
      (sim.apply (.finish c.connection .eof)).modifyClient label fun c =>
        { c with observed := false }
    | none => sim
  (sim.apply (.connect peer capacity timeout)).addClient label manual

/-- Does a step, without letting anything settle; no result if there is no such client. -/
def act (sim : Simulation) : Step → Option Simulation
  | .connect label peer capacity timeout manual =>
    some (sim.connect label peer capacity timeout manual)
  | .send label bytes => do return sim.apply (.arrive (← sim.client? label).connection bytes)
  | .finish label ending => do return sim.apply (.finish (← sim.client? label).connection ending)
  | .deafen label => do return sim.apply (.deafen (← sim.client? label).connection)
  | .hangUp label => do
    let c ← sim.client? label
    return (sim.apply (.deafen c.connection)).apply (.finish c.connection .eof)
  | .read label limit => do
    let _ ← sim.client? label
    return sim.read label limit
  | .sleep milliseconds => some (sim.sleep milliseconds)
  | .cancel => some (sim.apply .cancel)
  | .killWorker => some (sim.apply .killWorker)
  | .killRegistry => some (sim.apply .killRegistry)
  | .settle => some sim

/-- A step sends bytes that cannot go out. -/
def isRefused (sim : Simulation) : Step → Bool
  | .send label bytes => (sim.client? label).any fun c => !sim.takesInput c bytes
  | _ => false

/-- Does a step, lets everything settle and observes.  There is no result if there is no such
    client. -/
def perform (sim : Simulation) (step : Step) : Option (Observation × Simulation) :=
  (sim.act step).map fun sim => sim.settle.observe

/-! ### The end -/

/-- The host lets go of the queue and of all outputs that it holds, once the worker has ended; then
    manual clients read the rest. -/
def conclude (sim : Simulation) : Observation × Simulation :=
  let sim := (sim.apply .release).awaitWorker
  let sim := (List.range sim.service.connections.length).foldl
    (fun sim i => sim.apply (.detach i)) sim
  sim.settle.readAll.settle.observe

/-- The number of requests that were answered; none if the worker was ended by force. -/
def processed? (sim : Simulation) : Option Nat :=
  if sim.service.worker.phase = .killed then none else some sim.service.worker.completions.length

/-! ### Outputs held by the host -/

/-- The host takes an output, with a client at its other end. -/
def attach (sim : Simulation) (label : String) (capacity timeout : Nat) (manual : Bool) :
    Simulation :=
  (sim.apply (.attach capacity timeout)).addClient label manual

/-- The host puts a request into the queue.  Nothing else goes on meanwhile. -/
def submit (sim : Simulation) (request : Request) : Except QueueError Simulation :=
  (sim.service.submit request).map fun service => { sim with service }

/-- The next thing that happens to a job of the host: an operation, or else everybody goes on, or
    else the clock moves; nothing once the job is done. -/
def awaitJob (i ticket : Nat) (sim : Simulation) : Option Simulation := do
  let output ← sim.service.output? i
  if !output.hasJob ticket then none
  else if output.isReady sim.service.clock ticket then
    let output := (output.poll sim.service.clock ticket).channel
    return { sim with service := sim.service.modifyOutput i fun _ => output }
  else
    let sim := sim.run
    let output ← sim.service.output? i
    if output.isReady sim.service.clock ticket then return sim
    else return sim.advanceTo (← sim.service.deadline?)

/-- The host closes the output of a client, unless it is broken, and waits until that is done. -/
def close (sim : Simulation) (label : String) : Option (Observation × Simulation) := do
  let c ← sim.client? label
  let output ← sim.service.output? c.connection
  if output.broken then return sim.settle.observe
  else
    let (output, ticket) := output.startClose
    let sim := { sim with service := sim.service.modifyOutput c.connection fun _ => output }
    return (exhaust (awaitJob c.connection ticket) patience sim).settle.observe

end Simulation

end Reckoner
