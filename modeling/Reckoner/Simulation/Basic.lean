import Reckoner.Service.Move
import Reckoner.Service.Task
import Reckoner.Text.Utf8

/-!
# Simulations

A simulation runs a service with clients on a clock of its own.  The clock stands still while any
task can go on, and then moves straight to the next moment at which a wait ends.  The tasks of the
service and the clients that read by themselves take turns.

* `Simulation.crew` — those tasks and clients.
* `Simulation.run` — lets all of them go on until they wait.
* `Simulation.sleep`, `Simulation.settle` — let time go by.
* `Simulation.observe` — what has happened since the last look, client by client.

Most clients read whatever comes; those that are `manual` read only when told to.
-/

namespace Reckoner

/-! ### Clients and observations -/

/-- A client in a simulation. -/
structure Client where
  /-- What the client is called in observations. -/
  label : String
  /-- Its connection. -/
  connection : Nat
  /-- It reads only when told to. -/
  manual : Bool
  /-- It is observed; a client whose place another has taken is not. -/
  observed : Bool := true
  /-- What it has read since the last observation. -/
  received : Bytes := []
  /-- It has seen the end of what it reads. -/
  seesEnd : Bool := false
  /-- That it has seen the end was observed. -/
  endTold : Bool := false
  /-- The end of its session was observed. -/
  sessionTold : Bool := false
  deriving DecidableEq

/-- What has happened since the last observation. -/
structure Observation where
  /-- The text that clients have read. -/
  received : List (String × String)
  /-- The clients that have seen the end of it, in order. -/
  closed : List String
  /-- What was logged, by who has logged it. -/
  log : List (String × List LogEntry)
  /-- What became of requests. -/
  completions : News Completion
  /-- The sessions that have ended. -/
  ended : List (String × SessionEnd)
  /-- What the registry has published, in the order of names. -/
  events : News RegistryEvent

/-- A service with its clients. -/
structure Simulation where
  /-- The service. -/
  service : Service
  /-- All clients there ever were. -/
  clients : List Client := []
  /-- How many log entries were observed. -/
  logged : Nat := 0
  /-- How many completions were observed. -/
  completed : Nat := 0
  /-- How many registry events were observed. -/
  published : Nat := 0
  deriving DecidableEq

namespace Simulation

/-! ### Reading -/

/-- A client reads at most so many bytes. -/
def readBytes (s : Service) (c : Client) (limit : Nat) : Service × Client :=
  match s.output? c.connection with
  | none => (s, c)
  | some output =>
    (s.apply (.read c.connection limit),
      { c with received := c.received ++ (output.pipe.read limit).2 })

/-- How many bytes a client could read. -/
def available (s : Service) (c : Client) : Nat :=
  match s.output? c.connection with
  | none => 0
  | some output => output.pipe.unread.length

/-- A client would see the end, for it has read everything before it. -/
def atEnd (s : Service) (c : Client) : Bool :=
  match s.output? c.connection with
  | none => false
  | some output =>
    output.pipe.unread.isEmpty && !output.pipe.deaf && s.outputEnds c.connection

/-- A client notes the end, if it would see it. -/
def noteEnd (s : Service) (c : Client) : Client := { c with seesEnd := c.seesEnd || atEnd s c }

/-- A client reads by itself.  One that is not observed any more does so in any case. -/
def readsAlone (c : Client) : Bool := !(c.manual && c.observed)

/-- A client that reads by itself reads all there is, or notes the end; no result if it has to
    wait. -/
def stepReader (s : Service) (c : Client) : Option (Service × Client) :=
  if !readsAlone c then none
  else if 0 < available s c then some (readBytes s c (available s c))
  else if !c.seesEnd && atEnd s c then some (s, { c with seesEnd := true })
  else none

/-! ### Turns -/

/-- Somebody who takes turns in a simulation. -/
inductive Party where
  /-- A client that reads. -/
  | client (i : Nat)
  /-- A task of the service. -/
  | task (t : ServiceTask)
  deriving DecidableEq, Repr

/-- Everybody who takes turns. -/
def parties (sim : Simulation) : List Party :=
  (List.range sim.clients.length).map Party.client ++ sim.service.tasks.map Party.task

/-- A step of somebody, and how many operations it took; no result if they have to wait. -/
def stepParty (sim : Simulation) : Party → Option (Simulation × Nat)
  | .task t => (sim.service.stepTask t).map fun (service, effort) => ({ sim with service }, effort)
  | .client i => do
    let (service, c) ← stepReader sim.service (← sim.clients[i]?)
    return ({ sim with service, clients := sim.clients.set i c }, 1)

/-- What somebody does next takes an operation, or has to wait. -/
def needsOperation (sim : Simulation) : Party → Bool
  | .task t => sim.service.needsOperation t
  | .client _ => true

/-- Everybody who takes turns, as a crew. -/
def crew : Crew Simulation Party := { tasks := parties, step := stepParty, needsOperation }

/-- Lets every task and client go on until all of them wait. -/
def run (sim : Simulation) : Simulation := crew.workOff sim

/-! ### Time -/

/-- Lets something happen to the service. -/
def apply (sim : Simulation) (m : Move) : Simulation :=
  { sim with service := sim.service.apply m }

/-- Moves the clock, but not back. -/
def advanceTo (sim : Simulation) (moment : Nat) : Simulation :=
  sim.apply (.wait (moment - sim.service.clock))

/-- The clock goes to the next moment at which a wait ends, if that is not later than `moment`. -/
def nextWait (moment : Nat) (sim : Simulation) : Option Simulation :=
  match sim.service.deadline? with
  | none => none
  | some d => if d ≤ moment ∧ sim.service.clock < d then some (sim.advanceTo d).run else none

/-- Lets so many milliseconds go by. -/
def sleep (sim : Simulation) (milliseconds : Nat) : Simulation :=
  let moment := sim.service.clock + milliseconds
  ((exhaust (nextWait moment) patience sim.run).advanceTo moment).run

/-- Lets everything go on until all of it waits, and a millisecond go by. -/
def settle (sim : Simulation) : Simulation := sim.sleep 1

/-- Lets time go by until the worker has ended. -/
def awaitWorker (sim : Simulation) : Simulation :=
  exhaust (fun sim =>
    if sim.service.worker.hasEnded then none
    else match sim.service.deadline? with
      | none => none
      | some d => nextWait d sim) patience sim.run

/-! ### Clients -/

/-- The client with a label. -/
def client? (sim : Simulation) (label : String) : Option Client :=
  sim.clients.find? fun c => c.label = label && c.observed

/-- Changes the client with a label. -/
def modifyClient (sim : Simulation) (label : String) (f : Client → Client) : Simulation :=
  { sim with
    clients := sim.clients.map fun c => if c.label = label && c.observed then f c else c }

/-- A client of the newest connection. -/
def addClient (sim : Simulation) (label : String) (manual : Bool) : Simulation :=
  { sim with
    clients := sim.clients ++
      [{ label, connection := sim.service.connections.length - 1, manual }] }

/-- One reading of a manual client that wants to have `limit` bytes since the last observation. -/
def readOnce (label : String) (limit : Option Nat) (sim : Simulation) : Option Simulation := do
  let c ← sim.client? label
  let wanted := match limit with
    | none => available sim.service c
    | some n => min (n - c.received.length) (available sim.service c)
  if wanted = 0 then none
  else
    let (service, c) := readBytes sim.service c wanted
    return ({ sim with service }.modifyClient label fun _ => c).run

/-- A manual client reads until nothing more comes, or has `limit` bytes.  Only in the first case
    it may see the end. -/
def read (sim : Simulation) (label : String) (limit : Option Nat) : Simulation :=
  let sim := exhaust (readOnce label limit) patience sim.run
  sim.modifyClient label fun c =>
    match limit with
    | none => noteEnd sim.service c
    | some n => if c.received.length < n then noteEnd sim.service c else c

/-- All manual clients read what is left. -/
def readAll (sim : Simulation) : Simulation :=
  sim.clients.foldl (fun sim c => if c.manual && c.observed then sim.read c.label none else sim) sim

/-! ### Observations -/

/-- What a source of log entries is called. -/
def sourceLabel (sim : Simulation) : LogSource → String
  | .worker => "worker"
  | .service => serverLabel
  | .connection i =>
    match sim.clients.find? fun c => c.connection = i with
    | some c => c.label
    | none => unknownLabel

/-- Puts each value behind those with the same label. -/
def grouped (entries : List (String × α)) : List (String × List α) :=
  (entries.map Prod.fst).eraseDups.map fun label =>
    (label, entries.filterMap fun (other, a) => if other = label then some a else none)

/-- The end of the session of a client, if it has ended. -/
def sessionEnd? (s : Service) (c : Client) : Option SessionEnd :=
  match (s.session? c.connection).map Session.phase with
  | some (.finished e) => some e
  | _ => none

/-- The client as it is after an observation. -/
def Client.told (s : Service) (c : Client) : Client :=
  { c with
    received := [], endTold := c.endTold || c.seesEnd,
    sessionTold := c.sessionTold || (sessionEnd? s c).isSome }

/-- What has happened since the last observation. -/
def observation (sim : Simulation) : Observation :=
  let observed := sim.clients.filter Client.observed
  { received := observed.filterMap fun c =>
      if c.received.isEmpty then none else some (c.label, decodeLossy c.received)
    closed := (observed.filterMap fun c =>
      if c.seesEnd && !c.endTold then some c.label else none).mergeSort fun a b => !decide (b < a)
    log := grouped ((sim.service.log.drop sim.logged).map fun (source, e) =>
      (sim.sourceLabel source, e))
    completions := sim.service.worker.completionsSince sim.completed
    ended := observed.filterMap fun c =>
      if c.sessionTold then none else (sessionEnd? sim.service c).map fun e => (c.label, e)
    events :=
      let news := sim.service.registry.table.eventsSince sim.published
      { news with items := news.items.mergeSort fun a b => !decide (b.name < a.name) } }

/-- What has happened since the last observation, and the simulation after this one. -/
def observe (sim : Simulation) : Observation × Simulation :=
  (sim.observation,
    { sim with
      clients := sim.clients.map fun c => Client.told sim.service c
      logged := sim.service.log.length
      completed := sim.service.worker.completions.length
      published := sim.service.registry.table.events.length })

end Simulation

end Reckoner
