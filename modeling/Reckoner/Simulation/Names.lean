import Reckoner.Registry.Basic

/-!
# A registry in a simulation

A registry that is asked directly, or one that is gone already, with subscribers that are told
what it publishes.  Every session that asks for a name gets an output channel of its own.
-/

namespace Reckoner

/-- A registry and those who use it. -/
structure RegistrySimulation where
  /-- The registry, unless it is gone. -/
  registry : Option Registry := some {}
  /-- The sessions that have asked for names; the place of each is its channel. -/
  sessions : List Nat := []
  /-- For each subscriber, how many events it was told or has missed. -/
  subscribers : List Nat := []
  deriving DecidableEq

namespace RegistrySimulation

/-- The channel of a session. -/
def channel? (sim : RegistrySimulation) (session : Nat) : Option Nat :=
  sim.sessions.findIdx? fun other => other = session

/-- The simulation with a channel for a session. -/
def withChannel (sim : RegistrySimulation) (session : Nat) : RegistrySimulation :=
  if sim.sessions.contains session then sim
  else { sim with sessions := sim.sessions ++ [session] }

/-- A session asks for a name. -/
def register (sim : RegistrySimulation) (name : String) (session : Nat) :
    RegistrySimulation × Except RegistryError Unit :=
  let sim := sim.withChannel session
  match sim.registry with
  | none => (sim, .error .channelClosed)
  | some r =>
    match r.register name ⟨session, (sim.channel? session).getD 0⟩ with
    | .ok r => ({ sim with registry := some r }, .ok ())
    | .error e => (sim, .error e)

/-- A session gives a name back; says whether it was its own. -/
def deregister (sim : RegistrySimulation) (name : String) (session : Nat) :
    RegistrySimulation × Bool :=
  match sim.registry.bind fun r => r.deregister name session with
  | some r => ({ sim with registry := some r }, true)
  | none => (sim, false)

/-- The owner of a name. -/
def owner? (sim : RegistrySimulation) (name : String) : Option Owner :=
  sim.registry.bind fun r => r.owner? name

/-- All names in order. -/
def names (sim : RegistrySimulation) : List String :=
  match sim.registry with
  | some r => r.names
  | none => []

/-- The owner of a name writes to the channel of a session; no result if either is missing. -/
def sharesChannel? (sim : RegistrySimulation) (name : String) (session : Nat) : Option Bool := do
  return (← sim.owner? name).channel = (← sim.channel? session)

/-- How many events were published so far. -/
def published (sim : RegistrySimulation) : Nat :=
  match sim.registry with
  | some r => r.events.length
  | none => 0

/-- Adds a subscriber, who is told what is published from now on. -/
def subscribe (sim : RegistrySimulation) : RegistrySimulation × Nat :=
  ({ sim with subscribers := sim.subscribers ++ [sim.published] }, sim.subscribers.length)

/-- What was published since a subscriber was told the last time; no result if there is no such
    subscriber. -/
def tell (sim : RegistrySimulation) (subscriber : Nat) :
    RegistrySimulation × Option (News RegistryEvent) :=
  match sim.subscribers[subscriber]? with
  | none => (sim, none)
  | some seen =>
    ({ sim with subscribers := sim.subscribers.set subscriber sim.published },
      some ((sim.registry.map fun r => r.eventsSince seen).getD ⟨0, []⟩))

end RegistrySimulation

end Reckoner
