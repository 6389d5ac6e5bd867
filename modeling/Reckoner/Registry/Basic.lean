import Reckoner.News

/-!
# The registry of names

Each joined client has a name of its own.  The registry says which session owns which name.

* `Registry.register`, `Registry.deregister` — a free name goes to whoever asks first, and only
  its owner can give it back.
* `Registry.owner?`, `Registry.names` — the look-ups.
* `Registry.handle` — one command and its reply.
* `Registry.events` — what was published: a name joined, a name left.
* `Registry.eventsSince` — what of it a subscriber is told who looks again.
-/

namespace Reckoner

/-- The session that owns a name. -/
structure Owner where
  /-- The number of the session. -/
  session : Nat
  /-- The number of its output channel. -/
  channel : Nat
  deriving DecidableEq, Repr

/-- Why a name is not given. -/
inductive RegistryError where
  /-- Another session has it. -/
  | nameTaken (name : String)
  /-- The registry is gone. -/
  | channelClosed
  deriving DecidableEq, Repr

/-- The error in words. -/
def RegistryError.message : RegistryError → String
  | nameTaken name => "client name already in use: " ++ name
  | channelClosed => "response channel closed"

/-- A change that the registry publishes. -/
inductive RegistryEvent where
  /-- A name was given. -/
  | joined (name : String)
  /-- A name was given back. -/
  | left (name : String)
  deriving DecidableEq, Repr

/-- The name that an event is about. -/
def RegistryEvent.name : RegistryEvent → String
  | joined name => name
  | left name => name

/-- A request to the registry. -/
inductive RegistryCommand where
  /-- Give a name to a session. -/
  | register (name : String) (owner : Owner)
  /-- Take a name back from a session. -/
  | deregister (name : String) (session : Nat)
  /-- Tell who owns a name. -/
  | lookup (name : String)
  /-- List the names. -/
  | list
  deriving DecidableEq, Repr

/-- What the registry replies. -/
inductive RegistryReply where
  /-- The name was given, or not. -/
  | registered (result : Except RegistryError Unit)
  /-- The name was taken back, or not. -/
  | deregistered (done : Bool)
  /-- The owner of a name. -/
  | owner (result : Option Owner)
  /-- All names. -/
  | names (result : List String)

/-- Who owns which name. -/
structure Registry where
  /-- The names and their owners, each name once. -/
  owners : List (String × Owner) := []
  /-- Everything published so far. -/
  events : List RegistryEvent := []
  deriving DecidableEq, Repr

namespace Registry

/-- The owner of a name. -/
def owner? (r : Registry) (name : String) : Option Owner := r.owners.lookup name

/-- The name is owned. -/
def contains (r : Registry) (name : String) : Bool := (r.owner? name).isSome

/-- All names in order. -/
def names (r : Registry) : List String :=
  (r.owners.map Prod.fst).mergeSort fun a b => !decide (b < a)

/-- Gives a free name to a session. -/
def register (r : Registry) (name : String) (owner : Owner) : Except RegistryError Registry :=
  match r.owner? name with
  | some _ => .error (.nameTaken name)
  | none =>
    .ok { owners := r.owners ++ [(name, owner)], events := r.events ++ [.joined name] }

/-- Takes a name back from the session that owns it; no result if the session does not. -/
def deregister (r : Registry) (name : String) (session : Nat) : Option Registry :=
  match r.owner? name with
  | some owner =>
    if owner.session = session then
      some { owners := r.owners.filter fun (other, _) => other ≠ name,
             events := r.events ++ [.left name] }
    else none
  | none => none

/-- How many events are kept for subscribers. -/
def keptEvents : Nat := 128

/-- What a subscriber is told who has seen so many events. -/
def eventsSince (r : Registry) (seen : Nat) : News RegistryEvent :=
  .since keptEvents r.events seen

/-- Carries out a command. -/
def handle (r : Registry) : RegistryCommand → Registry × RegistryReply
  | .register name owner =>
    match r.register name owner with
    | .ok r => (r, .registered (.ok ()))
    | .error e => (r, .registered (.error e))
  | .deregister name session =>
    match r.deregister name session with
    | some r => (r, .deregistered true)
    | none => (r, .deregistered false)
  | .lookup name => (r, .owner (r.owner? name))
  | .list => (r, .names r.names)

end Registry

end Reckoner
