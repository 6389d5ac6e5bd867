import Reckoner.Schedule.Rota
import Reckoner.Service.Basic

/-!
# The tasks of a service

* `ServiceTask` — the worker, the registry, and the handler of each connection.
* `Service.crew` — these tasks as a crew.
* `Service.workOff` — lets all of them go on until they wait.  This is one of the orders in which
  the moves of a service may come.
-/

namespace Reckoner

/-- A task of a service. -/
inductive ServiceTask where
  /-- The worker. -/
  | worker
  /-- The registry. -/
  | registry
  /-- The handler of a connection. -/
  | handler (i : Nat)
  deriving DecidableEq, Repr

namespace Service

/-- The tasks of a service. -/
def tasks (s : Service) : List ServiceTask :=
  .worker :: .registry :: (List.range s.connections.length).map ServiceTask.handler

/-- A step of a task, and how many operations it took; no result if the task has to wait. -/
def stepTask (s : Service) : ServiceTask → Option (Service × Nat)
  | .worker => s.stepWorker
  | .registry => s.stepRegistry
  | .handler i => s.stepHandler i

/-- What a task does next takes an operation, or has to wait. -/
def needsOperation (s : Service) : ServiceTask → Bool
  | .worker => !s.worker.hasEnded
  | .registry => s.registry.runs
  | .handler i =>
    match s.connections[i]? with
    | some c => c.handler.needsOperation
    | none => false

/-- The tasks of a service. -/
def crew : Crew Service ServiceTask := { tasks, step := stepTask, needsOperation }

/-- Lets all tasks go on until they wait. -/
def workOff (s : Service) : Service := crew.workOff s

end Service

end Reckoner
