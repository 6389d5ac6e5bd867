import Reckoner.Proofs.Server.Hosting
import Reckoner.Proofs.Service.Agreement

/-!
# Whatever is run are moves

The program lets the tasks of a service go on until they wait, and lets its server go on with the
shutdown in between.  All that it does so are moves, one after the other.  So what holds after every
run of moves holds of what the program does.

* `Service.workOff_eq` — the tasks that take turns make the moves of a run.
* `Server.run_eq`, `Server.shutDown_eq` — so do the tasks and the shutdown of a server.
* `Server.reachable_iff` — the states that a server can get into are those that runs lead to.
* `Server.reachable_of_start` — a server that has been started is in one of them.
* `Server.Reachable.hosts` — the service behind such a server has made a run of its own.
* `Server.Reachable.agreement` — its registry and its sessions agree.
-/

namespace Reckoner

/-! ### Services -/

/-- The move that a step of a task is. -/
def ServiceTask.move : ServiceTask → Move
  | worker => .worker
  | registry => .registry
  | handler i => .handler i

namespace Service

variable {s next : Service} {task : ServiceTask} {effort : Nat}

/-- A step of a task is its move. -/
theorem apply_of_stepTask (h : s.stepTask task = some (next, effort)) :
    s.apply task.move = next := by
  cases task <;> simp only [stepTask] at h <;> simp only [ServiceTask.move, apply, h,
    Option.map_some, Option.getD_some]

/-- **Working off.** The tasks that take turns make the moves of a run. -/
theorem workOff_eq (s : Service) :
    ∃ tasks : List ServiceTask, s.workOff = s.applyAll (tasks.map ServiceTask.move) := by
  -- What every step keeps is that the tasks so far have made a run.
  refine crew.workOff_induction
    (P := fun t => ∃ tasks : List ServiceTask, t = s.applyAll (tasks.map ServiceTask.move))
    ?_ s ⟨[], rfl⟩
  rintro t task next effort hstep ⟨tasks, rfl⟩
  refine ⟨tasks ++ [task], ?_⟩
  rw [List.map_append, applyAll_append, List.map_singleton]
  exact (apply_of_stepTask hstep).symm

end Service

/-! ### Servers -/

namespace Server

variable {s t : Server} {settings : Settings} {port : UInt16}

/-- Nobody outside has part in the move: it is a step of a task, or the server goes on with its
    shutdown. -/
def Move.isOwn : Move → Bool
  | handler _ | registry | worker | proceed => true
  | accept .. | arrive .. | finish .. | read .. | deafen _ | wait _ | age _ | cancel => false

/-- A server gets from one state to another by moves in which nobody outside has part. -/
def GoesOn (s t : Server) : Prop := ∃ moves, (∀ m ∈ moves, m.isOwn = true) ∧ t = s.applyAll moves

theorem GoesOn.trans {u : Server} (h : s.GoesOn t) (h' : t.GoesOn u) : s.GoesOn u := by
  obtain ⟨moves, hown, rfl⟩ := h
  obtain ⟨later, hown', rfl⟩ := h'
  refine ⟨moves ++ later, fun m hm => ?_, (s.applyAll_append moves later).symm⟩
  exact (List.mem_append.mp hm).elim (hown m) (hown' m)

theorem goesOn_proceed (s : Server) : s.GoesOn s.proceed :=
  ⟨[.proceed], by simp [Move.isOwn], rfl⟩

/-- The move of the server that a step of a task is. -/
def ofTask : ServiceTask → Move
  | .worker => .worker
  | .registry => .registry
  | .handler i => .handler i

theorem applyAll_ofTask (s : Server) (tasks : List ServiceTask) :
    s.applyAll (tasks.map ofTask)
      = { s with service := s.service.applyAll (tasks.map ServiceTask.move) } := by
  induction tasks generalizing s with
  | nil => rfl
  | cons task tasks ih =>
    have happly : s.apply (ofTask task) = { s with service := s.service.apply task.move } := by
      cases task <;> rfl
    show (s.apply (ofTask task)).applyAll _ = _
    rw [ih, happly]
    rfl

theorem goesOn_workOff (s : Server) : s.GoesOn s.workOff := by
  obtain ⟨tasks, heq⟩ := s.service.workOff_eq
  refine ⟨tasks.map ofTask, fun m hm => ?_, ?_⟩
  · obtain ⟨task, -, rfl⟩ := List.mem_map.mp hm
    cases task <;> rfl
  · rw [applyAll_ofTask, workOff, heq]

/-- **Running.** The tasks and the shutdown of a server make the moves of a run, until they wait. -/
theorem run_eq (s : Server) :
    ∃ moves, (∀ m ∈ moves, m.isOwn = true) ∧ s.run = s.applyAll moves := by
  -- One round is a move of the shutdown and what the tasks do about it.
  refine exhaust_induction (P := s.GoesOn) ?_ patience s.workOff s.goesOn_workOff
  intro a b hstep hgoes
  unfold windDown at hstep
  split at hstep <;> cases hstep
  exact hgoes.trans (a.goesOn_proceed.trans a.proceed.goesOn_workOff)

/-- **Shutting down.** So they do behind the order to shut down. -/
theorem shutDown_eq (s : Server) :
    ∃ moves, (∀ m ∈ moves, m.isOwn = true) ∧ s.shutDown = s.applyAll (.cancel :: moves) :=
  (s.apply .cancel).run_eq

/-! ### States -/

theorem Reachable.applyAll (h : Reachable settings port s) (moves : List Move) :
    Reachable settings port (s.applyAll moves) := by
  induction moves generalizing s with
  | nil => exact h
  | cons m moves ih => exact ih (h.move m)

/-- A server can get into the states that runs lead to. -/
theorem reachable_iff :
    Reachable settings port s ↔ ∃ moves, s = (create settings port).applyAll moves := by
  constructor
  · intro h
    induction h with
    | start => exact ⟨[], rfl⟩
    | move m _ ih =>
      obtain ⟨moves, rfl⟩ := ih
      exact ⟨moves ++ [m], (applyAll_concat ..).symm⟩
  · rintro ⟨moves, rfl⟩
    exact Reachable.start.applyAll moves

/-- A server that has been started is in one of them. -/
theorem reachable_of_start {host : Host} {log : List LogEntry}
    (h : start host settings = (.ok s, log)) : ∃ port, Reachable settings port s := by
  unfold start at h
  split at h
  · cases h
  split at h
  · cases h
  · rename_i port _
    unfold begin at h
    split at h
    · cases h
    split at h
    · cases h
    · cases h
      exact ⟨port, .start⟩

/-- **The service behind a server** has made a run of its own, in which nobody was ended by force
    and nobody outside has submitted anything. -/
theorem Reachable.hosts (h : Reachable settings port s) : ∃ inner : List Reckoner.Move,
    (.killWorker ∉ inner ∧ .killRegistry ∉ inner ∧ ∀ r, .submit r ∉ inner) ∧
      s.Hosts ((inside settings).applyAll inner) := by
  obtain ⟨moves, rfl⟩ := reachable_iff.mp h
  obtain ⟨inner, hleads, -, hhosts⟩ := (hosts_create settings port).applyAll moves
  exact ⟨inner, notMem_of_leads hleads, hhosts⟩

/-- In its registry there is nothing but what its sessions have put there. -/
theorem Reachable.agreement (h : Reachable settings port s) : s.service.Agreement := by
  obtain ⟨inner, ⟨-, hregistry, -⟩, hhosts⟩ := h.hosts
  have hruns := Service.runs_of_never (s := inside settings) rfl hregistry
  exact (Service.agreement_of_reachable (Service.Reachable.start.applyAll inner) hruns)
    |>.of_connections hhosts.registry hhosts.connections

end Server

end Reckoner
