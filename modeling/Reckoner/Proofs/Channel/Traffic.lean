import Reckoner.Proofs.Channel.Job

/-!
# Calls on a shared channel

Everybody who holds a channel may send lines and shut it down at any time.  A `Traffic` is a
channel with all calls that were ever made on it, so that what holds of every `Traffic.Reachable`
state holds for any number of callers in any order.

* `Call` — one call, and how far it has come.  It first looks whether the channel is broken, then
  queues up, and then does one operation after the other until it ends.
* `Traffic.Move`, `Traffic.apply` — what can happen: the steps of a call, the client reading or
  going away, and the passing of time.
* `Traffic.HasFailed` — some line could not be written.
-/

namespace Reckoner

/-! ### Calls -/

/-- How far a call has come. -/
inductive CallStage where
  /-- It has seen that the channel is not broken, and is about to queue up. -/
  | cleared
  /-- It has queued up, and was given a ticket. -/
  | queued (ticket : Nat)
  /-- It has returned. -/
  | ended (result : Except WriteError Unit)
  deriving DecidableEq

/-- The stage of a call under a ticket, given what has become of its job. -/
def CallStage.after (ticket : Nat) : Channel.Progress → CallStage
  | none => .queued ticket
  | some result => .ended result

/-- A call of somebody who holds the channel. -/
structure Call where
  /-- The line to send, or the wish to shut down. -/
  work : Work
  /-- How far it has come. -/
  stage : CallStage
  deriving DecidableEq

/-- What a call returns at once on a broken channel: a line fails, and there is nothing to shut
    down. -/
def Work.onBroken : Work → Except WriteError Unit
  | line _ => .error .broken
  | close => .ok ()

/-- A call that has just been made.  It looks first whether the channel is broken. -/
def Call.create (c : Channel) (work : Work) : Call :=
  { work, stage := if c.broken then .ended work.onBroken else .cleared }

/-- The call has not returned. -/
def Call.isOpen (call : Call) : Bool :=
  match call.stage with
  | .ended _ => false
  | _ => true

/-- The call could not write its line, and not because a line before it had failed. -/
def Call.HasFailed (call : Call) : Prop :=
  ∃ e : WriteError, call.stage = .ended (.error e) ∧ e ≠ .broken

/-! ### Traffic -/

/-- A channel with all calls that were made on it. -/
structure Traffic where
  /-- The channel. -/
  channel : Channel
  /-- The time in milliseconds. -/
  clock : Nat := 0
  /-- The calls, in the order they were made. -/
  calls : List Call := []

namespace Traffic

/-- A new channel. -/
def start (capacity timeout : Nat) : Traffic := { channel := .create capacity timeout }

/-- Something that can happen to a channel. -/
inductive Move where
  /-- Somebody calls. -/
  | call (work : Work)
  /-- A call queues up. -/
  | enter (k : Nat)
  /-- A call does its next operation, if it is its turn. -/
  | poll (k : Nat)
  /-- The client reads. -/
  | read (limit : Nat)
  /-- The client goes away. -/
  | deafen
  /-- So many milliseconds go by. -/
  | wait (milliseconds : Nat)

/-- The call `k` has come to a stage, and the channel has changed with it. -/
def advance (t : Traffic) (k : Nat) (work : Work) (stage : CallStage) (channel : Channel) :
    Traffic :=
  { t with channel, calls := t.calls.set k ⟨work, stage⟩ }

/-- A call queues up. -/
def enter (t : Traffic) (k : Nat) : Traffic :=
  match t.calls[k]? with
  | some ⟨work, .cleared⟩ =>
    let (channel, ticket) := t.channel.start work
    t.advance k work (.queued ticket) channel
  | _ => t

/-- A call does its next operation, if it is its turn. -/
def poll (t : Traffic) (k : Nat) : Traffic :=
  match t.calls[k]? with
  | some ⟨work, .queued ticket⟩ =>
    let next := t.channel.poll t.clock ticket
    t.advance k work (.after ticket next.progress) next.channel
  | _ => t

/-- Changes the pipe. -/
def modifyPipe (t : Traffic) (f : Pipe → Pipe) : Traffic :=
  { t with channel := { t.channel with pipe := f t.channel.pipe } }

/-- What a move does. -/
def apply (t : Traffic) : Move → Traffic
  | .call work => { t with calls := t.calls ++ [.create t.channel work] }
  | .enter k => t.enter k
  | .poll k => t.poll k
  | .read limit => t.modifyPipe fun p => (p.read limit).1
  | .deafen => t.modifyPipe Pipe.deafen
  | .wait milliseconds => { t with clock := t.clock + milliseconds }

/-- What moves do, one after the other. -/
def applyAll (t : Traffic) (moves : List Move) : Traffic := moves.foldl apply t

/-- The states that a channel can get into. -/
inductive Reachable (capacity timeout : Nat) : Traffic → Prop where
  /-- The state at the start. -/
  | start : Reachable capacity timeout (start capacity timeout)
  /-- The state after a move. -/
  | move {t : Traffic} (m : Move) :
      Reachable capacity timeout t → Reachable capacity timeout (t.apply m)

@[simp] theorem applyAll_nil (t : Traffic) : t.applyAll [] = t := rfl

@[simp] theorem applyAll_cons (t : Traffic) (m : Move) (moves : List Move) :
    t.applyAll (m :: moves) = (t.apply m).applyAll moves := rfl

theorem applyAll_append (t : Traffic) (moves others : List Move) :
    t.applyAll (moves ++ others) = (t.applyAll moves).applyAll others :=
  List.foldl_append

theorem Reachable.applyAll {capacity timeout : Nat} {t : Traffic} (h : Reachable capacity timeout t)
    (moves : List Move) : Reachable capacity timeout (t.applyAll moves) := by
  induction moves generalizing t with
  | nil => exact h
  | cons m moves ih => exact ih (h.move m)

/-- A line could not be written. -/
def HasFailed (t : Traffic) : Prop := ∃ call ∈ t.calls, call.HasFailed

/-! ### The steps of a call -/

/-- A call that is made is the last one, and all others are where they were. -/
theorem getElem?_call (t : Traffic) (work : Work) (k : Nat) :
    (t.apply (.call work)).calls[k]?
      = if k = t.calls.length then some (.create t.channel work) else t.calls[k]? := by
  show (t.calls ++ [Call.create t.channel work])[k]? = _
  rw [List.getElem?_append]
  split
  · rw [if_neg (by omega)]
  · split
    · rename_i heq
      simp [heq]
    · rw [List.getElem?_eq_none (by simp; omega), List.getElem?_eq_none (by omega)]

theorem getElem?_call_of_some {t : Traffic} {k : Nat} {call : Call} (hk : t.calls[k]? = some call)
    (work : Work) : (t.apply (.call work)).calls[k]? = some call := by
  have hlt := (List.getElem?_eq_some_iff.mp hk).1
  rw [getElem?_call, if_neg (by omega), hk]

theorem some_of_getElem?_call {t : Traffic} {work : Work} {k : Nat} {call : Call}
    (hk : (t.apply (.call work)).calls[k]? = some call) :
    t.calls[k]? = some call ∨ call = .create t.channel work := by
  rw [getElem?_call] at hk
  split at hk
  · exact .inr (Option.some.inj hk).symm
  · exact .inl hk

/-- A call that queues up gets the next ticket, and a job behind all others. -/
theorem enter_cases (t : Traffic) (k : Nat) :
    t.enter k = t ∨ ∃ work, t.calls[k]? = some ⟨work, .cleared⟩ ∧
      t.enter k
        = t.advance k work (.queued t.channel.nextTicket) (t.channel.start work).1 := by
  unfold enter
  split
  · rename_i work hk
    exact .inr ⟨work, hk, rfl⟩
  · exact .inl rfl

/-- Polling a call does an operation of its job, or nothing. -/
theorem poll_cases (t : Traffic) (k : Nat) :
    t.poll k = t ∨ ∃ (work : Work) (job : Job) (others : List Job) (next : Channel.JobStep),
      t.calls[k]? = some ⟨work, .queued job.ticket⟩ ∧ t.channel.jobs = job :: others ∧
        Channel.Operation t.channel t.clock job others next ∧
        t.poll k = t.advance k work (.after job.ticket next.progress) next.channel := by
  unfold poll
  split
  · rename_i work ticket hk
    rcases t.channel.operation_poll t.clock ticket with
      ⟨job, others, hjobs, rfl, hop⟩ | ⟨-, hpoll⟩
    · exact .inr ⟨work, job, others, _, hk, hjobs, hop, rfl⟩
    · left
      rw [hpoll]
      obtain ⟨hlt, hget⟩ := List.getElem?_eq_some_iff.mp hk
      show { t with calls := t.calls.set k ⟨work, .queued ticket⟩ } = t
      rw [← hget, List.set_getElem_self]
  · exact .inl rfl

end Traffic

end Reckoner
