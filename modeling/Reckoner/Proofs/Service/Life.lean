import Reckoner.Proofs.Service.Effect
import Reckoner.Proofs.Service.Logging
import Reckoner.Proofs.Session.Life

/-!
# The lives of all sessions in the log

* `Service.attempt?`, `Service.attemptsIn` — the responses that the session of a connection tries to
  give in a move, or in a run.
* `Service.unused_of_length` — in the name of a connection that is not there nothing is logged.
* `Service.life_of_run` — after every run, what stands in the log in the name of a connection is the
  life of its session.
-/

namespace Reckoner

namespace Service

variable {s : Service} {m : Move} {i : Nat} {session : Session}

/-! ### Responses that are tried -/

/-- The response that the session of a connection tries to give in a move. -/
def attempt? (s : Service) (i : Nat) (m : Move) : Option Response :=
  (s.sessionStep? i m).bind fun step => step.1.attempt? step.2

/-- The responses that it tries to give in a run, one after the other. -/
def attemptsIn (s : Service) (i : Nat) : List Move → List Response
  | [] => []
  | m :: moves => (s.attempt? i m).toList ++ (s.apply m).attemptsIn i moves

theorem attemptsIn_concat (s : Service) (i : Nat) (moves : List Move) (m : Move) :
    s.attemptsIn i (moves ++ [m])
      = s.attemptsIn i moves ++ ((s.applyAll moves).attempt? i m).toList := by
  induction moves generalizing s with
  | nil => exact List.append_nil _
  | cons first moves ih =>
    rw [List.cons_append, attemptsIn, ih, attemptsIn, List.append_assoc, applyAll_cons]

theorem sessionStep?_of_length (h : s.connections.length ≤ i) : s.sessionStep? i m = none := by
  refine sessionStep?_of_none ?_
  rw [session?, List.getElem?_eq_none h]
  rfl

/-! ### Runs -/

section Run

variable {limits : SessionLimits} {queueCapacity : Nat}

/-- In the name of a connection that is not there yet nothing was tried, and nothing is logged. -/
theorem unused_of_length {moves : List Move}
    (h : ((start limits queueCapacity).applyAll moves).connections.length ≤ i) :
    (start limits queueCapacity).attemptsIn i moves = [] ∧
      ((start limits queueCapacity).applyAll moves).logBy (.connection i) = [] := by
  induction moves using List.reverseRecOn with
  | nil => exact ⟨rfl, rfl⟩
  | append_singleton moves m ih =>
    rw [applyAll_concat] at h
    have hbefore := Nat.le_trans (frame_apply _ m).length h
    obtain ⟨htried, hlogged⟩ := ih hbefore
    have hstep := sessionStep?_of_length (m := m) hbefore
    rw [attemptsIn_concat, htried, attempt?, hstep, applyAll_concat, logBy_apply, hlogged, hstep]
    exact ⟨rfl, rfl⟩

/-- **The lives of all sessions.** After every run, what is logged in the name of a connection is
    the life of its session, next to the responses that the session has tried to give. -/
theorem life_of_run {moves : List Move}
    (h : ((start limits queueCapacity).applyAll moves).session? i = some session) :
    session.Life ((start limits queueCapacity).attemptsIn i moves)
      (((start limits queueCapacity).applyAll moves).logBy (.connection i)) := by
  -- By induction together with this: who asks to join has not joined before.
  suffices hboth : session.IsFresh ∧
      session.Life ((start limits queueCapacity).attemptsIn i moves)
        (((start limits queueCapacity).applyAll moves).logBy (.connection i)) from hboth.2
  induction moves using List.reverseRecOn generalizing session with
  | nil => cases h
  | append_singleton moves m ih =>
    rw [applyAll_concat] at h
    rw [attemptsIn_concat, attempt?, applyAll_concat, logBy_apply]
    rcases session_of_move h with ⟨before, next, hstep, hbefore, rfl⟩ |
      ⟨hstep, (hsame | ⟨before, hbefore, htouched⟩) | ⟨peer, _, _, -, hnew, rfl⟩⟩
    · -- The session takes a step.
      obtain ⟨hfresh, hlife⟩ := ih hbefore
      obtain ⟨c, -, -, htransition, -⟩ := apply_of_sessionStep hstep
      rw [hstep]
      exact ⟨htransition.isFresh hfresh, htransition.life hfresh hlife⟩
    · rw [hstep, Option.bind_none, Option.toList_none, List.append_nil, Option.map_none,
        Option.getD_none, List.append_nil]
      exact ih hsame
    · -- It hears an answer, or gets input.
      obtain ⟨hfresh, hlife⟩ := ih hbefore
      rw [hstep, Option.bind_none, Option.toList_none, List.append_nil, Option.map_none,
        Option.getD_none, List.append_nil]
      cases htouched with
      | hear reply =>
        have hhears := before.hears_hear reply
        exact ⟨hhears.isFresh hfresh, hhears.life hlife⟩
      | arrive | finish => exact ⟨hfresh, hlife.congr rfl rfl rfl⟩
    · -- It has just begun, on a new connection.
      obtain ⟨htried, hlogged⟩ := unused_of_length (Nat.le_of_eq hnew.symm)
      rw [htried, hlogged, hstep]
      exact ⟨nofun, Session.life_begin peer _⟩

end Run

/-- A stranger is refused, joins, and is refused again.  Its input fails, and the registry is gone
    before its session can give back the name. -/
def failingRun : List Move := List.flatten
  [[.connect "peer" 128 1000, .arrive 0 (utf8 "HELLO\nJOIN:a\nHELLO\n")],
    List.replicate 8 (.handler 0), [.registry], List.replicate 12 (.handler 0),
    [.finish 0 (.failure "reset"), .killRegistry], List.replicate 8 (.handler 0)]

theorem life_failingRun :
    (start ⟨60000, 64⟩ 8).attemptsIn 0 failingRun
      = [.invalidFormat, .welcome "a", .invalidFormat] ∧
    ((start ⟨60000, 64⟩ 8).applyAll failingRun).logBy (.connection 0)
      = [⟨.err, "UNKNOWN", "Malformed command"⟩, ⟨.connect, "a", "Connected from peer"⟩,
          ⟨.err, "a", "Malformed command"⟩, ⟨.err, "a", "I/O error: reset"⟩,
          ⟨.disconnect, "a", "Client disconnected after 0 seconds"⟩] ∧
    ∃ session, ((start ⟨60000, 64⟩ 8).applyAll failingRun).session? 0 = some session ∧
      session.phase = .finished (.failed (.io "reset")) ∧
      session.Life ((start ⟨60000, 64⟩ 8).attemptsIn 0 failingRun)
        (((start ⟨60000, 64⟩ 8).applyAll failingRun).logBy (.connection 0)) := by
  have hphase : (((start ⟨60000, 64⟩ 8).applyAll failingRun).session? 0).map Session.phase
      = some (.finished (.failed (.io "reset"))) := by
    decide +kernel
  obtain ⟨session, hsession, hphase⟩ := Option.map_eq_some_iff.mp hphase
  exact ⟨by decide +kernel, by decide +kernel, session, hsession, hphase, life_of_run hsession⟩

end Service

end Reckoner
