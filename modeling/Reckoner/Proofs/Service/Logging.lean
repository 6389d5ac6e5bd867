import Reckoner.Proofs.Service.Submission

/-!
# What is logged

Everybody who logs something only adds to the log, and nobody reads it.

* `Service.sessionStep?` — the step that the session of a connection takes in a move.
* `Service.logBy_apply` — what is logged in the name of a connection is what its session logs in
  these steps.
* `Service.session_of_move` — where a session comes from, and in which step.
* `Service.withLog`, `Service.apply_withLog` — whatever stands in the log, moves do the same.
-/

namespace Reckoner

namespace Service

variable {s : Service} {m : Move} {i : Nat} {session : Session} {next : SessionStep}

/-! ### Steps of a session -/

/-- The step that the session of a connection takes in a move, with the session before it. -/
def sessionStep? (s : Service) (i : Nat) : Move → Option (Session × SessionStep)
  | .handler k =>
    if k = i then do
      let c ← s.connections[i]?
      let session ← c.handler.session?
      let next ← session.step s.outlook c.output
      return (session, next)
    else none
  | _ => none

theorem sessionStep?_of_ne (hm : m ≠ .handler i) : s.sessionStep? i m = none := by
  cases m with
  | handler k =>
    refine if_neg ?_
    rintro rfl
    exact hm rfl
  | _ => rfl

theorem sessionStep?_of_session {c : Connection} (hc : s.connections[i]? = some c)
    (hhandler : c.handler = .session session) :
    s.sessionStep? i (.handler i) =
      (session.step s.outlook c.output).map fun next => (session, next) := by
  simp only [sessionStep?, if_pos, hc, Option.bind_eq_bind, Option.bind_some, hhandler,
    Handler.session?]
  cases session.step s.outlook c.output <;> rfl

/-- Who is no session takes no step of one. -/
theorem sessionStep?_of_none (h : s.session? i = none) : s.sessionStep? i m = none := by
  by_cases hm : m = .handler i
  · subst hm
    simp only [sessionStep?, if_pos]
    cases hc : s.connections[i]? with
    | none => rfl
    | some c =>
      rw [session?, hc, Option.bind_some] at h
      simp only [Option.bind_eq_bind, Option.bind_some, h, Option.bind_none]
  · exact sessionStep?_of_ne hm

/-- A step of a session is one of its transitions, and the move does what it leads to. -/
theorem apply_of_sessionStep (h : s.sessionStep? i m = some (session, next)) :
    ∃ c, s.connections[i]? = some c ∧ c.handler = .session session ∧
      session.Transition s.outlook c.output next ∧ s.apply m = s.afterSession i c.id next := by
  have hm : m = .handler i := by
    by_contra hm
    rw [sessionStep?_of_ne hm] at h
    cases h
  subst hm
  cases hbefore : s.session? i with
  | none =>
    rw [sessionStep?_of_none hbefore] at h
    cases h
  | some before =>
    obtain ⟨c, hc, hhandler⟩ := session?_eq_some hbefore
    rw [sessionStep?_of_session hc hhandler, Option.map_eq_some_iff] at h
    obtain ⟨next', hstep, heq⟩ := h
    cases heq
    refine ⟨c, hc, hhandler, Session.transition_of_step hstep, ?_⟩
    show ((s.stepHandler i).map Prod.fst).getD s = _
    rw [stepHandler_session hc hhandler, hstep]
    rfl

/-- **Where a session comes from, and in which step.** A session that takes no step in a move is as
    before, was touched, or has just begun on a new connection. -/
theorem session_of_move {session' : Session} (h : (s.apply m).session? i = some session') :
    (∃ session next, s.sessionStep? i m = some (session, next) ∧
        s.session? i = some session ∧ session' = next.session) ∨
      s.sessionStep? i m = none ∧
        ((s.session? i = some session' ∨
          ∃ session, s.session? i = some session ∧ Touched i session m session') ∨
        ∃ peer capacity timeout, m = .connect peer capacity timeout ∧ i = s.connections.length ∧
          session' = { peer, phase := .reading s.clock }) := by
  cases hstep : s.sessionStep? i m with
  | some result =>
    obtain ⟨session, next⟩ := result
    obtain ⟨c, hc, hhandler, -, heq⟩ := apply_of_sessionStep hstep
    rw [heq, session?_afterSession hc, if_pos rfl] at h
    cases h
    exact .inl ⟨session, next, rfl, session?_of_handler hc hhandler, rfl⟩
  | none =>
    refine .inr ⟨rfl, ?_⟩
    by_cases hm : ∃ k, m = .handler k
    · -- Another handler takes a step, or this one has to wait.
      obtain ⟨k, rfl⟩ := hm
      refine .inl (.inl ?_)
      rcases s.apply_handler k with heq | ⟨effort, hhandler⟩
      · rwa [heq] at h
      rcases stepHandler_cases hhandler with
        ⟨c, session, next, hc, hsession, -, heq⟩ | ⟨c, r, next, -, -, -, heq⟩
      · rw [heq, session?_afterSession hc] at h
        split at h
        · rename_i hk
          subst hk
          rw [sessionStep?_of_session hc hsession, Option.map_eq_none_iff] at hstep
          rw [stepHandler_session hc hsession, hstep] at hhandler
          cases hhandler
        · exact h
      · rw [heq, session?_modifyConnection] at h
        split at h
        · obtain ⟨_, -, hnone⟩ := Option.bind_eq_some_iff.mp h
          cases hnone
        · exact h
    · exact session_of_other (fun k hk => hm ⟨k, hk⟩) h

/-! ### What a connection logs -/

theorem log_afterSession (s : Service) (i id : Nat) (next : SessionStep) :
    (s.afterSession i id next).log
      = s.log ++ next.log.map fun entry => (.connection i, entry) := by
  unfold afterSession
  cases next.errand with
  | none => rfl
  | some errand => cases errand <;> rfl

theorem WorkerTransition.logBy {s' : Service} (h : WorkerTransition s s') (i : Nat) :
    s'.logBy (.connection i) = s.logBy (.connection i) := by
  have hafter (s : Service) (k : Nat) (next : WorkerStep) :
      (s.afterWorker k next).1.logBy (.connection i) = s.logBy (.connection i) := by
    have hrecord := s.logBy_record (.connection i) .worker next.log
    rw [if_neg nofun, List.append_nil] at hrecord
    exact hrecord
  cases h with
  | stop => rfl
  | take | skip | answer | write | deliver | fail => exact hafter _ _ _

/-- Neither the registry logs anything, nor anybody outside the service. -/
theorem log_of_other (hhandler : ∀ k, m ≠ .handler k) (hworker : m ≠ .worker) :
    (s.apply m).log = s.log := by
  cases m with
  | handler k => exact absurd rfl (hhandler k)
  | worker => exact absurd rfl hworker
  | registry =>
    rcases s.apply_registry with heq | ⟨effort, hregistry⟩
    · rw [heq]
    · obtain ⟨source, command, mailbox, -, heq⟩ := stepRegistry_cases hregistry
      rw [heq]
      rfl
  | connect =>
    simp only [apply]
    split <;> rfl
  | submit request => rcases s.apply_submit request with heq | ⟨-, -, heq⟩ <;> rw [heq]
  | killWorker =>
    show s.killWorker.log = _
    rcases s.killWorker_cases with ⟨heq, -⟩ | ⟨-, before, hbefore, heq⟩ <;> rw [heq]
    rcases hbefore with ⟨rfl, -⟩ | ⟨request, outcome, ticket, -, rfl⟩ <;> rfl
  | refuse | attach | detach | arrive | finish | read | deafen | wait | age | cancel | release
  | killRegistry => rfl

/-- A handler logs what its session logs in its step. -/
theorem log_of_handler (s : Service) (i : Nat) :
    (s.apply (.handler i)).log = s.log ++ (((s.sessionStep? i (.handler i)).map
      fun step => step.2.log).getD []).map fun entry => (.connection i, entry) := by
  cases hstep : s.sessionStep? i (.handler i) with
  | some result =>
    obtain ⟨session, next⟩ := result
    obtain ⟨c, -, -, -, heq⟩ := apply_of_sessionStep hstep
    rw [heq, log_afterSession]
    rfl
  | none =>
    rw [Option.map_none, Option.getD_none, List.map_nil, List.append_nil]
    rcases s.apply_handler i with heq | ⟨effort, hhandler⟩
    · rw [heq]
    rcases stepHandler_cases hhandler with
      ⟨c, session, next, hc, hsession, -, heq⟩ | ⟨c, r, next, -, -, -, heq⟩
    · rw [sessionStep?_of_session hc hsession, Option.map_eq_none_iff] at hstep
      rw [stepHandler_session hc hsession, hstep] at hhandler
      cases hhandler
    · rw [heq]
      rfl

/-- **What a connection logs.** In its name only its session logs anything, in its own steps. -/
theorem logBy_apply (s : Service) (m : Move) (i : Nat) :
    (s.apply m).logBy (.connection i)
      = s.logBy (.connection i) ++ ((s.sessionStep? i m).map fun step => step.2.log).getD [] := by
  have hquiet (hne : m ≠ .handler i)
      (h : (s.apply m).logBy (.connection i) = s.logBy (.connection i)) :
      (s.apply m).logBy (.connection i) = s.logBy (.connection i)
        ++ ((s.sessionStep? i m).map fun step => step.2.log).getD [] := by
    rw [h, sessionStep?_of_ne hne, Option.map_none, Option.getD_none, List.append_nil]
  by_cases hhandler : ∃ k, m = .handler k
  · -- A handler logs in the name of its own connection only.
    obtain ⟨k, rfl⟩ := hhandler
    have hrecord := s.logBy_record (.connection i) (.connection k)
      (((s.sessionStep? k (.handler k)).map fun step => step.2.log).getD [])
    have hlog : (s.apply (.handler k)).logBy (.connection i)
        = (s.record (.connection k)
          (((s.sessionStep? k (.handler k)).map fun step => step.2.log).getD [])).logBy
            (.connection i) := by
      rw [logBy, log_of_handler]
      rfl
    by_cases hk : k = i
    · subst hk
      rw [hlog, hrecord, if_pos rfl]
    · have hne : LogSource.connection k ≠ .connection i := by simpa using hk
      rw [if_neg hne, List.append_nil] at hrecord
      exact hquiet (by simpa using hk) (hlog.trans hrecord)
  by_cases hworker : m = .worker
  · subst hworker
    refine hquiet nofun ?_
    rcases s.apply_worker with ⟨heq, -⟩ | ⟨s', heq, hworker⟩ <;> rw [heq]
    exact hworker.logBy i
  · have hhandler : ∀ k, m ≠ .handler k := fun k hk => hhandler ⟨k, hk⟩
    refine hquiet (hhandler i) ?_
    rw [logBy, log_of_other hhandler hworker]
    rfl

/-! ### Nobody reads the log -/

/-- The service with another log. -/
def withLog (s : Service) (log : List (LogSource × LogEntry)) : Service := { s with log }

variable (s) (log : List (LogSource × LogEntry))

@[simp] theorem withLog_connections : (s.withLog log).connections = s.connections := rfl
@[simp] theorem withLog_registry : (s.withLog log).registry = s.registry := rfl
@[simp] theorem withLog_queue : (s.withLog log).queue = s.queue := rfl
@[simp] theorem withLog_worker : (s.withLog log).worker = s.worker := rfl
@[simp] theorem withLog_outlook : (s.withLog log).outlook = s.outlook := rfl
@[simp] theorem withLog_clock : (s.withLog log).clock = s.clock := rfl
@[simp] theorem withLog_log : (s.withLog log).log = log := rfl
@[simp] theorem withLog_output? (i : Nat) : (s.withLog log).output? i = s.output? i := rfl
@[simp] theorem withLog_mayRequest : (s.withLog log).mayRequest = s.mayRequest := rfl

/-- A step of a task does the same whatever stands in the log, and adds the same to it. -/
def Adds (s : Service) (step : Service → Option (Service × Nat)) : Prop :=
  ∃ new, (step s = none → new = []) ∧
    ∀ log, step (s.withLog log) = (step s).map fun after => (after.1.withLog (log ++ new), after.2)

variable {s}

theorem Adds.of_none {step : Service → Option (Service × Nat)}
    (h : ∀ log, step (s.withLog log) = none) : s.Adds step := by
  refine ⟨[], fun _ => rfl, fun log => ?_⟩
  rw [h log, show step s = none from h s.log, Option.map_none]

theorem Adds.of_some {step : Service → Option (Service × Nat)} {after : Service} {n : Nat}
    (new : List (LogSource × LogEntry)) (h : step s = some (after, n))
    (hlog : ∀ log, step (s.withLog log) = some (after.withLog (log ++ new), n)) :
    s.Adds step := by
  refine ⟨new, fun hnone => ?_, fun log => ?_⟩
  · rw [h] at hnone
    cases hnone
  · rw [hlog, h, Option.map_some]

/-- What a move does that lets a task take a step. -/
theorem Adds.apply {step : Service → Option (Service × Nat)} (h : s.Adds step) : ∃ new, ∀ log,
    ((step (s.withLog log)).map Prod.fst).getD (s.withLog log)
      = (((step s).map Prod.fst).getD s).withLog (log ++ new) := by
  obtain ⟨new, hnone, hsome⟩ := h
  refine ⟨new, fun log => ?_⟩
  rw [hsome]
  cases hstep : step s with
  | none => rw [hnone hstep, List.append_nil]; rfl
  | some after => rfl

theorem afterSession_withLog (i id : Nat) (next : SessionStep) :
    (s.withLog log).afterSession i id next
      = (s.afterSession i id next).withLog
        (log ++ next.log.map fun entry => (.connection i, entry)) := by
  unfold afterSession
  cases next.errand with
  | none => rfl
  | some errand => cases errand <;> rfl

theorem adds_stepHandler (s : Service) (i : Nat) : s.Adds fun s => s.stepHandler i := by
  cases hc : s.connections[i]? with
  | none => exact .of_none fun log => by simp [stepHandler, hc]
  | some c =>
    have hc' (log : List (LogSource × LogEntry)) : (s.withLog log).connections[i]? = some c := hc
    cases hhandler : c.handler with
    | session session =>
      cases hnext : session.step s.outlook c.output with
      | none =>
        refine .of_none fun log => ?_
        rw [stepHandler_session (hc' log) hhandler, withLog_outlook, hnext, Option.map_none]
      | some next =>
        refine .of_some (next.log.map fun entry => (.connection i, entry))
          (by rw [stepHandler_session hc hhandler, hnext, Option.map_some]) fun log => ?_
        rw [stepHandler_session (hc' log) hhandler, withLog_outlook, hnext, Option.map_some,
          afterSession_withLog]
    | refusal r =>
      cases hnext : r.step s.clock c.output with
      | none =>
        refine .of_none fun log => ?_
        rw [stepHandler_refusal (hc' log) hhandler, withLog_clock, hnext, Option.map_none]
      | some next =>
        refine .of_some [] (by rw [stepHandler_refusal hc hhandler, hnext, Option.map_some])
          fun log => ?_
        rw [stepHandler_refusal (hc' log) hhandler, withLog_clock, hnext, Option.map_some,
          List.append_nil]
        rfl
    | outside | released => exact .of_none fun log => by simp [stepHandler, hc, hhandler]

theorem adds_stepRegistry (s : Service) : s.Adds stepRegistry := by
  cases hmailbox : s.registry.mailbox with
  | nil => exact .of_none fun log => by simp [stepRegistry, hmailbox]
  | cons first mailbox =>
    have hstep : s.stepRegistry = some (s.answer first.1 (s.registry.table.handle first.2).1 mailbox
        (s.registry.table.handle first.2).2, 1) := by
      simp only [stepRegistry, hmailbox]
      rfl
    refine .of_some [] hstep fun log => ?_
    simp only [stepRegistry, withLog_registry, hmailbox, List.append_nil]
    rfl

/-- A step that puts in what the worker leads to. -/
theorem Adds.of_worker {t : Service} {k : Nat} {next : WorkerStep}
    (h : ∀ log, (s.withLog log).stepWorker = some ((t.withLog log).afterWorker k next))
    (hhere : s.stepWorker = some (t.afterWorker k next)) : s.Adds stepWorker :=
  .of_some (next.log.map fun entry => (.worker, entry)) hhere fun log => (h log).trans rfl

theorem adds_stepWorker (s : Service) : s.Adds stepWorker := by
  -- Whether there is a step is decided by the phase, the queue, the output and the clock.
  cases hphase : s.worker.phase with
  | idle =>
    cases hnext : s.queue.next? with
    | none =>
      cases hmay : s.mayRequest with
      | true => exact .of_none fun log => by simp [stepWorker, takeRequest, hphase, hnext, hmay]
      | false =>
        have hstop (log : List (LogSource × LogEntry)) : (s.withLog log).stepWorker = some
            ({ s with worker := { s.worker with phase := .stopped },
                      queue := s.queue.close }.withLog log, 1) := by
          simp only [stepWorker, takeRequest, withLog_worker, withLog_queue, withLog_mayRequest,
            hphase, hnext, hmay]
          rfl
        exact .of_some [] (hstop s.log) fun log => by rw [hstop, List.append_nil]; rfl
    | some taken =>
      cases houtput : s.output? taken.1.connection with
      | none =>
        exact .of_none fun log => by simp [stepWorker, takeRequest, hphase, hnext, houtput]
      | some output =>
        have htake (log : List (LogSource × LogEntry)) : (s.withLog log).stepWorker = some
            (({ s with queue := taken.2 }.withLog log).afterWorker taken.1.connection
              (s.worker.take taken.1 output)) := by
          simp only [stepWorker, takeRequest, withLog_worker, withLog_queue, withLog_output?,
            hphase, hnext, houtput]
          rfl
        exact .of_worker htake (htake s.log)
  | answering request outcome =>
    cases houtput : s.output? request.connection with
    | none => exact .of_none fun log => by simp [stepWorker, hphase, houtput]
    | some output =>
      have hanswer (log : List (LogSource × LogEntry)) : (s.withLog log).stepWorker = some
          ((s.withLog log).afterWorker request.connection
            (s.worker.startReply request outcome output)) := by
        simp only [stepWorker, withLog_worker, withLog_output?, hphase, houtput]
        rfl
      exact .of_worker hanswer (hanswer s.log)
  | replying request outcome ticket =>
    cases houtput : s.output? request.connection with
    | none => exact .of_none fun log => by simp [stepWorker, hphase, houtput]
    | some output =>
      cases hready : output.isReady s.clock ticket with
      | false => exact .of_none fun log => by simp [stepWorker, hphase, houtput, hready]
      | true =>
        have hproceed (log : List (LogSource × LogEntry)) : (s.withLog log).stepWorker = some
            ((s.withLog log).afterWorker request.connection
              (s.worker.proceed s.clock request outcome ticket output)) := by
          simp [stepWorker, hphase, houtput, hready]
        exact .of_worker hproceed (hproceed s.log)
  | stopped | killed => exact .of_none fun log => by simp [stepWorker, hphase]

/-- **Nobody reads the log.** Whatever stands in it, a move does the same, and adds the same to
    it. -/
theorem apply_withLog (s : Service) (m : Move) : ∃ new, ∀ log,
    (s.withLog log).apply m = (s.apply m).withLog (log ++ new) := by
  have hquiet (h : ∀ log, (s.withLog log).apply m = (s.apply m).withLog log) : ∃ new, ∀ log,
      (s.withLog log).apply m = (s.apply m).withLog (log ++ new) :=
    ⟨[], fun log => by rw [List.append_nil]; exact h log⟩
  cases m with
  | handler i => exact (s.adds_stepHandler i).apply
  | registry => exact s.adds_stepRegistry.apply
  | worker => exact s.adds_stepWorker.apply
  | connect peer capacity timeout =>
    refine hquiet fun log => ?_
    simp only [apply]
    show (if s.queueHeld then _ else _) = _
    split <;> rfl
  | submit request =>
    refine hquiet fun log => ?_
    simp only [apply, submit, withLog_queue]
    show (if s.takesRequest request then _ else _) = _
    split
    · cases s.queue.submit request <;> rfl
    · rfl
  | killWorker =>
    refine hquiet fun log => ?_
    show (s.withLog log).killWorker = s.killWorker.withLog log
    unfold killWorker
    rw [withLog_worker]
    split
    · rfl
    · cases s.worker.phase <;> rfl
  | refuse | attach | detach | arrive | finish | read | deafen | wait | age | cancel | release
  | killRegistry => exact hquiet fun log => rfl

end Service

end Reckoner
