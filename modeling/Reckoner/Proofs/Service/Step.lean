import Reckoner.Proofs.Session.Transition
import Reckoner.Service.Move

/-!
# What one step of a service does

A service takes a step when the handler of a connection, the registry or the worker does.

* `Service.getElem?_modifyConnection` and its likes — what a change of one connection leaves alone.
* `Service.stepHandler_session`, `Service.stepHandler_refusal` — a step of a handler, in terms of
  the step of its session or refusal.
* `Service.WorkerTransition` — the steps of the worker, as a relation.
* `Service.Frame` — what a move leaves alone.
* `Service.session_of_apply` — where a session comes from that is there after a move.
-/

namespace Reckoner

namespace Service

variable {s s' : Service} {i j : Nat}

/-! ### Changing one connection -/

theorem getElem?_modifyConnection (s : Service) (i j : Nat) (f : Connection → Connection) :
    (s.modifyConnection i f).connections[j]?
      = if i = j then s.connections[j]?.map f else s.connections[j]? := by
  show (s.connections.modify i f)[j]? = _
  rw [List.getElem?_modify]
  split <;> simp

@[simp] theorem length_modifyConnection (s : Service) (i : Nat) (f : Connection → Connection) :
    (s.modifyConnection i f).connections.length = s.connections.length :=
  List.length_modify ..

theorem session?_modifyConnection (s : Service) (i j : Nat) (f : Connection → Connection) :
    (s.modifyConnection i f).session? j
      = if i = j then s.connections[j]?.bind fun c => (f c).handler.session? else s.session? j := by
  rw [session?, getElem?_modifyConnection]
  split
  · rw [Option.bind_map]
    rfl
  · rfl

theorem session?_modifySession (s : Service) (i j : Nat) (f : Session → Session) :
    (s.modifySession i f).session? j
      = if i = j then (s.session? j).map f else s.session? j := by
  rw [modifySession, session?_modifyConnection]
  split
  · rw [session?]
    cases s.connections[j]? with
    | none => rfl
    | some c =>
      rw [Option.bind_some, Option.bind_some]
      cases hhandler : c.handler <;> simp [hhandler, Handler.session?]
  · rfl

theorem output?_modifyConnection (s : Service) (i j : Nat) (f : Connection → Connection) :
    (s.modifyConnection i f).output? j
      = if i = j then s.connections[j]?.map fun c => (f c).output else s.output? j := by
  rw [output?, getElem?_modifyConnection]
  split
  · rw [Option.map_map]
    rfl
  · rfl

theorem getElem?_addConnection (s : Service) (output : Channel) (handler : Handler) (j : Nat) :
    (s.addConnection output handler).connections[j]?
      = if j = s.connections.length then some ⟨s.connections.length + 1, output, handler⟩
        else s.connections[j]? := by
  show (s.connections ++ [_])[j]? = _
  rw [List.getElem?_append]
  split
  · rename_i hlt
    rw [if_neg (by omega)]
  · rename_i hlt
    split
    · rename_i heq
      simp [heq]
    · rename_i hne
      rw [List.getElem?_eq_none (by simp; omega), List.getElem?_eq_none (by omega)]

theorem session?_eq_some {session : Session} (h : s.session? i = some session) :
    ∃ c, s.connections[i]? = some c ∧ c.handler = .session session := by
  obtain ⟨c, hc, hsession⟩ := Option.bind_eq_some_iff.mp h
  refine ⟨c, hc, ?_⟩
  cases hhandler : c.handler with
  | session other =>
    rw [hhandler] at hsession
    cases hsession
    rfl
  | refusal | outside | released => simp [hhandler, Handler.session?] at hsession

theorem session?_of_handler {c : Connection} {session : Session} (hc : s.connections[i]? = some c)
    (hhandler : c.handler = .session session) : s.session? i = some session := by
  rw [session?, hc, Option.bind_some, hhandler]
  rfl

theorem session?_addConnection (s : Service) (output : Channel) (handler : Handler) (j : Nat) :
    (s.addConnection output handler).session? j
      = if j = s.connections.length then handler.session? else s.session? j := by
  rw [session?, getElem?_addConnection]
  split <;> rfl

/-! ### Handlers -/

/-- The service after a step of the session of a connection. -/
def afterSession (s : Service) (i id : Nat) (next : SessionStep) : Service :=
  let s := (s.modifyConnection i fun c =>
    { c with output := next.output, handler := .session next.session }).record
      (.connection i) next.log
  match next.errand with
  | some errand => s.run i id errand
  | none => s

theorem afterSession_connections (s : Service) (i id : Nat) (next : SessionStep) :
    (s.afterSession i id next).connections = (s.modifyConnection i fun c =>
      { c with output := next.output, handler := .session next.session }).connections := by
  unfold afterSession
  cases next.errand with
  | none => rfl
  | some errand => cases errand <;> rfl

theorem session?_afterSession {c : Connection} (hc : s.connections[i]? = some c) (id : Nat)
    (next : SessionStep) (j : Nat) : (s.afterSession i id next).session? j
      = if i = j then some next.session else s.session? j := by
  have hconnections : (s.afterSession i id next).session? j
      = (s.modifyConnection i fun c =>
        { c with output := next.output, handler := .session next.session }).session? j := by
    rw [session?, session?, afterSession_connections]
  rw [hconnections, session?_modifyConnection]
  split
  · rename_i hj
    rw [← hj, hc]
    rfl
  · rfl

theorem stepHandler_session {c : Connection} {session : Session} (hc : s.connections[i]? = some c)
    (hhandler : c.handler = .session session) : s.stepHandler i
      = (session.step s.outlook c.output).map fun next =>
          (s.afterSession i c.id next, next.effort) := by
  unfold stepHandler afterSession
  simp only [hc, Option.bind_eq_bind, Option.bind_some, hhandler]
  cases session.step s.outlook c.output with
  | none => rfl
  | some next =>
    simp only [Option.bind_some, Option.map_some]
    cases next.errand <;> rfl

theorem stepHandler_refusal {c : Connection} {r : Refusal} (hc : s.connections[i]? = some c)
    (hhandler : c.handler = .refusal r) : s.stepHandler i
      = (r.step s.clock c.output).map fun next =>
          (s.modifyConnection i fun c =>
            { c with output := next.output, handler := .refusal next.refusal }, next.effort) := by
  unfold stepHandler
  simp only [hc, Option.bind_eq_bind, Option.bind_some, hhandler]
  cases r.step s.clock c.output <;> rfl

/-- Whoever takes a step is a session or a refusal. -/
theorem stepHandler_cases {effort : Nat} (h : s.stepHandler i = some (s', effort)) :
    (∃ c session next, s.connections[i]? = some c ∧ c.handler = .session session ∧
        session.Transition s.outlook c.output next ∧ s' = s.afterSession i c.id next) ∨
      ∃ c r next, s.connections[i]? = some c ∧ c.handler = .refusal r ∧
        r.step s.clock c.output = some next ∧
        s' = s.modifyConnection i fun c =>
          { c with output := next.output, handler := .refusal next.refusal } := by
  cases hc : s.connections[i]? with
  | none => simp [stepHandler, hc] at h
  | some c =>
    cases hhandler : c.handler with
    | session session =>
      rw [stepHandler_session hc hhandler, Option.map_eq_some_iff] at h
      obtain ⟨next, hstep, heq⟩ := h
      cases heq
      exact .inl ⟨c, session, next, rfl, hhandler, Session.transition_of_step hstep, rfl⟩
    | refusal r =>
      rw [stepHandler_refusal hc hhandler, Option.map_eq_some_iff] at h
      obtain ⟨next, hstep, heq⟩ := h
      cases heq
      exact .inr ⟨c, r, next, rfl, hhandler, hstep, rfl⟩
    | outside | released => simp [stepHandler, hc, hhandler] at h

/-! ### The registry -/

/-- The first command is carried out, and its session hears the reply. -/
def answer (s : Service) (i : Nat) (table : Registry) (mailbox : List (Nat × RegistryCommand))
    (reply : RegistryReply) : Service :=
  { s with registry := { s.registry with table, mailbox } }.modifySession i fun session =>
    session.hear reply

theorem stepRegistry_cases {effort : Nat} (h : s.stepRegistry = some (s', effort)) :
    ∃ i command mailbox, s.registry.mailbox = (i, command) :: mailbox ∧
      s' = s.answer i (s.registry.table.handle command).1 mailbox
        (s.registry.table.handle command).2 := by
  unfold stepRegistry at h
  split at h
  · cases h
  · rename_i i command mailbox hmailbox
    exact ⟨i, command, mailbox, hmailbox, (congrArg Prod.fst (Option.some.inj h)).symm⟩

/-! ### The worker -/

@[simp] theorem afterWorker_worker (s : Service) (i : Nat) (next : WorkerStep) :
    (s.afterWorker i next).1.worker = next.worker := rfl
@[simp] theorem afterWorker_queue (s : Service) (i : Nat) (next : WorkerStep) :
    (s.afterWorker i next).1.queue = s.queue := rfl

theorem afterWorker_output? (s : Service) (k i : Nat) (next : WorkerStep) :
    (s.afterWorker k next).1.output? i
      = if k = i then (s.output? i).map fun _ => next.output else s.output? i := by
  show (s.modifyConnection k fun c => { c with output := next.output }).output? i = _
  rw [output?_modifyConnection]
  split
  · rw [output?, Option.map_map]
    rfl
  · rfl

/-- **All that the worker can do.** The last index is the service after it; how much effort it took
    does not matter here. -/
inductive WorkerTransition (s : Service) : Service → Prop where
  /-- It takes up a request. -/
  | take {request : Request} {waiting : List Request} {output : Channel} {n : Nat}
      (hphase : s.worker.phase = .idle) (hwaiting : s.queue.waiting = request :: waiting)
      (houtput : s.output? request.connection = some output) (hbroken : output.broken = false) :
      WorkerTransition s
        ({ s with queue := { s.queue with waiting } }.afterWorker request.connection
          ⟨{ s.worker with phase := .answering request request.outcome }, output,
            [request.receivedEntry, request.evaluatedEntry request.outcome], n⟩).1
  /-- It takes up a request that cannot be answered, and is done with it. -/
  | skip {request : Request} {waiting : List Request} {output : Channel} {n : Nat}
      (hphase : s.worker.phase = .idle) (hwaiting : s.queue.waiting = request :: waiting)
      (houtput : s.output? request.connection = some output) (hbroken : output.broken = true) :
      WorkerTransition s
        ({ s with queue := { s.queue with waiting } }.afterWorker request.connection
          ⟨s.worker.complete request request.outcome false, output,
            [request.receivedEntry, request.evaluatedEntry request.outcome,
              request.undeliveredEntry .broken], n⟩).1
  /-- It ends, for no request can come any more. -/
  | stop (hphase : s.worker.phase = .idle) (hwaiting : s.queue.waiting = [])
      (hmay : s.mayRequest = false) :
      WorkerTransition s
        { s with worker := { s.worker with phase := .stopped }, queue := s.queue.close }
  /-- It starts a reply. -/
  | answer {request : Request} {outcome : Outcome} {output : Channel} {n : Nat}
      (hphase : s.worker.phase = .answering request outcome)
      (houtput : s.output? request.connection = some output) :
      WorkerTransition s
        (s.afterWorker request.connection
          ⟨{ s.worker with phase := .replying request outcome output.nextTicket },
            (output.startLine (request.reply outcome).line).1, [], n⟩).1
  /-- It carries on with a reply. -/
  | write {request : Request} {outcome : Outcome} {ticket n : Nat} {output : Channel}
      (hphase : s.worker.phase = .replying request outcome ticket)
      (houtput : s.output? request.connection = some output)
      (hready : output.isReady s.clock ticket = true)
      (hprogress : (output.poll s.clock ticket).progress = none) :
      WorkerTransition s
        (s.afterWorker request.connection
          ⟨s.worker, (output.poll s.clock ticket).channel, [], n⟩).1
  /-- The reply is written. -/
  | deliver {request : Request} {outcome : Outcome} {ticket n : Nat} {output : Channel}
      (hphase : s.worker.phase = .replying request outcome ticket)
      (houtput : s.output? request.connection = some output)
      (hready : output.isReady s.clock ticket = true)
      (hprogress : (output.poll s.clock ticket).progress = some (.ok ())) :
      WorkerTransition s
        (s.afterWorker request.connection
          ⟨s.worker.complete request outcome true, (output.poll s.clock ticket).channel, [], n⟩).1
  /-- The reply cannot be written. -/
  | fail {request : Request} {outcome : Outcome} {ticket n : Nat} {output : Channel}
      {e : WriteError} (hphase : s.worker.phase = .replying request outcome ticket)
      (houtput : s.output? request.connection = some output)
      (hready : output.isReady s.clock ticket = true)
      (hprogress : (output.poll s.clock ticket).progress = some (.error e)) :
      WorkerTransition s
        (s.afterWorker request.connection
          ⟨s.worker.complete request outcome false, (output.poll s.clock ticket).channel,
            [request.undeliveredEntry e], n⟩).1

theorem workerTransition_take {request : Request} {waiting : List Request} {output : Channel}
    (hphase : s.worker.phase = .idle) (hwaiting : s.queue.waiting = request :: waiting)
    (houtput : s.output? request.connection = some output) :
    WorkerTransition s
      ({ s with queue := { s.queue with waiting } }.afterWorker request.connection
        (s.worker.take request output)).1 := by
  unfold Worker.take
  split
  · rename_i hbroken
    exact .skip hphase hwaiting houtput hbroken
  · rename_i hbroken
    exact .take hphase hwaiting houtput (by simpa using hbroken)

theorem workerTransition_proceed {request : Request} {outcome : Outcome} {ticket : Nat}
    {output : Channel} (hphase : s.worker.phase = .replying request outcome ticket)
    (houtput : s.output? request.connection = some output)
    (hready : output.isReady s.clock ticket = true) :
    WorkerTransition s
      (s.afterWorker request.connection
        (s.worker.proceed s.clock request outcome ticket output)).1 := by
  cases hprogress : (output.poll s.clock ticket).progress with
  | none =>
    simp only [Worker.proceed, hprogress]
    exact .write hphase houtput hready hprogress
  | some result =>
    cases result with
    | ok =>
      simp only [Worker.proceed, hprogress]
      exact .deliver hphase houtput hready hprogress
    | error e =>
      simp only [Worker.proceed, hprogress]
      exact .fail hphase houtput hready hprogress

theorem workerTransition_of_step {effort : Nat} (h : s.stepWorker = some (s', effort)) :
    WorkerTransition s s' := by
  unfold stepWorker at h
  cases hphase : s.worker.phase with
  | idle =>
    simp only [hphase] at h
    unfold takeRequest at h
    cases hwaiting : s.queue.waiting with
    | nil =>
      simp only [RequestQueue.next?, hwaiting] at h
      split at h
      · cases h
      · rename_i hmay
        cases h
        exact .stop hphase hwaiting (by simpa using hmay)
    | cons request waiting =>
      simp only [RequestQueue.next?, hwaiting, Option.map_eq_some_iff] at h
      obtain ⟨output, houtput, heq⟩ := h
      obtain rfl : _ = s' := congrArg Prod.fst heq
      exact workerTransition_take hphase hwaiting houtput
  | answering request outcome =>
    simp only [hphase, Option.map_eq_some_iff] at h
    obtain ⟨output, houtput, heq⟩ := h
    obtain rfl : _ = s' := congrArg Prod.fst heq
    exact .answer hphase houtput
  | replying request outcome ticket =>
    simp only [hphase] at h
    obtain ⟨output, houtput, h⟩ := Option.bind_eq_some_iff.mp h
    split at h
    · rename_i hready
      obtain rfl : _ = s' := congrArg Prod.fst (Option.some.inj h)
      exact workerTransition_proceed hphase houtput hready
    · cases h
  | stopped | killed => simp [hphase] at h

theorem WorkerTransition.registry (h : WorkerTransition s s') : s'.registry = s.registry := by
  cases h <;> rfl

/-! ### Moves -/

@[simp] theorem applyAll_nil (s : Service) : s.applyAll [] = s := rfl

@[simp] theorem applyAll_cons (s : Service) (m : Move) (moves : List Move) :
    s.applyAll (m :: moves) = (s.apply m).applyAll moves := rfl

theorem applyAll_append (s : Service) (moves later : List Move) :
    s.applyAll (moves ++ later) = (s.applyAll moves).applyAll later := List.foldl_append

theorem applyAll_concat (s : Service) (moves : List Move) (m : Move) :
    s.applyAll (moves ++ [m]) = (s.applyAll moves).apply m := s.applyAll_append moves [m]

/-- What every move keeps, all runs keep. -/
theorem applyAll_induction {P : Service → Prop}
    (hstep : ∀ {s : Service} (m : Move), P s → P (s.apply m)) (h : P s) (moves : List Move) :
    P (s.applyAll moves) := by
  induction moves generalizing s with
  | nil => exact h
  | cons m moves ih => exact ih (hstep m h)

theorem Reachable.applyAll {limits : SessionLimits} {queueCapacity : Nat}
    (h : Reachable limits queueCapacity s) (moves : List Move) :
    Reachable limits queueCapacity (s.applyAll moves) :=
  applyAll_induction (fun m hs => hs.move m) h moves

/-- A move of a handler is a step of it, or nothing. -/
theorem apply_handler (s : Service) (i : Nat) : s.apply (.handler i) = s ∨
    ∃ effort, s.stepHandler i = some (s.apply (.handler i), effort) := by
  show ((s.stepHandler i).map Prod.fst).getD s = s ∨
    ∃ effort, s.stepHandler i = some (((s.stepHandler i).map Prod.fst).getD s, effort)
  cases hstep : s.stepHandler i with
  | none => exact .inl rfl
  | some result => exact .inr ⟨result.2, rfl⟩

theorem apply_registry (s : Service) : s.apply .registry = s ∨
    ∃ effort, s.stepRegistry = some (s.apply .registry, effort) := by
  show (s.stepRegistry.map Prod.fst).getD s = s ∨
    ∃ effort, s.stepRegistry = some ((s.stepRegistry.map Prod.fst).getD s, effort)
  cases hstep : s.stepRegistry with
  | none => exact .inl rfl
  | some result => exact .inr ⟨result.2, rfl⟩

theorem apply_worker (s : Service) : s.apply .worker = s ∧ s.stepWorker = none ∨
    ∃ s', s.apply .worker = s' ∧ s.WorkerTransition s' := by
  show (s.stepWorker.map Prod.fst).getD s = s ∧ s.stepWorker = none ∨
    ∃ s', (s.stepWorker.map Prod.fst).getD s = s' ∧ s.WorkerTransition s'
  cases hstep : s.stepWorker with
  | none => exact .inl ⟨rfl, rfl⟩
  | some result => exact .inr ⟨_, rfl, workerTransition_of_step hstep⟩

/-- A request from outside is queued up, or nothing happens. -/
theorem apply_submit (s : Service) (request : Request) : s.apply (.submit request) = s ∨
    s.takesRequest request = true ∧ s.queue.refusal? = none ∧
      s.apply (.submit request) = { s with queue := s.queue.push request } := by
  simp only [apply]
  split
  · rename_i htakes
    unfold submit RequestQueue.submit
    cases hrefusal : s.queue.refusal? with
    | some e => exact .inl rfl
    | none => exact .inr ⟨htakes, rfl, rfl⟩
  · exact .inl rfl

/-- To end the worker by force closes the queue, and leaves the reply where it is. -/
theorem killWorker_cases (s : Service) : s.killWorker = s ∧ s.worker.hasEnded = true ∨
    s.worker.hasEnded = false ∧ ∃ before : Service,
      ((before = s ∧ ∀ request outcome ticket,
          s.worker.phase ≠ .replying request outcome ticket) ∨
        ∃ request outcome ticket, s.worker.phase = .replying request outcome ticket ∧
          before = s.modifyOutput request.connection (·.abandon ticket)) ∧
      s.killWorker = { before with
        worker := { s.worker with phase := .killed }, queue := s.queue.close } := by
  unfold killWorker
  cases hended : s.worker.hasEnded with
  | true => exact .inl ⟨rfl, rfl⟩
  | false =>
    refine .inr ⟨rfl, ?_⟩
    cases hphase : s.worker.phase with
    | replying request outcome ticket =>
      exact ⟨_, .inr ⟨request, outcome, ticket, rfl, rfl⟩, rfl⟩
    | idle | answering | stopped | killed => exact ⟨s, .inl ⟨rfl, nofun⟩, rfl⟩

/-! ### What a move leaves alone -/

/-- **What a move leaves alone**, unless that is what the move is about. -/
structure Frame (s : Service) (m : Move) (s' : Service) : Prop where
  limits : s'.limits = s.limits
  length : s.connections.length ≤ s'.connections.length
  held : m ≠ .release → s'.queueHeld = s.queueHeld
  cancelled : m ≠ .cancel → s'.cancelled = s.cancelled
  runs : m ≠ .killRegistry → s'.registry.runs = s.registry.runs

theorem Frame.refl (s : Service) (m : Move) : Frame s m s :=
  ⟨rfl, Nat.le_refl _, fun _ => rfl, fun _ => rfl, fun _ => rfl⟩

/-- A change of one connection leaves all of it alone. -/
theorem Frame.modifyConnection (s : Service) (m : Move) (i : Nat) (f : Connection → Connection) :
    Frame s m (s.modifyConnection i f) :=
  ⟨rfl, Nat.le_of_eq (length_modifyConnection ..).symm, fun _ => rfl, fun _ => rfl, fun _ => rfl⟩

theorem Frame.addConnection (s : Service) (m : Move) (output : Channel) (handler : Handler) :
    Frame s m (s.addConnection output handler) := by
  refine ⟨rfl, ?_, fun _ => rfl, fun _ => rfl, fun _ => rfl⟩
  show s.connections.length ≤ (s.connections ++ [_]).length
  rw [List.length_append]
  omega

theorem Frame.afterSession (s : Service) (m : Move) (i id : Nat) (next : SessionStep) :
    Frame s m (s.afterSession i id next) := by
  have hlength : (s.afterSession i id next).connections.length = s.connections.length := by
    rw [afterSession_connections, length_modifyConnection]
  have hrest : (s.afterSession i id next).limits = s.limits ∧
      (s.afterSession i id next).queueHeld = s.queueHeld ∧
      (s.afterSession i id next).cancelled = s.cancelled ∧
      (s.afterSession i id next).registry.runs = s.registry.runs := by
    unfold Service.afterSession
    cases next.errand with
    | none => exact ⟨rfl, rfl, rfl, rfl⟩
    | some errand => cases errand <;> exact ⟨rfl, rfl, rfl, rfl⟩
  obtain ⟨hlimits, hheld, hcancelled, hruns⟩ := hrest
  exact ⟨hlimits, Nat.le_of_eq hlength.symm, fun _ => hheld, fun _ => hcancelled, fun _ => hruns⟩

theorem frame_apply (s : Service) (m : Move) : Frame s m (s.apply m) := by
  have hmodify (i : Nat) (f : Connection → Connection) : Frame s m (s.modifyConnection i f) :=
    .modifyConnection s m i f
  cases m with
  | handler k =>
    rcases s.apply_handler k with heq | ⟨effort, hstep⟩
    · rw [heq]
      exact .refl s _
    rcases stepHandler_cases hstep with
      ⟨c, session, next, -, -, -, heq⟩ | ⟨c, r, next, -, -, -, heq⟩ <;> rw [heq]
    · exact .afterSession s _ k c.id next
    · exact hmodify _ _
  | registry =>
    rcases s.apply_registry with heq | ⟨effort, hstep⟩
    · rw [heq]
      exact .refl s _
    · obtain ⟨source, command, mailbox, -, heq⟩ := stepRegistry_cases hstep
      rw [heq]
      have h := hmodify source id
      exact ⟨rfl, Nat.le_of_eq (length_modifyConnection ..).symm, h.held, h.cancelled, h.runs⟩
  | worker =>
    rcases s.apply_worker with ⟨heq, -⟩ | ⟨s', heq, hstep⟩ <;> rw [heq]
    · exact .refl s _
    cases hstep with
    | stop => exact ⟨rfl, Nat.le_refl _, fun _ => rfl, fun _ => rfl, fun _ => rfl⟩
    | take | skip | answer | write | deliver | fail =>
      have h := hmodify 0 id
      exact ⟨rfl, Nat.le_of_eq (length_modifyConnection ..).symm, h.held, h.cancelled, h.runs⟩
  | connect =>
    simp only [apply]
    split
    · exact .addConnection ..
    · exact .refl s _
  | refuse | attach => exact .addConnection ..
  | detach | arrive | finish | read | deafen => exact hmodify _ _
  | submit request =>
    rcases s.apply_submit request with heq | ⟨-, -, heq⟩ <;> rw [heq]
    · exact .refl s _
    · exact ⟨rfl, Nat.le_refl _, fun _ => rfl, fun _ => rfl, fun _ => rfl⟩
  | killWorker =>
    show Frame s _ s.killWorker
    rcases s.killWorker_cases with ⟨heq, -⟩ | ⟨-, before, hbefore, heq⟩ <;> rw [heq]
    · exact .refl s _
    rcases hbefore with ⟨rfl, -⟩ | ⟨request, outcome, ticket, -, rfl⟩
    · exact ⟨rfl, Nat.le_refl _, fun _ => rfl, fun _ => rfl, fun _ => rfl⟩
    · have h := hmodify request.connection fun c => { c with output := c.output.abandon ticket }
      exact ⟨h.limits, h.length, h.held, h.cancelled, h.runs⟩
  | wait | age => exact ⟨rfl, Nat.le_refl _, fun _ => rfl, fun _ => rfl, fun _ => rfl⟩
  | cancel => exact ⟨rfl, Nat.le_refl _, fun _ => rfl, fun hne => absurd rfl hne, fun _ => rfl⟩
  | release => exact ⟨rfl, Nat.le_refl _, fun hne => absurd rfl hne, fun _ => rfl, fun _ => rfl⟩
  | killRegistry =>
    exact ⟨rfl, Nat.le_refl _, fun _ => rfl, fun _ => rfl, fun hne => absurd rfl hne⟩

/-- The order to shut down is never taken back. -/
theorem cancelled_apply (h : s.cancelled = true) (m : Move) : (s.apply m).cancelled = true := by
  by_cases hm : m = .cancel
  · rw [hm]
    rfl
  · rw [(s.frame_apply m).cancelled hm, h]

/-! ### Sessions -/

/-- How one move changes a session: it takes a step, hears an answer, or gets input. -/
inductive SessionChange (s : Service) (session : Session) : Session → Prop where
  /-- It takes a step. -/
  | step {out : Channel} {next : SessionStep} (h : session.Transition s.outlook out next) :
      SessionChange s session next.session
  /-- It hears an answer of the registry. -/
  | hear (reply : RegistryReply) : SessionChange s session (session.hear reply)
  /-- Something comes from the client. -/
  | input (input : Input) : SessionChange s session { session with input }

/-- How the session of a connection changes in a move without a step of its own. -/
inductive Touched (j : Nat) (session : Session) : Move → Session → Prop where
  /-- It hears an answer of the registry. -/
  | hear (reply : RegistryReply) : Touched j session .registry (session.hear reply)
  /-- Bytes come from the client. -/
  | arrive (chunk : Bytes) :
      Touched j session (.arrive j chunk) { session with input := session.input.arrive chunk }
  /-- The input ends. -/
  | finish (ending : InputEnd) :
      Touched j session (.finish j ending) { session with input := session.input.finish ending }

theorem Touched.change {m : Move} {session session' : Session} (h : Touched j session m session') :
    s.SessionChange session session' := by
  cases h with
  | hear reply => exact .hear reply
  | arrive | finish => exact .input _

/-- Changes of outputs are none of sessions. -/
theorem session?_modifyOutput (s : Service) (i j : Nat) (f : Channel → Channel) :
    (s.modifyOutput i f).session? j = s.session? j := by
  rw [modifyOutput, session?_modifyConnection]
  split <;> rfl

/-- Nor are the steps of the worker. -/
theorem session?_afterWorker (s : Service) (i j : Nat) (next : WorkerStep) :
    (s.afterWorker i next).1.session? j = s.session? j :=
  s.session?_modifyOutput i j fun _ => next.output

theorem session_of_modifySession {f : Session → Session} {session' : Session}
    (h : (s.modifySession i f).session? j = some session') :
    s.session? j = some session' ∨
      i = j ∧ ∃ session, s.session? j = some session ∧ session' = f session := by
  rw [session?_modifySession] at h
  split at h
  · rename_i hij
    obtain ⟨session, hsession, rfl⟩ := Option.map_eq_some_iff.mp h
    exact .inr ⟨hij, session, hsession, rfl⟩
  · exact .inl h

theorem session_of_addConnection {output : Channel} {handler : Handler} {session' : Session}
    (h : (s.addConnection output handler).session? j = some session') :
    s.session? j = some session' ∨
      j = s.connections.length ∧ handler.session? = some session' := by
  rw [session?_addConnection] at h
  split at h
  · rename_i hj
    exact .inr ⟨hj, h⟩
  · exact .inl h

/-- A step of a handler changes its session, if it has one, and no other. -/
theorem session_of_handler {session' : Session}
    (h : (s.apply (.handler i)).session? j = some session') :
    s.session? j = some session' ∨
      ∃ session, s.session? j = some session ∧ s.SessionChange session session' := by
  rcases s.apply_handler i with heq | ⟨effort, hstep⟩
  · rw [heq] at h
    exact .inl h
  rcases stepHandler_cases hstep with
    ⟨c, session, next, hc, hhandler, htransition, heq⟩ | ⟨c, r, next, hc, -, -, heq⟩
  · rw [heq, session?_afterSession hc] at h
    split at h
    · rename_i hij
      subst hij
      cases h
      exact .inr ⟨session, session?_of_handler hc hhandler, .step htransition⟩
    · exact .inl h
  · rw [heq, session?_modifyConnection] at h
    split at h
    · obtain ⟨c, -, hnone⟩ := Option.bind_eq_some_iff.mp h
      cases hnone
    · exact .inl h

theorem session?_apply_worker (s : Service) (j : Nat) :
    (s.apply .worker).session? j = s.session? j := by
  rcases s.apply_worker with ⟨heq, -⟩ | ⟨s', heq, hstep⟩ <;> rw [heq]
  cases hstep with
  | stop => rfl
  | take | skip | answer | write | deliver | fail => exact session?_afterWorker ..

theorem session?_killWorker (s : Service) (j : Nat) : s.killWorker.session? j = s.session? j := by
  rcases s.killWorker_cases with ⟨heq, -⟩ | ⟨-, before, hbefore, heq⟩ <;> rw [heq]
  show before.session? j = _
  rcases hbefore with ⟨rfl, -⟩ | ⟨request, outcome, ticket, -, rfl⟩
  · rfl
  · exact session?_modifyOutput ..

/-- To give up an output ends no session, and begins none. -/
theorem session?_detach (s : Service) (i j : Nat) : (s.detach i).session? j = s.session? j := by
  rw [detach, session?_modifyConnection]
  split
  · rw [session?]
    refine Option.bind_congr fun c _ => ?_
    split
    · rename_i houtside
      rw [houtside]
      rfl
    · rfl
  · rfl

/-- A move that is no step of a handler leaves sessions as they are, or has them hear an answer or
    get input; and a session may begin, on a new connection. -/
theorem session_of_other {m : Move} (hm : ∀ k, m ≠ .handler k) {session' : Session}
    (h : (s.apply m).session? j = some session') :
    (s.session? j = some session' ∨
      ∃ session, s.session? j = some session ∧ Touched j session m session') ∨
      ∃ peer capacity timeout, m = .connect peer capacity timeout ∧ j = s.connections.length ∧
        session' = { peer, phase := .reading s.clock } := by
  cases m with
  | handler k => exact absurd rfl (hm k)
  | registry =>
    rcases s.apply_registry with heq | ⟨effort, hstep⟩
    · rw [heq] at h
      exact .inl (.inl h)
    obtain ⟨source, command, mailbox, -, heq⟩ := stepRegistry_cases hstep
    rw [heq] at h
    refine .inl ((session_of_modifySession h).imp_right ?_)
    rintro ⟨-, session, hsession, rfl⟩
    exact ⟨session, hsession, .hear _⟩
  | worker => exact .inl (.inl (by rwa [session?_apply_worker] at h))
  | connect peer capacity timeout =>
    simp only [apply] at h
    split at h
    · refine (session_of_addConnection h).imp .inl ?_
      rintro ⟨hj, hsession⟩
      cases hsession
      exact ⟨peer, capacity, timeout, rfl, hj, rfl⟩
    · exact .inl (.inl h)
  | refuse | attach => exact .inl (.inl (
      (session_of_addConnection h).resolve_right fun hnew => nomatch hnew.2))
  | detach i => exact .inl (.inl ((s.session?_detach i j).symm.trans h))
  | submit request =>
    rcases s.apply_submit request with heq | ⟨-, -, heq⟩ <;> rw [heq] at h <;> exact .inl (.inl h)
  | arrive i chunk =>
    refine .inl ((session_of_modifySession h).imp_right ?_)
    rintro ⟨rfl, session, hsession, rfl⟩
    exact ⟨session, hsession, .arrive chunk⟩
  | finish i ending =>
    refine .inl ((session_of_modifySession h).imp_right ?_)
    rintro ⟨rfl, session, hsession, rfl⟩
    exact ⟨session, hsession, .finish ending⟩
  | read i | deafen i => exact .inl (.inl ((s.session?_modifyOutput i j _).symm.trans h))
  | wait | age | cancel | release | killRegistry => exact .inl (.inl h)
  | killWorker => exact .inl (.inl ((s.session?_killWorker j).symm.trans h))

/-- **Where a session comes from.** After a move it is as before, has changed, or has just begun. -/
theorem session_of_apply {m : Move} {session' : Session}
    (h : (s.apply m).session? j = some session') :
    (s.session? j = some session' ∨
      ∃ session, s.session? j = some session ∧ s.SessionChange session session') ∨
      ∃ peer, session' = { peer, phase := .reading s.clock } := by
  by_cases hm : ∃ k, m = .handler k
  · obtain ⟨k, rfl⟩ := hm
    exact .inl (session_of_handler h)
  · rcases session_of_other (fun k hk => hm ⟨k, hk⟩) h with
      (hsame | ⟨session, hsession, htouched⟩) | ⟨peer, _, _, -, -, hnew⟩
    · exact .inl (.inl hsame)
    · exact .inl (.inr ⟨session, hsession, htouched.change⟩)
    · exact .inr ⟨peer, hnew⟩

/-- What holds of every session at its beginning, and stays so when it changes, always holds. -/
theorem session_induction {P : Session → Prop}
    (hbegins : ∀ peer since, P { peer, phase := .reading since })
    (hchanges : ∀ {s : Service} {session session' : Session}, s.SessionChange session session' →
      P session → P session') {limits : SessionLimits} {queueCapacity : Nat}
    (h : Reachable limits queueCapacity s) {session : Session}
    (hsession : s.session? i = some session) : P session := by
  induction h generalizing session with
  | start => cases hsession
  | move m _ ih =>
    rcases session_of_apply hsession with (hbefore | ⟨before, hbefore, hchange⟩) | ⟨peer, rfl⟩
    · exact ih hbefore
    · exact hchanges hchange (ih hbefore)
    · exact hbegins peer _

end Service

end Reckoner
