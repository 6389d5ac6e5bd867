import Reckoner.Proofs.Service.Step
import Reckoner.Proofs.Session.Tickets

/-!
# Outputs and their users

* `Service.Sharing` — every output is shared by the handler of its connection and the worker, and
  requests name connections that are there.
* `Service.Sharing.apply` — every move keeps it so.
-/

namespace Reckoner

/-- The ticket of the job that whoever looks after a connection has on its output. -/
def Handler.ticket? : Handler → Option Nat
  | session s => s.ticket?
  | refusal r => r.ticket?
  | outside | released => none

/-- The ticket of the job that the worker has on the output of a connection. -/
def Worker.ticketOn? (w : Worker) (i : Nat) : Option Nat :=
  match w.phase with
  | .replying request _ ticket => if request.connection = i then some ticket else none
  | _ => none

theorem Worker.ticketOn?_replying {w : Worker} {request : Request} {outcome : Outcome}
    {ticket : Nat} (h : w.phase = .replying request outcome ticket) :
    w.ticketOn? request.connection = some ticket ∧
      ∀ j ≠ request.connection, w.ticketOn? j = none := by
  unfold Worker.ticketOn?
  rw [h]
  exact ⟨if_pos rfl, fun j hj => if_neg (Ne.symm hj)⟩

theorem Worker.ticketOn?_of_not_replying {w : Worker}
    (h : ∀ request outcome ticket, w.phase ≠ .replying request outcome ticket) (i : Nat) :
    w.ticketOn? i = none := by
  unfold Worker.ticketOn?
  split
  · exact absurd ‹_› (h _ _ _)
  · rfl

/-- The worker has a job on an output while it replies to a request of its client. -/
theorem Worker.replying_of_ticketOn? {w : Worker} {i ticket : Nat}
    (h : w.ticketOn? i = some ticket) : ∃ request outcome,
      w.phase = .replying request outcome ticket ∧ request.connection = i := by
  unfold Worker.ticketOn? at h
  split at h
  · rename_i request outcome other hphase
    obtain ⟨rfl, heq⟩ := Option.ite_some_none_eq_some.mp h
    exact ⟨request, outcome, by rw [hphase, heq], rfl⟩
  · cases h

namespace Service

variable {s s' : Service} {i : Nat}

/-- **Sharing.** The jobs on every output are those of its handler and of the worker, and the
    connections that requests name are there. -/
structure Sharing (s : Service) : Prop where
  shared : ∀ {i : Nat} {c : Connection}, s.connections[i]? = some c →
    c.output.Shared c.handler.ticket? (s.worker.ticketOn? i)
  waiting : ∀ request ∈ s.queue.waiting, request.connection < s.connections.length
  taken : ∀ request ∈ s.worker.request?, request.connection < s.connections.length

theorem sharing_start (limits : SessionLimits) (queueCapacity : Nat) :
    (start limits queueCapacity).Sharing := by
  constructor <;> simp [start, Worker.request?]

/-- The same connections, queue and worker. -/
theorem Sharing.congr (h : s.Sharing) (hconnections : s'.connections = s.connections)
    (hqueue : s'.queue = s.queue) (hworker : s'.worker = s.worker) : s'.Sharing := by
  obtain ⟨hshared, hwaiting, htaken⟩ := h
  refine ⟨?_, ?_, ?_⟩
  · rw [hconnections, hworker]
    exact hshared
  · rw [hconnections, hqueue]
    exact hwaiting
  · rw [hconnections, hworker]
    exact htaken

/-- A change of one connection that its output and its handler allow. -/
theorem Sharing.modifyConnection (h : s.Sharing) (i : Nat) {f : Connection → Connection}
    (hf : ∀ c, s.connections[i]? = some c →
      (f c).output.Shared (f c).handler.ticket? (s.worker.ticketOn? i)) :
    (s.modifyConnection i f).Sharing := by
  refine ⟨?_, ?_, ?_⟩
  · intro j c hc
    rw [getElem?_modifyConnection] at hc
    split at hc
    · rename_i hj
      subst hj
      obtain ⟨before, hbefore, rfl⟩ := Option.map_eq_some_iff.mp hc
      exact hf before hbefore
    · exact h.shared hc
  · intro request hrequest
    rw [length_modifyConnection]
    exact h.waiting request hrequest
  · intro request hrequest
    rw [length_modifyConnection]
    exact h.taken request hrequest

theorem Sharing.modifyPipe (h : s.Sharing) (i : Nat) (f : Pipe → Pipe) :
    (s.modifyPipe i f).Sharing :=
  h.modifyConnection i fun _ hc => (h.shared hc).congr rfl rfl rfl

theorem Sharing.modifySession (h : s.Sharing) (i : Nat) {f : Session → Session}
    (hf : ∀ session, (f session).ticket? = session.ticket?) : (s.modifySession i f).Sharing := by
  refine h.modifyConnection i ?_
  intro c hc
  have hshared := h.shared hc
  split
  · rename_i session hhandler
    rw [hhandler] at hshared
    show c.output.Shared (f session).ticket? _
    rw [hf]
    exact hshared
  · exact hshared

theorem Sharing.addConnection (h : s.Sharing) (capacity timeout : Nat) {handler : Handler}
    (hnone : handler.ticket? = none) :
    (s.addConnection (.create capacity timeout) handler).Sharing := by
  have hlength : (s.addConnection (.create capacity timeout) handler).connections.length
      = s.connections.length + 1 := List.length_append
  -- The worker's request names a connection that was there before.
  have hworker : s.worker.ticketOn? s.connections.length = none := by
    unfold Worker.ticketOn?
    split
    · rename_i request outcome ticket hphase
      have hlt := h.taken request (by rw [Worker.request?, hphase]; rfl)
      rw [if_neg (by omega)]
    · rfl
  refine ⟨?_, ?_, ?_⟩
  · intro j c hc
    rw [getElem?_addConnection] at hc
    split at hc
    · rename_i hj
      cases hc
      show (Channel.create capacity timeout).Shared handler.ticket? (s.worker.ticketOn? j)
      rw [hnone, hj, hworker]
      exact Channel.shared_create capacity timeout
    · exact h.shared hc
  · intro request hrequest
    rw [hlength]
    exact Nat.lt_succ_of_lt (h.waiting request hrequest)
  · intro request hrequest
    rw [hlength]
    exact Nat.lt_succ_of_lt (h.taken request hrequest)

/-- A request joins the queue. -/
theorem Sharing.push (h : s.Sharing) {request : Request}
    (hrequest : request.connection < s.connections.length) :
    Sharing { s with queue := s.queue.push request } := by
  refine ⟨h.shared, ?_, h.taken⟩
  intro other hother
  rcases List.mem_append.mp hother with hother | hother
  · exact h.waiting other hother
  · rw [List.mem_singleton.mp hother]
    exact hrequest

/-- The answers that the registry gives have nothing to do with outputs. -/
theorem ticket?_hear (session : Session) (reply : RegistryReply) :
    (session.hear reply).ticket? = session.ticket? := by
  unfold Session.hear
  split <;> simp_all [Session.ticket?]

/-! ### Handlers -/

theorem Sharing.handler (h : s.Sharing) {effort : Nat}
    (hstep : s.stepHandler i = some (s', effort)) : s'.Sharing := by
  rcases stepHandler_cases hstep with
    ⟨c, session, next, hc, hhandler, htransition, rfl⟩ | ⟨c, r, next, hc, hhandler, hnext, rfl⟩
  · have hshared := h.shared hc
    rw [hhandler] at hshared
    have hmodified : (s.modifyConnection i fun c =>
        { c with output := next.output, handler := .session next.session }).Sharing := by
      refine h.modifyConnection i ?_
      intro c' hc'
      exact htransition.shared hshared
    -- A request names the connection that it comes from.
    have hlt : i < s.connections.length := (List.getElem?_eq_some_iff.mp hc).1
    unfold afterSession
    cases next.errand with
    | none => exact hmodified.congr rfl rfl rfl
    | some errand =>
      cases errand with
      | register | deregister => exact hmodified.congr rfl rfl rfl
      | submit client expression =>
        have hthere : (⟨client, expression, i⟩ : Request).connection
            < (s.modifyConnection i fun c => { c with
                output := next.output, handler := .session next.session }).connections.length := by
          rw [length_modifyConnection]
          exact hlt
        exact (hmodified.push hthere).congr rfl rfl rfl
  · have hshared := h.shared hc
    rw [hhandler] at hshared
    refine h.modifyConnection i ?_
    intro c' hc'
    exact Refusal.shared_of_step hnext hshared

/-! ### The worker -/

theorem output?_eq_some {output : Channel} (h : s.output? i = some output) :
    ∃ c, s.connections[i]? = some c ∧ c.output = output :=
  Option.map_eq_some_iff.mp h

/-- A step of the worker touches one output, on which it may start, carry on or end its job. -/
theorem Sharing.afterWorker (h : s.Sharing) {i : Nat} {c : Connection}
    (hc : s.connections[i]? = some c) {next : WorkerStep}
    (hidle : ∀ j ≠ i, s.worker.ticketOn? j = none)
    (hother : ∀ j ≠ i, next.worker.ticketOn? j = none)
    (hshared : next.output.Shared c.handler.ticket? (next.worker.ticketOn? i))
    (htaken : ∀ request ∈ next.worker.request?, request.connection = i) :
    (s.afterWorker i next).1.Sharing := by
  refine ⟨?_, ?_, ?_⟩
  · intro j c' hc'
    show c'.output.Shared c'.handler.ticket? (next.worker.ticketOn? j)
    have hc' : (s.modifyConnection i fun c => { c with output := next.output }).connections[j]?
        = some c' := hc'
    rw [getElem?_modifyConnection] at hc'
    split at hc'
    · rename_i hj
      subst hj
      rw [hc, Option.map_some, Option.some.injEq] at hc'
      subst hc'
      exact hshared
    · rename_i hj
      have hbefore := h.shared hc'
      rw [hidle j (Ne.symm hj)] at hbefore
      rw [hother j (Ne.symm hj)]
      exact hbefore
  · intro request hrequest
    show request.connection < (s.modifyConnection i _).connections.length
    rw [length_modifyConnection]
    exact h.waiting request hrequest
  · intro request hrequest
    show request.connection < (s.modifyConnection i _).connections.length
    rw [length_modifyConnection, htaken request hrequest]
    exact (List.getElem?_eq_some_iff.mp hc).1

/-- The rest of the queue still names connections that are there. -/
theorem Sharing.rest (h : s.Sharing) {request : Request} {waiting : List Request}
    (hwaiting : s.queue.waiting = request :: waiting) :
    Sharing { s with queue := { s.queue with waiting } } := by
  refine ⟨h.shared, ?_, h.taken⟩
  intro other hother
  refine h.waiting other ?_
  rw [hwaiting]
  exact List.mem_cons_of_mem _ hother

theorem Sharing.worker (h : s.Sharing) (hstep : s.WorkerTransition s') : s'.Sharing := by
  cases hstep with
  | take hphase hwaiting houtput | skip hphase hwaiting houtput =>
    obtain ⟨c, hc, rfl⟩ := output?_eq_some houtput
    have hidle (j : Nat) : s.worker.ticketOn? j = none := by rw [Worker.ticketOn?, hphase]
    have hshared := h.shared hc
    rw [hidle] at hshared
    refine (h.rest hwaiting).afterWorker hc (fun j _ => hidle j) (fun _ _ => rfl) hshared ?_
    rintro other hother
    cases hother <;> rfl
  | stop hphase =>
    refine ⟨?_, nofun, nofun⟩
    intro j c hc
    have hshared := h.shared hc
    rw [Worker.ticketOn?, hphase] at hshared
    exact hshared
  | @answer request outcome output _ hphase houtput =>
    obtain ⟨c, hc, rfl⟩ := output?_eq_some houtput
    have hidle (j : Nat) : s.worker.ticketOn? j = none := by rw [Worker.ticketOn?, hphase]
    have hshared := h.shared hc
    rw [hidle] at hshared
    have hnext := Worker.ticketOn?_replying
      (show Worker.phase { s.worker with
        phase := .replying request outcome c.output.nextTicket } = _ from rfl)
    refine h.afterWorker hc (fun j _ => hidle j) hnext.2 ?_ ?_
    · rw [hnext.1]
      exact (hshared.symm.start _).symm
    · rintro other hother
      cases hother
      rfl
  | write hphase houtput hready hprogress =>
    obtain ⟨c, hc, rfl⟩ := output?_eq_some houtput
    obtain ⟨hhere, hidle⟩ := Worker.ticketOn?_replying hphase
    have hshared := h.shared hc
    rw [hhere] at hshared
    have hpolled := hshared.symm.poll s.clock
    rw [hprogress] at hpolled
    refine h.afterWorker hc hidle hidle ?_ ?_
    · rw [hhere]
      exact hpolled.symm
    · intro other hother
      rw [Worker.request?, hphase] at hother
      cases hother
      rfl
  | deliver hphase houtput hready hprogress | fail hphase houtput hready hprogress =>
    obtain ⟨c, hc, rfl⟩ := output?_eq_some houtput
    obtain ⟨hhere, hidle⟩ := Worker.ticketOn?_replying hphase
    have hshared := h.shared hc
    rw [hhere] at hshared
    have hpolled := hshared.symm.poll s.clock
    rw [hprogress] at hpolled
    exact h.afterWorker hc hidle (fun _ _ => rfl) hpolled.symm nofun

theorem Sharing.killWorker (h : s.Sharing) : s.killWorker.Sharing := by
  rcases s.killWorker_cases with ⟨heq, -⟩ | ⟨-, before, hbefore, heq⟩
  · rwa [heq]
  rw [heq]
  refine ⟨?_, nofun, nofun⟩
  intro j c hc
  show c.output.Shared c.handler.ticket? none
  rcases hbefore with ⟨rfl, hidle⟩ | ⟨request, outcome, ticket, hphase, rfl⟩
  · have hshared := h.shared hc
    rwa [Worker.ticketOn?_of_not_replying hidle] at hshared
  · -- The worker's job is given up where it is, and it has none elsewhere.
    obtain ⟨hhere, hidle⟩ := Worker.ticketOn?_replying hphase
    have hc : (s.modifyConnection request.connection fun c =>
        { c with output := c.output.abandon ticket }).connections[j]? = some c := hc
    rw [getElem?_modifyConnection] at hc
    split at hc
    · rename_i hj
      subst hj
      obtain ⟨c, hbefore, rfl⟩ := Option.map_eq_some_iff.mp hc
      have hshared := h.shared hbefore
      rw [hhere] at hshared
      exact hshared.symm.abandon.symm
    · rename_i hj
      have hshared := h.shared hc
      rwa [hidle j (Ne.symm hj)] at hshared

/-! ### Runs -/

/-- Outputs are shared, and requests name connections that are there, whatever happens. -/
theorem Sharing.apply (h : s.Sharing) (m : Move) : (s.apply m).Sharing := by
  cases m with
  | handler i =>
    rcases s.apply_handler i with heq | ⟨effort, hstep⟩
    · rwa [heq]
    · exact h.handler hstep
  | registry =>
    rcases s.apply_registry with heq | ⟨effort, hstep⟩
    · rwa [heq]
    · obtain ⟨source, command, mailbox, -, heq⟩ := stepRegistry_cases hstep
      rw [heq]
      refine Sharing.modifySession ?_ source fun session => ticket?_hear session _
      exact h.congr rfl rfl rfl
  | worker =>
    rcases s.apply_worker with ⟨heq, -⟩ | ⟨s', heq, hstep⟩ <;> rw [heq]
    · exact h
    · exact h.worker hstep
  | connect =>
    simp only [Service.apply]
    split
    · exact h.addConnection _ _ rfl
    · exact h
  | refuse => exact h.addConnection _ _ rfl
  | attach => exact h.addConnection _ _ rfl
  | detach i =>
    refine h.modifyConnection i ?_
    intro c hc
    have hshared := h.shared hc
    split
    · rename_i houtside
      rwa [houtside] at hshared
    · exact hshared
  | submit request =>
    rcases s.apply_submit request with heq | ⟨htakes, -, heq⟩ <;> rw [heq]
    · exact h
    · refine h.push ?_
      simp only [takesRequest, Bool.and_eq_true, decide_eq_true_eq] at htakes
      exact htakes.2
  | arrive i chunk => exact h.modifySession i fun _ => rfl
  | finish i ending => exact h.modifySession i fun _ => rfl
  | read i limit => exact h.modifyPipe i fun p => (p.read limit).1
  | deafen i => exact h.modifyPipe i Pipe.deafen
  | wait | age | cancel | release | killRegistry => exact h.congr rfl rfl rfl
  | killWorker => exact h.killWorker

theorem sharing_of_reachable {limits : SessionLimits} {queueCapacity : Nat}
    (h : Reachable limits queueCapacity s) : s.Sharing := by
  induction h with
  | start => exact sharing_start limits queueCapacity
  | move m _ ih => exact ih.apply m

end Service

end Reckoner
