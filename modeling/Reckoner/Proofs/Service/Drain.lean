import Reckoner.Proofs.Channel.Headway
import Reckoner.Proofs.Service.Outputs
import Reckoner.Proofs.Service.Schedules

/-!
# The worker comes to its end

Once no request can come any more, the worker does what is left and stops.  All that it waits for is
its turn on an output, room in a pipe, and the time limit of the job that has the turn.

* `Service.mayRequest_apply` — who cannot be asked any more stays so.
* `Service.toGo` — how far the worker has to go.  No move takes it farther from its end.
* `Service.turn` — the move that brings it on, and the time from which on it does so at the latest.
* `Service.stops_of_fair` — along every fair schedule the worker stops.
-/

namespace Reckoner

namespace Service

variable {s s' : Service} {m : Move} {i : Nat}

/-! ### No more requests -/

theorem mayRequest_eq_false : s.mayRequest = false ↔ s.queueHeld = false ∧
    ∀ {i : Nat} {c : Connection}, s.connections[i]? = some c → c.handler.mayRequest = false := by
  rw [mayRequest, Bool.or_eq_false_iff, List.any_eq_false]
  refine and_congr_right fun _ => ⟨?_, ?_⟩
  · intro h i c hc
    simpa using h c (List.mem_of_getElem? hc)
  · intro h c hc
    obtain ⟨i, hi⟩ := List.mem_iff_getElem?.mp hc
    simpa using h hi

theorem mayRequest_modifyConnection (h : s.mayRequest = false) (i : Nat)
    {f : Connection → Connection}
    (hf : ∀ c, c.handler.mayRequest = false → (f c).handler.mayRequest = false) :
    (s.modifyConnection i f).mayRequest = false := by
  obtain ⟨hheld, hhandlers⟩ := mayRequest_eq_false.mp h
  refine mayRequest_eq_false.mpr ⟨hheld, ?_⟩
  intro j c hc
  rw [getElem?_modifyConnection] at hc
  split at hc
  · obtain ⟨before, hbefore, rfl⟩ := Option.map_eq_some_iff.mp hc
    exact hf before (hhandlers hbefore)
  · exact hhandlers hc

theorem mayRequest_modifySession (h : s.mayRequest = false) (i : Nat) {f : Session → Session}
    (hf : ∀ session, session.hasFinished = true → (f session).hasFinished = true) :
    (s.modifySession i f).mayRequest = false := by
  refine mayRequest_modifyConnection h i ?_
  intro c hc
  split
  · rename_i session hhandler
    rw [hhandler] at hc
    have hfinished := hf session (by simpa [Handler.mayRequest] using hc)
    simpa [Handler.mayRequest] using hfinished
  · exact hc

theorem mayRequest_addConnection (h : s.mayRequest = false) (output : Channel) {handler : Handler}
    (hhandler : handler.mayRequest = false) :
    (s.addConnection output handler).mayRequest = false := by
  obtain ⟨hheld, hhandlers⟩ := mayRequest_eq_false.mp h
  refine mayRequest_eq_false.mpr ⟨hheld, ?_⟩
  intro j c hc
  rw [getElem?_addConnection] at hc
  split at hc
  · cases hc
    exact hhandler
  · exact hhandlers hc

/-- A session that has ended does nothing more, so only refusals do. -/
theorem stepHandler_of_quiet (h : s.mayRequest = false) {effort : Nat}
    (hstep : s.stepHandler i = some (s', effort)) :
    ∃ c r next, s.connections[i]? = some c ∧ c.handler = .refusal r ∧
      r.step s.clock c.output = some next ∧
      s' = s.modifyConnection i fun c =>
        { c with output := next.output, handler := .refusal next.refusal } := by
  rcases stepHandler_cases hstep with ⟨c, session, next, hc, hhandler, htransition, -⟩ | hrefusal
  · have hended := (mayRequest_eq_false.mp h).2 hc
    rw [hhandler] at hended
    rw [Handler.mayRequest, htransition.hasFinished_eq_false] at hended
    cases hended
  · exact hrefusal

/-- **Nobody asks any more.** Once no request can come, none ever can. -/
theorem mayRequest_apply (h : s.mayRequest = false) (m : Move) :
    (s.apply m).mayRequest = false := by
  have hheld := (mayRequest_eq_false.mp h).1
  cases m with
  | handler i =>
    rcases s.apply_handler i with heq | ⟨effort, hstep⟩
    · rwa [heq]
    · -- Only a refusal can have taken a step, and it is one afterwards.
      obtain ⟨c, r, next, -, -, -, heq⟩ := stepHandler_of_quiet h hstep
      rw [heq]
      exact mayRequest_modifyConnection h i fun _ _ => rfl
  | registry =>
    rcases s.apply_registry with heq | ⟨effort, hstep⟩
    · rwa [heq]
    · obtain ⟨source, command, mailbox, -, heq⟩ := stepRegistry_cases hstep
      rw [heq]
      refine mayRequest_modifySession ?_ source fun session hsession => ?_
      · exact h
      · rw [session.hasFinished_hear, hsession]
  | worker =>
    rcases s.apply_worker with ⟨heq, -⟩ | ⟨s', heq, hstep⟩ <;> rw [heq]
    · exact h
    · cases hstep with
      | stop => exact h
      | take | skip | answer | write | deliver | fail =>
        exact mayRequest_modifyConnection h _ fun _ hc => hc
  | connect => simpa [apply, hheld] using h
  | refuse => exact mayRequest_addConnection h _ rfl
  | attach => exact mayRequest_addConnection h _ rfl
  | detach i =>
    refine mayRequest_modifyConnection h i ?_
    intro c hc
    split
    · rfl
    · exact hc
  | submit request => simpa [apply, takesRequest, hheld] using h
  | arrive i chunk => exact mayRequest_modifySession h i fun _ hsession => hsession
  | finish i ending => exact mayRequest_modifySession h i fun _ hsession => hsession
  | read | deafen => exact mayRequest_modifyConnection h _ fun _ hc => hc
  | wait | age | cancel | killRegistry => exact h
  | release => exact mayRequest_eq_false.mpr ⟨rfl, (mayRequest_eq_false.mp h).2⟩
  | killWorker =>
    show s.killWorker.mayRequest = false
    rcases s.killWorker_cases with ⟨heq, -⟩ | ⟨-, before, hbefore, heq⟩ <;> rw [heq]
    · exact h
    · rcases hbefore with ⟨rfl, -⟩ | ⟨request, outcome, ticket, -, rfl⟩
      · exact h
      · exact mayRequest_modifyConnection h _ fun _ hc => hc

theorem submission?_of_quiet (h : s.mayRequest = false) (m : Move) : s.submission? m = none := by
  obtain ⟨hheld, hhandlers⟩ := mayRequest_eq_false.mp h
  cases m with
  | handler i =>
    cases hc : s.connections[i]? with
    | none => simp [submission?, hc]
    | some c =>
      have hended := hhandlers hc
      cases hhandler : c.handler with
      | session session =>
        rw [hhandler] at hended
        have hfinished : session.hasFinished = true := by simpa [Handler.mayRequest] using hended
        unfold Session.hasFinished at hfinished
        split at hfinished
        · rename_i e hphase
          simp [submission?, hc, hhandler, Handler.session?, Session.request?, hphase]
        · cases hfinished
      | refusal | outside | released => simp [submission?, hc, hhandler, Handler.session?]
  | submit request => simp [submission?, takesRequest, hheld]
  | _ => rfl

/-! ### Outputs -/

/-- **Nobody pushes in.** Whatever the others do, the reply that the worker writes is not put
    back. -/
theorem headway_apply (hs : s.Sharing) (hquiet : s.mayRequest = false) {request : Request}
    {outcome : Outcome} {ticket : Nat} {output : Channel}
    (hphase : s.worker.phase = .replying request outcome ticket)
    (houtput : s.output? request.connection = some output) (hworker : m ≠ .worker)
    (hkill : m ≠ .killWorker) :
    ∃ output', (s.apply m).output? request.connection = some output' ∧
      Channel.Headway ticket output output' := by
  have hsame (h : Untouched s (s.apply m)) :
      ∃ output', (s.apply m).output? request.connection = some output' ∧
        Channel.Headway ticket output output' := by
    obtain ⟨output', houtput', hjobs, hbuffer, -⟩ := h.kept houtput
    exact ⟨output', houtput', Channel.headway_of_same hjobs hbuffer⟩
  by_cases hhandler : ∀ i, m ≠ .handler i
  · exact hsame (untouched_apply hhandler hworker hkill)
  obtain ⟨i, rfl⟩ : ∃ i, m = .handler i := by simpa using hhandler
  rcases s.apply_handler i with heq | ⟨effort, hstep⟩
  · refine hsame ?_
    rw [heq]
    exact untouched_of_connections rfl
  obtain ⟨c, r, next, hc, hrefusal, hnext, heq⟩ := stepHandler_of_quiet hquiet hstep
  rw [heq, output?_modifyConnection]
  split
  · rename_i hi
    subst hi
    -- The handler of the connection that the reply goes to: its own job is another one.
    rw [output?, hc, Option.map_some, Option.some.injEq] at houtput
    subst houtput
    have hshared := hs.shared hc
    rw [(Worker.ticketOn?_replying hphase).1, hrefusal] at hshared
    refine ⟨next.output, by rw [hc]; rfl, ?_⟩
    rcases Refusal.output_of_step hnext with
      hnone | ⟨work, -, hstart⟩ | ⟨first, hfirst, hready, hpoll⟩
    · rw [hnone]
      exact Channel.headway_of_same rfl rfl
    · rw [hstart]
      exact Channel.headway_start (hshared.right rfl) work
    · rw [hpoll]
      refine .inl (Channel.remaining_poll_lt hready (.inl ?_))
      rintro rfl
      exact hshared.apart hfirst rfl
  · exact ⟨output, houtput, Channel.headway_of_same rfl rfl⟩

/-! ### How far there is to go -/

theorem Sharing.output_of_taken (hs : s.Sharing) {request : Request}
    (h : request ∈ s.worker.request?) : ∃ output, s.output? request.connection = some output := by
  rw [output?, List.getElem?_eq_getElem (hs.taken request h)]
  exact ⟨_, rfl⟩

/-- How many steps the worker has to take that are not writing. -/
def errands (s : Service) : Nat :=
  3 * s.queue.waiting.length +
    match s.worker.phase with
    | .answering _ _ => 3
    | .replying _ _ _ => 2
    | .idle => 1
    | .stopped | .killed => 0

/-- The output that the worker writes to, and the ticket of its job there. -/
def writing? (s : Service) : Option (Channel × Nat) :=
  match s.worker.phase with
  | .replying request _ ticket => (s.output? request.connection).map fun output => (output, ticket)
  | _ => none

/-- How far the worker has to go. -/
def toGo (s : Service) : Nat ×ₗ Nat ×ₗ Nat :=
  toLex (s.errands, match s.writing? with
    | some (output, ticket) => output.remaining ticket
    | none => toLex (0, 0))

/-- The move that brings the worker on, and the time from which on it does so at the latest. -/
def turn (s : Service) : Move × Nat :=
  match s.worker.phase, s.writing?.bind fun (output, _) => output.jobs.head? with
  | .replying request _ ticket, some job =>
    (if job.ticket = ticket then .worker else .handler request.connection, job.deadline.getD 0)
  | _, _ => (.worker, 0)

theorem toGo_lt_of_errands (h : s'.errands < s.errands) : s'.toGo < s.toGo := by
  rw [toGo, toGo, Prod.Lex.toLex_lt_toLex]
  exact .inl h

theorem writing?_replying {request : Request} {outcome : Outcome} {ticket : Nat} {output : Channel}
    (hphase : s.worker.phase = .replying request outcome ticket)
    (houtput : s.output? request.connection = some output) :
    s.writing? = some (output, ticket) := by
  simp only [writing?, hphase, houtput, Option.map_some]

theorem WorkerTransition.toGo_lt (h : s.WorkerTransition s') : s'.toGo < s.toGo := by
  cases h with
  | take hphase hwaiting | skip hphase hwaiting =>
    refine toGo_lt_of_errands ?_
    simp only [errands, hphase, hwaiting, afterWorker_worker, afterWorker_queue, Worker.complete,
      List.length_cons]
    omega
  | stop hphase hwaiting =>
    refine toGo_lt_of_errands ?_
    simp [errands, hphase, RequestQueue.close]
  | answer hphase =>
    refine toGo_lt_of_errands ?_
    simp [errands, hphase]
  | deliver hphase | fail hphase =>
    refine toGo_lt_of_errands ?_
    simp [errands, hphase, Worker.complete]
  | @write request outcome ticket n output hphase houtput hready hprogress =>
    -- The worker goes on writing, so what counts is what is left of the reply.
    have hless : (output.poll s.clock ticket).channel.remaining ticket < output.remaining ticket :=
      Channel.remaining_poll_lt hready (.inr hprogress)
    have hnext := writing?_replying
      (show Worker.phase (s.afterWorker request.connection
        ⟨s.worker, (output.poll s.clock ticket).channel, [], n⟩).1.worker = _ from hphase)
      (by rw [afterWorker_output?, if_pos rfl, houtput]; rfl)
    rw [toGo, toGo, Prod.Lex.toLex_lt_toLex, writing?_replying hphase houtput, hnext]
    exact .inr ⟨rfl, hless⟩

/-- **Nothing takes the worker back.** A move brings it nearer to its end, or it is as near as
    before, and then what brings it on is the same. -/
theorem toGo_apply (hs : s.Sharing) (hquiet : s.mayRequest = false)
    (halive : (s.apply m).worker.phase ≠ .killed) :
    (s.apply m).toGo < s.toGo ∨
      (s.apply m).toGo = s.toGo ∧ (s.apply m).turn = s.turn := by
  rcases cases_of_alive halive with
    ⟨heq, -⟩ | ⟨s', -, heq, hstep⟩ | ⟨hworker, hkill, hqueue, hsame, -⟩
  · rw [heq]
    exact .inr ⟨rfl, rfl⟩
  · rw [heq]
    exact .inl hstep.toGo_lt
  -- A move of the others: the queue is as before, and so is the worker.
  rw [submission?_of_quiet hquiet] at hqueue
  have hqueue : (s.apply m).queue = s.queue := hqueue
  have herrands : (s.apply m).errands = s.errands := by rw [errands, errands, hqueue, hsame]
  cases hphase : s.worker.phase with
  | replying request outcome ticket =>
    obtain ⟨output, houtput⟩ := hs.output_of_taken (by rw [Worker.request?, hphase]; rfl)
    obtain ⟨output', houtput', hheadway⟩ := headway_apply hs hquiet hphase houtput hworker hkill
    have hphase' : (s.apply m).worker.phase = .replying request outcome ticket := by
      rw [hsame, hphase]
    have hwriting := writing?_replying hphase houtput
    have hwriting' := writing?_replying hphase' houtput'
    rcases hheadway with hless | ⟨hequal, hhead⟩
    · left
      rw [toGo, toGo, Prod.Lex.toLex_lt_toLex, hwriting, hwriting']
      exact .inr ⟨herrands, hless⟩
    · refine .inr ⟨?_, ?_⟩
      · simp only [toGo, hwriting, hwriting', herrands, hequal]
      · simp only [turn, hwriting, hwriting', hphase, hphase', Option.bind_some, hhead]
  | idle | answering | stopped | killed =>
    have hphase' := hphase
    rw [← hsame] at hphase'
    right
    simp only [toGo, turn, writing?, herrands, hphase, hphase', and_self]

/-! ### What brings it on -/

/-- A worker that does not write takes a step. -/
theorem stepWorker_ne_none (hs : s.Sharing) (hquiet : s.mayRequest = false)
    (hphase : s.worker.phase = .idle ∨
      ∃ request outcome, s.worker.phase = .answering request outcome) : s.stepWorker ≠ none := by
  unfold stepWorker
  rcases hphase with hphase | ⟨request, outcome, hphase⟩ <;> rw [hphase]
  · simp only [takeRequest, RequestQueue.next?]
    cases hwaiting : s.queue.waiting with
    | nil => simp [hquiet]
    | cons request waiting =>
      have hnamed := hs.waiting request (by rw [hwaiting]; exact List.mem_cons_self)
      simp [output?, List.getElem?_eq_getElem hnamed]
  · obtain ⟨output, houtput⟩ := hs.output_of_taken (by rw [Worker.request?, hphase]; rfl)
    simp [houtput]

/-- A worker whose job need not wait takes a step. -/
theorem stepWorker_of_ready {request : Request} {outcome : Outcome} {ticket : Nat}
    {output : Channel} (hphase : s.worker.phase = .replying request outcome ticket)
    (houtput : s.output? request.connection = some output)
    (hready : output.isReady s.clock ticket = true) : s.stepWorker ≠ none := by
  simp [stepWorker, hphase, houtput, hready]

theorem toGo_of_stepWorker (h : s.stepWorker ≠ none) : (s.apply .worker).toGo < s.toGo := by
  rcases s.apply_worker with ⟨-, hnone⟩ | ⟨s', heq, hstep⟩
  · exact absurd hnone h
  · rw [heq]
    exact hstep.toGo_lt

/-- Who still has a job when nobody asks any more is a refusal. -/
theorem refusal_of_quiet (hquiet : s.mayRequest = false) {c : Connection} {ticket : Nat}
    (hc : s.connections[i]? = some c) (hticket : c.handler.ticket? = some ticket) :
    ∃ r, c.handler = .refusal r ∧ r.ticket? = some ticket := by
  have hended := (mayRequest_eq_false.mp hquiet).2 hc
  cases hhandler : c.handler with
  | refusal r =>
    rw [hhandler] at hticket
    exact ⟨r, rfl, hticket⟩
  | outside | released =>
    rw [hhandler] at hticket
    cases hticket
  | session session =>
    rw [hhandler] at hended hticket
    have hfinished : session.hasFinished = true := by simpa [Handler.mayRequest] using hended
    have hticket : session.ticket? = some ticket := hticket
    unfold Session.hasFinished at hfinished
    unfold Session.ticket? at hticket
    split at hfinished <;> simp_all

/-- The handler of a connection gets its job out of the worker's way. -/
theorem toGo_of_handler (hquiet : s.mayRequest = false) {request : Request} {outcome : Outcome}
    {ticket first : Nat} {c : Connection}
    (hphase : s.worker.phase = .replying request outcome ticket)
    (hc : s.connections[request.connection]? = some c) (howner : c.handler.ticket? = some first)
    (hready : c.output.isReady s.clock first = true) (hother : first ≠ ticket) :
    (s.apply (.handler request.connection)).toGo < s.toGo := by
  obtain ⟨r, hrefusal, hticket⟩ := refusal_of_quiet hquiet hc howner
  obtain ⟨next, hnext, houtput⟩ := Refusal.step_of_ready hticket hready
  have heq : s.apply (.handler request.connection) = s.modifyConnection request.connection fun c =>
      { c with output := next.output, handler := .refusal next.refusal } := by
    simp only [apply, stepHandler_refusal hc hrefusal, hnext, Option.map_some, Option.getD_some]
  have hless : next.output.remaining ticket < c.output.remaining ticket := by
    rw [houtput]
    exact Channel.remaining_poll_lt hready (.inl hother)
  have hwriting : s.writing? = some (c.output, ticket) :=
    writing?_replying hphase (by rw [output?, hc]; rfl)
  have hwriting' : (s.apply (.handler request.connection)).writing?
      = some (next.output, ticket) := by
    rw [heq]
    refine writing?_replying hphase ?_
    rw [output?_modifyConnection, if_pos rfl, hc]
    rfl
  rw [toGo, toGo, Prod.Lex.toLex_lt_toLex, hwriting, hwriting', heq]
  exact .inr ⟨rfl, hless⟩

/-- **Its turn.** What brings the worker on does so, once its time has come. -/
theorem toGo_turn (hs : s.Sharing) (hquiet : s.mayRequest = false)
    (halive : s.worker.phase ≠ .killed) (hgoes : s.worker.phase ≠ .stopped)
    (htime : s.turn.2 ≤ s.clock) : (s.apply s.turn.1).toGo < s.toGo := by
  cases hphase : s.worker.phase with
  | stopped => exact absurd hphase hgoes
  | killed => exact absurd hphase halive
  | idle =>
    rw [show s.turn = (.worker, 0) by simp only [turn, hphase]]
    exact toGo_of_stepWorker (stepWorker_ne_none hs hquiet (.inl hphase))
  | answering request outcome =>
    rw [show s.turn = (.worker, 0) by simp only [turn, hphase]]
    exact toGo_of_stepWorker (stepWorker_ne_none hs hquiet (.inr ⟨request, outcome, hphase⟩))
  | replying request outcome ticket =>
    obtain ⟨output, houtput⟩ := hs.output_of_taken (by rw [Worker.request?, hphase]; rfl)
    obtain ⟨c, hc, rfl⟩ := output?_eq_some houtput
    have hwriting := writing?_replying hphase houtput
    -- The worker has a job on the output, so some job there has the turn.
    have hshared := hs.shared hc
    rw [(Worker.ticketOn?_replying hphase).1] at hshared
    obtain ⟨mine, hmine, -⟩ := hshared.right rfl
    obtain ⟨job, others, hjobs⟩ := List.exists_cons_of_ne_nil (List.ne_nil_of_mem hmine)
    have hturn : s.turn = (if job.ticket = ticket then .worker else .handler request.connection,
        job.deadline.getD 0) := by
      simp only [turn, hphase, hwriting, Option.bind_some, hjobs, List.head?_cons]
    have htime : job.deadline.getD 0 ≤ s.clock := by rwa [hturn] at htime
    -- The job that has the turn need not wait for the pipe now that its time is up.
    have hready : c.output.isReady s.clock job.ticket = true := by
      simp [Channel.isReady, hjobs, htime]
    rw [hturn]
    by_cases hticket : job.ticket = ticket
    · rw [if_pos hticket]
      rw [hticket] at hready
      exact toGo_of_stepWorker (stepWorker_of_ready hphase houtput hready)
    · rw [if_neg hticket]
      -- The output has two users, so the job is the handler's.
      have howner : c.handler.ticket? = some job.ticket := by
        rcases hshared.owner job (by rw [hjobs]; exact List.mem_cons_self) with hhandler | hworker
        · exact hhandler
        · exact absurd (Option.some.inj hworker).symm hticket
      exact toGo_of_handler hquiet hphase hc howner hready hticket

/-! ### Its end -/

variable {schedule : Nat → Move}

theorem Sharing.after (hs : s.Sharing) (schedule : Nat → Move) (n : Nat) :
    (s.after schedule n).Sharing :=
  applyAll_induction (P := Service.Sharing) (fun m hs => hs.apply m) hs _

theorem mayRequest_after (h : s.mayRequest = false) (schedule : Nat → Move) (n : Nat) :
    (s.after schedule n).mayRequest = false :=
  applyAll_induction (P := fun s => s.mayRequest = false) (fun m hs => mayRequest_apply hs m) h _

theorem turn_cases (s : Service) : s.turn.1 = .worker ∨ ∃ i, s.turn.1 = .handler i := by
  unfold turn
  split
  · split
    · exact .inl rfl
    · exact .inr ⟨_, rfl⟩
  · exact .inl rfl

/-- **The worker stops.** Along every fair schedule it does what is left and ends, once no request
    can come any more. -/
theorem stops_of_fair (hs : s.Sharing) (hquiet : s.mayRequest = false) (hfair : Fair s schedule)
    (n : Nat) : ∃ k ≥ n, (s.after schedule k).worker.phase = .stopped := by
  refine reached_of_turns toGo turn (fun s => s.worker.phase = .stopped) (fun k => ?_)
    (fun k hgoes hmove htime => ?_) (fun n => ?_) n
  · have halive := hfair.alive (k + 1)
    rw [after_succ] at halive ⊢
    exact toGo_apply (hs.after schedule k) (mayRequest_after hquiet schedule k) halive
  · rw [after_succ, hmove]
    exact toGo_turn (hs.after schedule k) (mayRequest_after hquiet schedule k) (hfair.alive k)
      hgoes htime
  · refine hfair.comes ?_ _ n
    rcases (s.after schedule n).turn_cases with heq | ⟨i, heq⟩ <;> rw [heq]
    · exact hfair.worker
    · exact hfair.handler i

end Service

end Reckoner
