import Reckoner.Proofs.Service.Step
import Mathlib.Data.List.Basic

/-!
# Who submits what

* `Session.request?` — the calculation that the next step of a session asks for.
* `Service.submission?` — the request that a move submits, whether or not it is taken.
* `Service.submissions`, `Service.acceptedIn` — all requests that moves submit with the answers
  that they get, and those among them that are taken.
* `Service.apply_queue` — what a move that is none of the worker's does to the queue.
* `Service.cases_of_alive` — what a move is to a worker that is not ended by force.
* `Service.accepted_applyAll` — the queue keeps account of the requests that are taken.
-/

namespace Reckoner

/-! ### Sessions -/

namespace Session

/-- The calculation that the next step of the session asks for: the client's name and the
    expression. -/
def request? (o : Outlook) (s : Session) (out : Channel) : Option (String × String) :=
  match s.phase, s.joined with
  | .reading _, some j =>
    if o.cancelled || out.broken || s.input.isExhausted then none
    else do
      let pulled ← (s.input.pull (lineLimit o.limits.longestLine)).2
      let line ← lineOfPulled o.limits.longestLine pulled
      match Command.ofLine line with
      | .calculate _ expression => some (j.name, expression)
      | _ => none
  | _, _ => none

variable {o : Outlook} {s : Session} {out : Channel} {next : SessionStep}

theorem request?_of_halted
    (h : o.cancelled = true ∨ out.broken = true ∨ s.input.isExhausted = true) :
    s.request? o out = none := by
  unfold request?
  split
  · rw [if_pos (by simpa [or_assoc] using h)]
  · rfl

/-- What a session asks for that reads. -/
theorem request?_of_reads {since : Nat} {input : Input} {pulled : Option Pulled}
    (hphase : s.phase = .reading since) (hreads : s.Reads o out input pulled) :
    s.request? o out
      = match pulled.bind (lineOfPulled o.limits.longestLine), s.joined with
        | some line, some j =>
          match Command.ofLine line with
          | .calculate _ expression => some (j.name, expression)
          | _ => none
        | _, _ => none := by
  obtain ⟨hcancelled, hbroken, hwaiting, hpull⟩ := hreads
  unfold request?
  rw [hphase]
  cases hjoined : s.joined with
  | none => cases pulled.bind (lineOfPulled o.limits.longestLine) <;> rfl
  | some j =>
    simp only [hcancelled, hbroken, hwaiting, Bool.or_false, Bool.false_eq_true, if_false, hpull,
      Option.bind_eq_bind]
    cases pulled with
    | none => rfl
    | some pulled =>
      rw [Option.bind_some, Option.bind_some]
      cases lineOfPulled o.limits.longestLine pulled <;> rfl

theorem lineOfPulled_of_end {longest : Nat} {pulled : Pulled} {e : SessionEnd}
    (h : endOfPulled longest pulled = some e) : lineOfPulled longest pulled = none := by
  cases pulled with
  | eof | failure => rfl
  | piece bytes =>
    rw [lineOfPulled]
    cases hline : lineOfPiece longest bytes with
    | none => rfl
    | some line => simp [endOfPulled, hline] at h

/-- A line that is rejected asks for nothing, or is not the time to ask. -/
theorem not_request_of_rejection {line : String} {r : Response} {detail : String}
    (h : s.rejection? o (Command.ofLine line) = some (r, detail)) {j : Joined}
    (hjoined : s.joined = some j) {given expression : String}
    (hcommand : Command.ofLine line = .calculate given expression) : o.refusal? ≠ none := by
  intro hqueue
  simp [rejection?, hcommand, hjoined, hqueue] at h

/-- **Who asks is heard.** A step submits just what the session asks for, if it can be taken. -/
theorem Transition.submits (h : Transition o s out next) (client expression : String) :
    next.errand = some (.submit client expression) ↔
      s.request? o out = some (client, expression) ∧ o.refusal? = none := by
  cases h with
  | cancel _ hcancelled => simp [request?_of_halted (.inl hcancelled)]
  | notice _ _ hbroken => simp [request?_of_halted (.inr (.inl hbroken))]
  | expire _ _ _ hexhausted => simp [request?_of_halted (.inr (.inr hexhausted))]
  | gather hphase hreads => simp [request?_of_reads hphase hreads]
  | runOut hphase hreads hend =>
    simp [request?_of_reads hphase hreads, lineOfPulled_of_end hend]
  | reject hphase hreads hline hreject =>
    rw [request?_of_reads hphase hreads, Option.bind_some, hline]
    refine ⟨nofun, ?_⟩
    rintro ⟨hrequest, hqueue⟩
    cases hjoined : s.joined with
    | none => simp [hjoined] at hrequest
    | some j =>
      simp only [hjoined] at hrequest
      split at hrequest
      · exact absurd hqueue (not_request_of_rejection hreject hjoined ‹_›)
      · cases hrequest
  | want hphase hreads hline hcommand hjoined =>
    simp [request?_of_reads hphase hreads, hline, hjoined]
  | request hphase hreads hline hcommand hjoined hqueue =>
    simp [request?_of_reads hphase hreads, hline, hjoined, hcommand, hqueue]
  | requestLost hphase hreads hline hcommand hjoined hqueue => simp [hqueue]
  | leave hphase hreads hline hcommand hjoined =>
    simp [request?_of_reads hphase hreads, hline, hjoined, hcommand]
  | askLost hphase => rcases hphase with hphase | hphase <;> simp [request?, hphase]
  | giveBackLost hphase => rcases hphase with ⟨hphase, -⟩ | ⟨hphase, -⟩ <;> simp [request?, hphase]
  | ask hphase | join hphase | deny hphase | answer hphase | write hphase | writeFail hphase
  | readOn hphase | bidFarewell hphase | cleanUp hphase | skip hphase | giveBack hphase
  | signOff hphase | close hphase | shut hphase | finish hphase =>
    simp [request?, hphase]

/-- Who asks for something takes a step. -/
theorem step_of_request {request : String × String} (h : s.request? o out = some request) :
    ∃ next, s.step o out = some next := by
  unfold request? at h
  split at h
  · rename_i since j hphase _
    split at h
    · cases h
    · rename_i hgoes
      simp only [Bool.or_eq_true, not_or, Bool.not_eq_true] at hgoes
      obtain ⟨⟨hcancelled, hbroken⟩, hwaiting⟩ := hgoes
      simp only [step, hphase, read, hcancelled, hbroken, hwaiting, Bool.false_eq_true, if_false]
      split <;> exact ⟨_, rfl⟩
  · cases h

end Session

/-! ### Moves -/

namespace Service

variable {s : Service} {m : Move}

/-- The request that a move submits. -/
def submission? (s : Service) : Move → Option Request
  | .handler i => do
    let c ← s.connections[i]?
    let session ← c.handler.session?
    let (client, expression) ← session.request? s.outlook c.output
    return ⟨client, expression, i⟩
  | .submit request => if s.takesRequest request then some request else none
  | _ => none

/-- The requests that moves submit, each with the reason why it is refused, if it is. -/
def submissions (s : Service) : List Move → List (Request × Option QueueError)
  | [] => []
  | m :: moves =>
    (s.submission? m).toList.map (fun request => (request, s.queue.refusal?))
      ++ (s.apply m).submissions moves

/-- Those of them that are taken. -/
def acceptedIn (s : Service) (moves : List Move) : List Request :=
  (s.submissions moves).filterMap fun (request, refusal?) =>
    if refusal? = none then some request else none

/-- The queue with a request, if there is one and it can be taken. -/
def takeIn (q : RequestQueue) (request? : Option Request) : RequestQueue :=
  match request?, q.refusal? with
  | some request, none => q.push request
  | _, _ => q

/-- What somebody has logged. -/
def logBy (s : Service) (source : LogSource) : List LogEntry :=
  s.log.filterMap fun (other, entry) => if other = source then some entry else none

theorem logBy_record (s : Service) (source other : LogSource) (entries : List LogEntry) :
    (s.record other entries).logBy source
      = s.logBy source ++ if other = source then entries else [] := by
  show (s.log ++ entries.map fun e => (other, e)).filterMap _ = _
  rw [List.filterMap_append, List.filterMap_map]
  refine congrArg (s.logBy source ++ ·) ?_
  split
  · rename_i hsource
    simp [hsource]
  · rename_i hsource
    simp [hsource]

/-- What the worker has logged. -/
def workerLog (s : Service) : List LogEntry :=
  s.log.filterMap fun (source, entry) => if source = .worker then some entry else none

theorem workerLog_record (s : Service) (source : LogSource) (entries : List LogEntry) :
    (s.record source entries).workerLog
      = s.workerLog ++ if source = .worker then entries else [] :=
  s.logBy_record .worker source entries

/-- The queue after a step of a session, and that the worker has no part in it. -/
theorem afterSession_queue (s : Service) (i id : Nat) (next : SessionStep) :
    (s.afterSession i id next).worker = s.worker ∧
      (s.afterSession i id next).workerLog = s.workerLog ∧
      (s.afterSession i id next).queue = match next.errand with
        | some (.submit client expression) => s.queue.push ⟨client, expression, i⟩
        | _ => s.queue := by
  have hlog : ((s.modifyConnection i fun c =>
      { c with output := next.output, handler := .session next.session }).record
        (.connection i) next.log).workerLog = s.workerLog := by
    rw [workerLog_record, if_neg nofun, List.append_nil]
    rfl
  unfold afterSession
  cases next.errand with
  | none => exact ⟨rfl, hlog, rfl⟩
  | some errand => cases errand <;> exact ⟨rfl, hlog, rfl⟩

/-- What a session submits is put into the queue, if it can be taken. -/
theorem queue_of_transition {c : Connection} {session : Session} {next : SessionStep} {i : Nat}
    (hc : s.connections[i]? = some c) (hhandler : c.handler = .session session)
    (hnext : session.Transition s.outlook c.output next) :
    (match next.errand with
      | some (.submit client expression) => s.queue.push ⟨client, expression, i⟩
      | _ => s.queue) = takeIn s.queue (s.submission? (.handler i)) := by
  have hsubmission : s.submission? (.handler i) = (session.request? s.outlook c.output).map
      fun request => ⟨request.1, request.2, i⟩ := by
    simp only [submission?, hc, hhandler, Handler.session?, Option.bind_eq_bind, Option.bind_some]
    cases session.request? s.outlook c.output <;> rfl
  rw [hsubmission]
  split
  · rename_i client expression herrand
    obtain ⟨hrequest, hqueue⟩ := (hnext.submits client expression).mp herrand
    have hqueue : s.queue.refusal? = none := hqueue
    simp only [hrequest, Option.map_some, takeIn, hqueue]
  · rename_i hother
    cases hrequest : session.request? s.outlook c.output with
    | none => rfl
    | some request =>
      cases hqueue : s.queue.refusal? with
      | some e => simp only [Option.map_some, takeIn, hqueue]
      | none =>
        -- What can be taken is submitted, and then it is the errand.
        exact absurd ((hnext.submits request.1 request.2).mpr ⟨hrequest, hqueue⟩) (hother _ _)

theorem apply_handler_queue (s : Service) (i : Nat) :
    (s.apply (.handler i)).queue = takeIn s.queue (s.submission? (.handler i)) ∧
      (s.apply (.handler i)).worker = s.worker ∧
      (s.apply (.handler i)).workerLog = s.workerLog := by
  show (((s.stepHandler i).map Prod.fst).getD s).queue = _ ∧
    (((s.stepHandler i).map Prod.fst).getD s).worker = _ ∧
    (((s.stepHandler i).map Prod.fst).getD s).workerLog = _
  cases hc : s.connections[i]? with
  | none => simp [stepHandler, submission?, hc, takeIn]
  | some c =>
    cases hhandler : c.handler with
    | session session =>
      rw [stepHandler_session hc hhandler]
      cases hstep : session.step s.outlook c.output with
      | none =>
        -- A session that has to wait asks for nothing.
        have hnone : session.request? s.outlook c.output = none := by
          cases hrequest : session.request? s.outlook c.output with
          | none => rfl
          | some request =>
            obtain ⟨next, hnext⟩ := Session.step_of_request hrequest
            rw [hstep] at hnext
            cases hnext
        simp [submission?, hc, hhandler, Handler.session?, hnone, takeIn]
      | some next =>
        obtain ⟨hworker, hlog, hqueue⟩ := s.afterSession_queue i c.id next
        refine ⟨?_, hworker, hlog⟩
        rw [← queue_of_transition hc hhandler (Session.transition_of_step hstep)]
        exact hqueue
    | refusal r =>
      rw [stepHandler_refusal hc hhandler]
      have hnone : s.submission? (.handler i) = none := by
        simp [submission?, hc, hhandler, Handler.session?]
      rw [hnone]
      cases r.step s.clock c.output <;> exact ⟨rfl, rfl, rfl⟩
    | outside | released =>
      simp [stepHandler, submission?, hc, hhandler, Handler.session?, takeIn]

/-- **What everybody but the worker does to the queue.** They put in what they submit, if it can be
    taken, and the worker has no part in it. -/
theorem apply_queue (hworker : m ≠ .worker) (hkill : m ≠ .killWorker) :
    (s.apply m).queue = takeIn s.queue (s.submission? m) ∧ (s.apply m).worker = s.worker ∧
      (s.apply m).workerLog = s.workerLog := by
  cases m with
  | worker => exact absurd rfl hworker
  | killWorker => exact absurd rfl hkill
  | handler i => exact s.apply_handler_queue i
  | submit request =>
    simp only [apply, submission?]
    split
    · unfold submit RequestQueue.submit
      cases hqueue : s.queue.refusal? with
      | some e =>
        simp only [takeIn, hqueue]
        exact ⟨rfl, rfl, rfl⟩
      | none =>
        simp only [takeIn, hqueue]
        exact ⟨rfl, rfl, rfl⟩
    · exact ⟨rfl, rfl, rfl⟩
  | registry =>
    rcases s.apply_registry with heq | ⟨effort, hstep⟩
    · rw [heq]
      exact ⟨rfl, rfl, rfl⟩
    · obtain ⟨source, command, mailbox, -, heq⟩ := stepRegistry_cases hstep
      rw [heq]
      exact ⟨rfl, rfl, rfl⟩
  | connect =>
    simp only [apply]
    split <;> exact ⟨rfl, rfl, rfl⟩
  | refuse | attach | detach | arrive | finish | read | deafen | wait | age | cancel | release
  | killRegistry => exact ⟨rfl, rfl, rfl⟩

/-! ### Force -/

/-- Who was ended by force stays so. -/
theorem killed_apply (h : s.worker.phase = .killed) (m : Move) :
    (s.apply m).worker.phase = .killed := by
  by_cases hworker : m = .worker
  · subst hworker
    rcases s.apply_worker with ⟨heq, -⟩ | ⟨s', heq, hstep⟩ <;> rw [heq]
    · exact h
    · cases hstep <;> simp [h] at *
  by_cases hkill : m = .killWorker
  · subst hkill
    show s.killWorker.worker.phase = .killed
    rcases s.killWorker_cases with ⟨heq, -⟩ | ⟨-, before, -, heq⟩ <;> rw [heq]
    exact h
  · rwa [(apply_queue hworker hkill).2.1]

theorem alive_of_apply (h : (s.apply m).worker.phase ≠ .killed) : s.worker.phase ≠ .killed :=
  fun hkilled => h (killed_apply hkilled m)

/-- A move that ends the worker by force is none. -/
theorem killWorker_of_alive (h : (s.apply .killWorker).worker.phase ≠ .killed) :
    s.apply .killWorker = s := by
  rcases s.killWorker_cases with ⟨heq, -⟩ | ⟨-, before, -, heq⟩
  · exact heq
  · refine absurd ?_ h
    show s.killWorker.worker.phase = .killed
    rw [heq]

/-- **What a move is to a worker that stays alive.** Nothing happens, or it takes a step, or others
    put in what they submit. -/
theorem cases_of_alive (halive : (s.apply m).worker.phase ≠ .killed) :
    s.apply m = s ∧ (m = .worker → s.stepWorker = none) ∨
      (∃ s', m = .worker ∧ s.apply m = s' ∧ s.WorkerTransition s') ∨
      m ≠ .worker ∧ m ≠ .killWorker ∧ (s.apply m).queue = takeIn s.queue (s.submission? m) ∧
        (s.apply m).worker = s.worker ∧ (s.apply m).workerLog = s.workerLog := by
  by_cases hworker : m = .worker
  · subst hworker
    rcases s.apply_worker with ⟨heq, hnone⟩ | ⟨s', heq, hstep⟩
    · exact .inl ⟨heq, fun _ => hnone⟩
    · exact .inr (.inl ⟨s', rfl, heq, hstep⟩)
  by_cases hkill : m = .killWorker
  · subst hkill
    exact .inl ⟨killWorker_of_alive halive, fun h => by cases h⟩
  · exact .inr (.inr ⟨hworker, hkill, apply_queue hworker hkill⟩)

theorem alive_of_applyAll {moves : List Move} (h : (s.applyAll moves).worker.phase ≠ .killed) :
    s.worker.phase ≠ .killed := by
  induction moves generalizing s with
  | nil => exact h
  | cons m moves ih => exact alive_of_apply (ih h)

/-! ### Accounts -/

theorem accepted_takeIn (q : RequestQueue) (request? : Option Request) :
    (takeIn q request?).accepted
      = q.accepted ++ if q.refusal? = none then request?.toList else [] := by
  unfold takeIn
  cases request? <;> cases q.refusal? <;> simp [RequestQueue.push]

/-- The worker takes no account of anything. -/
theorem WorkerTransition.accepted {s' : Service} (h : s.WorkerTransition s') :
    s'.queue.accepted = s.queue.accepted := by
  cases h <;> rfl

theorem accepted_apply (s : Service) (m : Move) : (s.apply m).queue.accepted
    = s.queue.accepted ++ if s.queue.refusal? = none then (s.submission? m).toList else [] := by
  by_cases hworker : m = .worker
  · subst hworker
    have hsame : (s.apply .worker).queue.accepted = s.queue.accepted := by
      rcases s.apply_worker with ⟨heq, -⟩ | ⟨s', heq, hstep⟩ <;> rw [heq]
      exact hstep.accepted
    simp [hsame, submission?]
  by_cases hkill : m = .killWorker
  · subst hkill
    have hsame : (s.apply .killWorker).queue.accepted = s.queue.accepted := by
      show s.killWorker.queue.accepted = _
      rcases s.killWorker_cases with ⟨heq, -⟩ | ⟨-, before, -, heq⟩ <;> rw [heq]
      rfl
    simp [hsame, submission?]
  rw [(apply_queue hworker hkill).1, accepted_takeIn]

/-- **The queue keeps account.** The requests that it has taken in are those that were submitted at
    a time when they could be taken, in this order. -/
theorem accepted_applyAll (s : Service) (moves : List Move) :
    (s.applyAll moves).queue.accepted = s.queue.accepted ++ s.acceptedIn moves := by
  induction moves generalizing s with
  | nil => simp [acceptedIn, submissions]
  | cons m moves ih =>
    rw [applyAll_cons, ih, accepted_apply, List.append_assoc]
    refine congrArg (s.queue.accepted ++ ·) ?_
    rw [acceptedIn, acceptedIn, submissions, List.filterMap_append]
    refine congrArg (· ++ _) ?_
    cases s.submission? m with
    | none => simp
    | some request => cases s.queue.refusal? <;> simp

end Service

end Reckoner
