import Reckoner.Proofs.Service.Outputs
import Reckoner.Proofs.Service.Submission
import Mathlib.Data.List.Forall2
import Mathlib.Data.List.Induction

/-!
# Requests in order

* `Service.Ordered` — the requests that are done, the one that the worker is at, and those that wait
  are together all that were taken in, in this order; and the worker's log tells just of them.
* `Service.Ordered.apply` — every move keeps it so, unless it ends the worker by force.
* `Service.takes_when_idle` — a request is taken out of the queue only when the worker has done with
  all before it.
* `Service.takenUp_applyAll`, `Service.takenIn_isPrefix` — the worker is at all requests that are
  taken out, one after the other, and they are taken out as they were taken in.
* `Service.replies_sublist` — the worker replies only to requests that were taken in, at most once
  to each.
-/

namespace Reckoner

/-! ### The worker's log -/

/-- What the worker logs of a request that it is done with. -/
inductive Completion.Reports : Completion → List LogEntry → Prop where
  /-- The reply went out. -/
  | delivered {position : Nat} {request : Request} {outcome : Outcome} :
      Reports ⟨position, request, outcome, true⟩
        [request.receivedEntry, request.evaluatedEntry outcome]
  /-- The reply did not go out. -/
  | undelivered {position : Nat} {request : Request} {outcome : Outcome} (e : WriteError) :
      Reports ⟨position, request, outcome, false⟩
        [request.receivedEntry, request.evaluatedEntry outcome, request.undeliveredEntry e]

/-- What the worker has logged of the request that it is answering. -/
def Worker.opening (w : Worker) : List LogEntry :=
  match w.phase with
  | .answering request outcome | .replying request outcome _ =>
    [request.receivedEntry, request.evaluatedEntry outcome]
  | .idle | .stopped | .killed => []

namespace Service

variable {s s' : Service} {m : Move}

@[simp] theorem afterWorker_workerLog (s : Service) (i : Nat) (next : WorkerStep) :
    (s.afterWorker i next).1.workerLog = s.workerLog ++ next.log := by
  show (Service.record _ .worker next.log).workerLog = _
  rw [workerLog_record, if_pos rfl]
  rfl

/-! ### Order -/

/-- **Requests in order.** Every request that was taken in is done, being answered, or waits, in
    this order, and the worker has logged what it has to of each. -/
structure Ordered (s : Service) : Prop where
  order : s.worker.completions.map Completion.request ++ s.worker.request?.toList
    ++ s.queue.waiting = s.queue.accepted
  position : ∀ {i : Nat} {c : Completion}, s.worker.completions[i]? = some c → c.position = i
  log : ∃ blocks, List.Forall₂ Completion.Reports s.worker.completions blocks ∧
    s.workerLog = blocks.flatten ++ s.worker.opening
  stopped : s.worker.phase = .stopped → s.queue.closed = true ∧ s.queue.waiting = []

theorem ordered_start (limits : SessionLimits) (queueCapacity : Nat) :
    (start limits queueCapacity).Ordered :=
  ⟨rfl, nofun, ⟨[], .nil, rfl⟩, nofun⟩

/-- What the worker has no part in. -/
theorem Ordered.takeIn (h : s.Ordered) (request? : Option Request)
    (hqueue : s'.queue = takeIn s.queue request?) (hworker : s'.worker = s.worker)
    (hlog : s'.workerLog = s.workerLog) : s'.Ordered := by
  refine ⟨?_, ?_, ?_, ?_⟩
  · rw [hqueue, hworker]
    unfold Service.takeIn
    split
    · rename_i request _
      show _ ++ (s.queue.waiting ++ [request]) = s.queue.accepted ++ [request]
      rw [← List.append_assoc, h.order]
    · exact h.order
  · rw [hworker]
    exact h.position
  · rw [hworker, hlog]
    exact h.log
  · rw [hworker, hqueue]
    intro hstopped
    -- A worker that has stopped has closed the queue, so nothing comes in.
    obtain ⟨hclosed, hnone⟩ := h.stopped hstopped
    have hrefusal : s.queue.refusal? = some .closed := by rw [RequestQueue.refusal?, if_pos hclosed]
    unfold Service.takeIn
    rw [hrefusal]
    split
    · cases ‹_ = none›
    · exact ⟨hclosed, hnone⟩

/-- A request that is done gets the next position. -/
theorem position_complete (h : s.Ordered) (request : Request) (outcome : Outcome)
    (delivered : Bool) {i : Nat} {c : Completion}
    (hc : (s.worker.complete request outcome delivered).completions[i]? = some c) :
    c.position = i := by
  have hc : (s.worker.completions
      ++ [⟨s.worker.completions.length, request, outcome, delivered⟩])[i]? = some c := hc
  rw [List.getElem?_append] at hc
  split at hc
  · exact h.position hc
  · obtain ⟨hlt, hget⟩ := List.getElem?_eq_some_iff.mp hc
    rw [List.length_singleton] at hlt
    rw [List.getElem_singleton] at hget
    rw [← hget]
    show s.worker.completions.length = i
    omega

/-- The worker is done with a request. -/
theorem Ordered.complete (h : s.Ordered) {request : Request} {outcome : Outcome}
    {delivered : Bool} {blocks : List (List LogEntry)} {entries : List LogEntry}
    (hworker : s'.worker = s.worker.complete request outcome delivered)
    (horder : s.worker.completions.map Completion.request ++ [request] ++ s'.queue.waiting
      = s'.queue.accepted)
    (hblocks : List.Forall₂ Completion.Reports s.worker.completions blocks)
    (hreports : Completion.Reports ⟨s.worker.completions.length, request, outcome, delivered⟩
      entries)
    (hlog : s'.workerLog = blocks.flatten ++ entries) : s'.Ordered := by
  refine ⟨?_, ?_, ⟨blocks ++ [entries], ?_, ?_⟩, ?_⟩ <;> rw [hworker]
  · rw [← horder]
    simp [Worker.complete, Worker.request?]
  · exact position_complete h request outcome delivered
  · exact List.rel_append hblocks (.cons hreports .nil)
  · rw [hlog]
    simp [Worker.complete, Worker.opening]
  · intro hstopped
    cases hstopped

theorem Ordered.worker (h : s.Ordered) (hstep : s.WorkerTransition s') : s'.Ordered := by
  -- In each case the phase tells what the worker was at, and what it had logged of it.
  obtain ⟨blocks, hblocks, hlog⟩ := h.log
  have horder := h.order
  cases hstep with
  | take hphase hwaiting houtput hbroken =>
    refine ⟨?_, h.position, ⟨blocks, hblocks, ?_⟩, fun hstopped => by cases hstopped⟩
    · rw [Worker.request?, hphase, hwaiting] at horder
      simpa [Worker.request?] using horder
    · rw [Worker.opening, hphase, List.append_nil] at hlog
      rw [afterWorker_workerLog]
      exact congrArg (· ++ _) hlog
  | skip hphase hwaiting houtput hbroken =>
    refine h.complete rfl ?_ hblocks (.undelivered .broken) ?_
    · rw [Worker.request?, hphase, hwaiting] at horder
      simpa using horder
    · rw [Worker.opening, hphase, List.append_nil] at hlog
      rw [afterWorker_workerLog]
      exact congrArg (· ++ _) hlog
  | stop hphase hwaiting hmay =>
    refine ⟨?_, h.position, ⟨blocks, hblocks, ?_⟩, fun _ => ⟨rfl, rfl⟩⟩
    · rw [Worker.request?, hphase, hwaiting] at horder
      exact horder
    · rw [Worker.opening, hphase] at hlog
      exact hlog
  | answer hphase houtput =>
    refine ⟨?_, h.position, ⟨blocks, hblocks, ?_⟩, fun hstopped => by cases hstopped⟩
    · rw [Worker.request?, hphase] at horder
      exact horder
    · rw [Worker.opening, hphase] at hlog
      rw [afterWorker_workerLog, List.append_nil]
      exact hlog
  | write hphase houtput hready hprogress =>
    refine ⟨h.order, h.position, ⟨blocks, hblocks, ?_⟩, h.stopped⟩
    rw [afterWorker_workerLog, List.append_nil]
    exact hlog
  | deliver hphase houtput hready hprogress =>
    rw [Worker.request?, hphase] at horder
    rw [Worker.opening, hphase] at hlog
    refine h.complete rfl horder hblocks .delivered ?_
    rw [afterWorker_workerLog, List.append_nil]
    exact hlog
  | @fail request outcome ticket n output e hphase houtput hready hprogress =>
    rw [Worker.request?, hphase] at horder
    rw [Worker.opening, hphase] at hlog
    refine h.complete rfl horder hblocks (.undelivered e) ?_
    rw [afterWorker_workerLog, hlog, List.append_assoc]
    rfl

/-! ### Runs -/

/-- Requests stay in order whatever happens, unless the worker is ended by force. -/
theorem Ordered.apply (h : s.Ordered) (m : Move) (halive : (s.apply m).worker.phase ≠ .killed) :
    (s.apply m).Ordered := by
  rcases cases_of_alive halive with ⟨heq, -⟩ | ⟨s', -, heq, hstep⟩ | ⟨-, -, hqueue, hsame, hlog⟩
  · rwa [heq]
  · rw [heq]
    exact h.worker hstep
  · exact h.takeIn _ hqueue hsame hlog

theorem Ordered.applyAll (h : s.Ordered) (moves : List Move)
    (halive : (s.applyAll moves).worker.phase ≠ .killed) : (s.applyAll moves).Ordered := by
  induction moves generalizing s with
  | nil => exact h
  | cons m moves ih =>
    have hfirst : (s.apply m).worker.phase ≠ .killed := alive_of_applyAll halive
    exact ih (h.apply m hfirst) halive

/-! ### One at a time -/

/-- What is published stays so, and a move publishes at most one thing. -/
theorem completions_apply (s : Service) (m : Move) :
    ∃ published, (s.apply m).worker.completions = s.worker.completions ++ published ∧
      published.length ≤ 1 := by
  by_cases hworker : m = .worker
  · subst hworker
    rcases s.apply_worker with ⟨heq, -⟩ | ⟨s', heq, hstep⟩ <;> rw [heq]
    · exact ⟨[], (List.append_nil _).symm, by simp⟩
    · cases hstep with
      | take | stop | answer | write => exact ⟨[], (List.append_nil _).symm, by simp⟩
      | skip | deliver | fail => exact ⟨[_], rfl, by simp⟩
  by_cases hkill : m = .killWorker
  · subst hkill
    refine ⟨[], ?_, by simp⟩
    show s.killWorker.worker.completions = _
    rcases s.killWorker_cases with ⟨heq, -⟩ | ⟨-, before, -, heq⟩ <;> rw [heq, List.append_nil]
  · exact ⟨[], by rw [(apply_queue hworker hkill).2.1, List.append_nil], by simp⟩

theorem length_takeIn (q : RequestQueue) (request? : Option Request) :
    q.waiting.length ≤ (takeIn q request?).waiting.length := by
  unfold takeIn
  split
  · simp [RequestQueue.push]
  · exact Nat.le_refl _

/-- **One at a time.** A request is taken out of the queue only by the worker while it is at no
    request, and has no job on any output. -/
theorem takes_when_idle (h : s.Sharing) (halive : (s.apply m).worker.phase ≠ .killed)
    (hless : (s.apply m).queue.waiting.length < s.queue.waiting.length) :
    m = .worker ∧ s.worker.phase = .idle ∧
      ∀ c ∈ s.connections, ∀ job ∈ c.output.jobs, c.handler.ticket? = some job.ticket := by
  rcases cases_of_alive halive with ⟨heq, -⟩ | ⟨s', hworker, heq, hstep⟩ | ⟨-, -, hqueue, -⟩
  · rw [heq] at hless
    exact absurd hless (Nat.lt_irrefl _)
  · rw [heq] at hless
    have hidle : s.worker.phase = .idle := by
      cases hstep with
      | take hphase | skip hphase | stop hphase => exact hphase
      | answer | write | deliver | fail => exact absurd hless (Nat.lt_irrefl _)
    -- A worker that is at no request has no ticket, so all jobs are those of handlers.
    refine ⟨hworker, hidle, ?_⟩
    intro c hc job hjob
    obtain ⟨i, hi⟩ := List.mem_iff_getElem?.mp hc
    rcases (h.shared hi).owner job hjob with hmine | hworkers
    · exact hmine
    · rw [Worker.ticketOn?, hidle] at hworkers
      cases hworkers
  · rw [hqueue] at hless
    exact absurd hless (Nat.not_lt.mpr (length_takeIn _ _))

/-! ### Requests that are taken up -/

/-- The request that a move takes out of the queue. -/
def takes? (s : Service) : Move → Option Request
  | .worker =>
    match s.worker.phase, s.queue.waiting with
    | .idle, request :: _ =>
      if (s.output? request.connection).isSome then some request else none
    | _, _ => none
  | _ => none

/-- The requests that moves take out of the queue. -/
def takenIn (s : Service) : List Move → List Request
  | [] => []
  | m :: moves => (s.takes? m).toList ++ (s.apply m).takenIn moves

/-- The requests that the worker is done with, and the one that it is at. -/
def takenUp (s : Service) : List Request :=
  s.worker.completions.map Completion.request ++ s.worker.request?.toList

theorem takenIn_concat (s : Service) (moves : List Move) (m : Move) :
    s.takenIn (moves ++ [m]) = s.takenIn moves ++ ((s.applyAll moves).takes? m).toList := by
  induction moves generalizing s with
  | nil => exact List.append_nil _
  | cons first moves ih =>
    rw [List.cons_append, takenIn, ih, takenIn, List.append_assoc]
    rfl

theorem takes?_of_ne_worker (h : m ≠ .worker) : s.takes? m = none := by
  cases m with
  | worker => exact absurd rfl h
  | _ => rfl

/-- A worker that is at something takes up nothing. -/
theorem takes?_of_ne_idle (h : s.worker.phase ≠ .idle) : s.takes? .worker = none := by
  cases hphase : s.worker.phase with
  | idle => exact absurd hphase h
  | answering | replying | stopped | killed => simp [takes?, hphase]

/-- Nor does one that has to wait. -/
theorem takes?_of_waits (hwaits : m = .worker → s.stepWorker = none) : s.takes? m = none := by
  by_cases hworker : m = .worker
  · subst hworker
    have hnone := hwaits rfl
    cases hphase : s.worker.phase with
    | idle =>
      cases hwaiting : s.queue.waiting with
      | nil => simp [takes?, hphase, hwaiting]
      | cons request waiting =>
        -- It would take the request up if there were an output for the reply.
        have houtput : s.output? request.connection = none := by
          simpa [stepWorker, hphase, takeRequest, RequestQueue.next?, hwaiting] using hnone
        simp [takes?, hphase, hwaiting, houtput]
    | answering | replying | stopped | killed => exact takes?_of_ne_idle (by simp [hphase])
  · exact takes?_of_ne_worker hworker

/-- Nor does one that is ended by force. -/
theorem takes?_of_killed (h : (s.apply m).worker.phase = .killed) : s.takes? m = none := by
  by_cases hworker : m = .worker
  · subst hworker
    rcases s.apply_worker with ⟨-, hwaits⟩ | ⟨s', heq, hstep⟩
    · exact takes?_of_waits fun _ => hwaits
    · rw [heq] at h
      cases hstep with
      | write hphase => exact takes?_of_ne_idle (by simp [hphase])
      | take | skip | stop | answer | deliver | fail => cases h
  · exact takes?_of_ne_worker hworker

/-- A request that is taken out of the queue is the next that the worker is at. -/
theorem takenUp_apply (m : Move) (halive : (s.apply m).worker.phase ≠ .killed) :
    (s.apply m).takenUp = s.takenUp ++ (s.takes? m).toList := by
  rcases cases_of_alive halive with
    ⟨heq, hwaits⟩ | ⟨s', rfl, heq, hstep⟩ | ⟨hother, -, -, hsame, -⟩
  · rw [heq, takes?_of_waits hwaits, Option.toList_none, List.append_nil]
  · rw [heq]
    cases hstep with
    | take hphase hwaiting houtput =>
      simp [takenUp, takes?, Worker.request?, hphase, hwaiting, houtput]
    | skip hphase hwaiting houtput =>
      simp [takenUp, takes?, Worker.request?, Worker.complete, hphase, hwaiting, houtput]
    | stop hphase hwaiting => simp [takenUp, takes?, Worker.request?, hphase, hwaiting]
    | answer hphase | write hphase => simp [takenUp, takes?, Worker.request?, hphase]
    | deliver hphase | fail hphase =>
      simp [takenUp, takes?, Worker.request?, Worker.complete, hphase]
  · rw [takes?_of_ne_worker hother, Option.toList_none, List.append_nil, takenUp, hsame, takenUp]

theorem takenUp_applyAll (moves : List Move)
    (halive : (s.applyAll moves).worker.phase ≠ .killed) :
    (s.applyAll moves).takenUp = s.takenUp ++ s.takenIn moves := by
  induction moves generalizing s with
  | nil => exact (List.append_nil _).symm
  | cons m moves ih =>
    rw [applyAll_cons, ih halive, takenUp_apply m (alive_of_applyAll halive), List.append_assoc,
      takenIn]

/-- **Taken up in order.** Requests are taken out of the queue in the order in which they were taken
    in, whatever happens. -/
theorem takenIn_isPrefix (limits : SessionLimits) (queueCapacity : Nat) (moves : List Move) :
    (start limits queueCapacity).takenIn moves
      <+: (start limits queueCapacity).acceptedIn moves := by
  have haccepted (moves : List Move) : ((start limits queueCapacity).applyAll moves).queue.accepted
      = (start limits queueCapacity).acceptedIn moves := accepted_applyAll _ moves
  induction moves using List.reverseRecOn with
  | nil => exact List.prefix_rfl
  | append_singleton moves m ih =>
    by_cases halive : ((start limits queueCapacity).applyAll (moves ++ [m])).worker.phase = .killed
    · -- Nothing is taken up any more, and more may still be taken in.
      rw [applyAll_concat] at halive
      rw [takenIn_concat, takes?_of_killed halive, Option.toList_none, List.append_nil,
        ← haccepted, applyAll_concat, accepted_apply, haccepted]
      exact ih.trans (List.prefix_append _ _)
    · -- The worker has been at all that was taken out, and the rest still waits.
      have horder := ((ordered_start limits queueCapacity).applyAll _ halive).order
      rw [← haccepted, ← horder]
      exact ⟨_, congrArg (· ++ _) (takenUp_applyAll _ halive).symm⟩

/-! ### Replies -/

/-- The request that a move starts the reply to. -/
def reply? (s : Service) : Move → Option Request
  | .worker =>
    match s.worker.phase with
    | .answering request _ => if (s.output? request.connection).isSome then some request else none
    | _ => none
  | _ => none

/-- The requests that moves start the replies to. -/
def repliesIn (s : Service) : List Move → List Request
  | [] => []
  | m :: moves => (s.reply? m).toList ++ (s.apply m).repliesIn moves

/-- The request that the worker has started the reply to and is not done with. -/
def replying? (s : Service) : Option Request :=
  match s.worker.phase with
  | .replying request _ _ => some request
  | _ => none

/-- **Whose lines.** A line that the worker starts is the reply to the request that it is at. -/
theorem line_of_worker {i : Nat} {before after : Channel} (hbefore : s.output? i = some before)
    (hafter : (s.apply .worker).output? i = some after)
    (hline : after.nextTicket ≠ before.nextTicket) :
    ∃ request outcome, s.reply? .worker = some request ∧ request.connection = i ∧
      after = (before.startLine (request.reply outcome).line).1 := by
  obtain ⟨output, houtput, hstep⟩ := output_of_worker hafter
  rw [hbefore] at houtput
  cases houtput
  rcases hstep with rfl | ⟨request, outcome, rfl, ⟨hphase, hstart⟩ | ⟨ticket, -, rfl⟩⟩
  · exact absurd rfl hline
  · exact ⟨request, outcome, by simp [reply?, hphase, hbefore], rfl, hstart⟩
  · -- Where the worker starts no line, no ticket is given out.
    exact absurd (before.poll_nextTicket ..) hline

/-- A worker that has to wait starts no reply. -/
theorem reply?_of_waiting (hnone : s.stepWorker = none) : s.reply? .worker = none := by
  cases hphase : s.worker.phase with
  | answering request outcome =>
    simp only [stepWorker, hphase, Option.map_eq_none_iff] at hnone
    simp [reply?, hphase, hnone]
  | idle | replying | stopped | killed => simp [reply?, hphase]

theorem reply?_of_ne_worker (h : m ≠ .worker) : s.reply? m = none := by
  cases m with
  | worker => exact absurd rfl h
  | _ => rfl

/-- The replies that were started are to requests that are done or being replied to, in order. -/
theorem replies_apply {replied : List Request} (m : Move)
    (h : replied.Sublist (s.worker.completions.map Completion.request ++ s.replying?.toList))
    (halive : (s.apply m).worker.phase ≠ .killed) :
    (replied ++ (s.reply? m).toList).Sublist
      ((s.apply m).worker.completions.map Completion.request ++ (s.apply m).replying?.toList) := by
  rcases cases_of_alive halive with
    ⟨heq, hwaits⟩ | ⟨s', hworker, heq, hstep⟩ | ⟨hother, -, -, hsame, -⟩
  · have hnone : s.reply? m = none := by
      by_cases hworker : m = .worker
      · rw [hworker]
        exact reply?_of_waiting (hwaits hworker)
      · exact reply?_of_ne_worker hworker
    rw [heq, hnone, Option.toList_none, List.append_nil]
    exact h
  · subst hworker
    rw [heq]
    cases hstep with
    | take hphase | stop hphase =>
      simpa [reply?, replying?, hphase] using h
    | skip hphase =>
      simp only [reply?, replying?, hphase, Option.toList_none, List.append_nil] at h ⊢
      simp only [afterWorker_worker, Worker.complete, List.map_append]
      rw [Option.toList_none, List.append_nil]
      exact h.trans (List.sublist_append_left _ _)
    | answer hphase houtput =>
      simpa [reply?, replying?, hphase, houtput] using h
    | write hphase => simpa [reply?, replying?, hphase] using h
    | deliver hphase | fail hphase =>
      simpa [reply?, replying?, hphase, Worker.complete] using h
  · rw [reply?_of_ne_worker hother, Option.toList_none, List.append_nil, replying?, hsame]
    exact h

theorem replies_applyAll {replied : List Request} (moves : List Move)
    (h : replied.Sublist (s.worker.completions.map Completion.request ++ s.replying?.toList))
    (halive : (s.applyAll moves).worker.phase ≠ .killed) :
    (replied ++ s.repliesIn moves).Sublist
      ((s.applyAll moves).worker.completions.map Completion.request
        ++ (s.applyAll moves).replying?.toList) := by
  induction moves generalizing s replied with
  | nil =>
    rw [repliesIn, List.append_nil]
    exact h
  | cons m moves ih =>
    rw [repliesIn, ← List.append_assoc]
    exact ih (replies_apply m h (alive_of_applyAll halive)) halive

/-- **The worker replies once.** All replies that the worker starts in a run are to requests that it
    has done with or is at, in order. -/
theorem replies_sublist {limits : SessionLimits} {queueCapacity : Nat} (moves : List Move)
    (halive : ((start limits queueCapacity).applyAll moves).worker.phase ≠ .killed) :
    ((start limits queueCapacity).repliesIn moves).Sublist
      (((start limits queueCapacity).applyAll moves).worker.completions.map Completion.request
        ++ ((start limits queueCapacity).applyAll moves).worker.request?.toList) := by
  refine (replies_applyAll moves (List.nil_sublist _) halive).trans ?_
  refine (List.append_sublist_append_left _).mpr ?_
  unfold replying? Worker.request?
  split <;> simp_all

end Service

end Reckoner
