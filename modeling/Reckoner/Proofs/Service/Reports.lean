import Reckoner.Proofs.Service.Carrying

/-!
# Reports of requests

Three parties hear of a request that the worker answers: whoever is told what became of it, whoever
reads the log, and the client.  They are told the same.

* `Request.Story` — what there is to tell of a request.
* `Service.givenIn`, `Service.putIn` — the lines that the worker gives to an output in a run, and
  the bytes that it puts into the pipe.
* `Service.Underway`, `Service.Answered` — what the worker has done about a request from the move
  that takes it up to some later one, or to the one that is done with it.
* `Service.Underway.apply` — a move goes on with the request or is done with it.
* `Service.Recorded` — the worker's log is told request by request, and tells of all requests that
  were taken out of the queue.
* `Service.reported` — so it is in every run, and the requests are taken out as they were taken in.
-/

namespace Reckoner

/-! ### What there is to tell -/

/-- **The story of a request**: its outcome, what is logged of it before the reply, and the
    reply. -/
inductive Request.Story (r : Request) : Outcome → List LogEntry → Bytes → Prop where
  /-- The expression has a value. -/
  | value {v : Binary64} (heval : evaluate r.expression = .ok v) :
      Story r (.ok v.result)
        [⟨.calcRequest, r.client, "Expression received: " ++ r.expression⟩,
          ⟨.calcResponse, r.client, r.expression ++ " = " ++ v.result⟩]
        (utf8 ("RES:" ++ r.client ++ ":" ++ v.result) ++ [lineFeed])
  /-- It has none.  The log tells why, and the client is not told. -/
  | error {e : EvalError} (heval : evaluate r.expression = .error e) :
      Story r (.error e)
        [⟨.calcRequest, r.client, "Expression received: " ++ r.expression⟩,
          ⟨.err, r.client, "Error evaluating expression '" ++ r.expression ++ "': " ++ e.message⟩]
        (utf8 "ERR:Invalid Expression Format" ++ [lineFeed])

theorem Request.story (r : Request) :
    r.Story r.outcome [r.receivedEntry, r.evaluatedEntry r.outcome] (r.reply r.outcome).line := by
  cases heval : evaluate r.expression with
  | ok v =>
    have houtcome : r.outcome = .ok v.result := by rw [outcome, heval]; rfl
    rw [houtcome]
    exact .value heval
  | error e =>
    have houtcome : r.outcome = .error e := by rw [outcome, heval]; rfl
    have hline : (r.reply (.error e)).line
        = utf8 "ERR:Invalid Expression Format" ++ [lineFeed] := by
      show utf8 ("ERR:" ++ "Invalid Expression Format") ++ [lineFeed] = _
      rfl
    rw [houtcome, hline]
    exact .error heval

theorem Request.Story.line_ne_nil {r : Request} {outcome : Outcome} {opening : List LogEntry}
    {line : Bytes} (h : r.Story outcome opening line) : line ≠ [] := by
  cases h <;> simp

theorem Request.Story.line_eq {r : Request} {outcome : Outcome} {opening : List LogEntry}
    {line : Bytes} (h : r.Story outcome opening line) : line = (r.reply outcome).line := by
  cases h <;> rfl

/-! ### What is done to an output -/

namespace Channel

/-- The lines that were given to a channel since it was as before. -/
def givenSince (before after : Channel) : List Bytes :=
  (after.jobs.filter fun job => before.nextTicket ≤ job.ticket).map fun job => job.work.rest

/-- The bytes that were put into its pipe since then. -/
def putSince (before after : Channel) : Bytes :=
  after.pipe.accepted.drop before.pipe.accepted.length

variable {c after : Channel}

/-- Jobs that were there before are not given again. -/
theorem givenSince_eq_nil (horderly : c.Orderly)
    (hjobs : ∀ job ∈ after.jobs, ∃ before ∈ c.jobs, before.ticket = job.ticket) :
    c.givenSince after = [] := by
  rw [givenSince, List.map_eq_nil_iff, List.filter_eq_nil_iff]
  intro job hjob
  obtain ⟨before, hbefore, hticket⟩ := hjobs job hjob
  have hlt := horderly.ticket_lt before hbefore
  simpa using hticket ▸ hlt

theorem givenSince_poll (horderly : c.Orderly) (clock ticket : Nat) :
    c.givenSince (c.poll clock ticket).channel = [] := by
  refine givenSince_eq_nil horderly fun job hjob => ?_
  obtain ⟨before, hbefore, hticket, -⟩ := mem_of_poll hjob
  exact ⟨before, hbefore, hticket⟩

theorem givenSince_startLine (horderly : c.Orderly) (line : Bytes) :
    c.givenSince (c.startLine line).1 = [line] := by
  have hold : c.givenSince c = [] := givenSince_eq_nil horderly fun job hjob => ⟨job, hjob, rfl⟩
  rw [givenSince, List.map_eq_nil_iff] at hold
  rw [givenSince, startLine, start_jobs, List.filter_append, hold]
  simp [Work.rest]

theorem putSince_of_append {taken : Bytes} (h : after.pipe.accepted = c.pipe.accepted ++ taken) :
    c.putSince after = taken := by
  rw [putSince, h, List.drop_left]

end Channel

namespace Service

variable {s : Service} {m : Move} {i : Nat} {out : Channel}

/-- The lines that a step of the worker gives to an output. -/
def gives (s : Service) (i : Nat) : Move → List Bytes
  | .worker =>
    match s.output? i, (s.apply .worker).output? i with
    | some before, some after => before.givenSince after
    | _, _ => []
  | _ => []

/-- The bytes that it puts into its pipe. -/
def puts (s : Service) (i : Nat) : Move → Bytes
  | .worker =>
    match s.output? i, (s.apply .worker).output? i with
    | some before, some after => before.putSince after
    | _, _ => []
  | _ => []

/-- The lines that the worker gives to an output in a run. -/
def givenIn (s : Service) (i : Nat) : List Move → List Bytes
  | [] => []
  | m :: moves => s.gives i m ++ (s.apply m).givenIn i moves

/-- The bytes that it puts into its pipe. -/
def putIn (s : Service) (i : Nat) : List Move → Bytes
  | [] => []
  | m :: moves => s.puts i m ++ (s.apply m).putIn i moves

theorem givenIn_concat (s : Service) (i : Nat) (moves : List Move) (m : Move) :
    s.givenIn i (moves ++ [m]) = s.givenIn i moves ++ (s.applyAll moves).gives i m := by
  induction moves generalizing s with
  | nil => exact List.append_nil _
  | cons first moves ih =>
    rw [List.cons_append, givenIn, ih, givenIn, List.append_assoc, applyAll_cons]

theorem putIn_concat (s : Service) (i : Nat) (moves : List Move) (m : Move) :
    s.putIn i (moves ++ [m]) = s.putIn i moves ++ (s.applyAll moves).puts i m := by
  induction moves generalizing s with
  | nil => exact List.append_nil _
  | cons first moves ih =>
    rw [List.cons_append, putIn, ih, putIn, List.append_assoc, applyAll_cons]

/-- The worker leaves an output alone in a move. -/
structure Spares (s : Service) (m : Move) (i : Nat) : Prop where
  given : s.gives i m = []
  put : s.puts i m = []

theorem spares_of_ne (h : m ≠ .worker) (i : Nat) : s.Spares m i := by
  cases m with
  | worker => exact absurd rfl h
  | _ => exact ⟨rfl, rfl⟩

theorem gives_worker {after : Channel} (hout : s.output? i = some out)
    (hafter : (s.apply .worker).output? i = some after) :
    s.gives i .worker = out.givenSince after ∧ s.puts i .worker = out.putSince after := by
  simp [gives, puts, hout, hafter]

theorem spares_of_same (hs : s.Sharing) (h : (s.apply .worker).output? i = s.output? i) :
    s.Spares .worker i := by
  cases hout : s.output? i with
  | none => exact ⟨by simp [gives, hout], by simp [puts, hout]⟩
  | some out =>
    obtain ⟨hgives, hputs⟩ := gives_worker hout (h.trans hout)
    refine ⟨hgives.trans ?_, hputs.trans (Channel.putSince_of_append (List.append_nil _).symm)⟩
    exact Channel.givenSince_eq_nil (hs.orderly hout) fun job hjob => ⟨job, hjob, rfl⟩

/-- A step for one request spares all outputs but that of the request. -/
theorem spares_of_afterWorker {k : Nat} {s₁ : Service} {next : WorkerStep} (hs : s.Sharing)
    (heq : s.apply .worker = (s₁.afterWorker k next).1) (hsame : s₁.connections = s.connections)
    (hi : i ≠ k) : s.Spares .worker i := by
  refine spares_of_same hs ?_
  rw [heq, afterWorker_output?, if_neg (Ne.symm hi), output?, output?, hsame]

/-- A step that puts an output back as it was spares it too. -/
theorem spares_of_back {k : Nat} {s₁ : Service} {next : WorkerStep} (hs : s.Sharing)
    (heq : s.apply .worker = (s₁.afterWorker k next).1) (hsame : s₁.connections = s.connections)
    (hout : s.output? k = some next.output) (i : Nat) : s.Spares .worker i := by
  refine spares_of_same hs ?_
  have hbefore : s₁.output? i = s.output? i := by rw [output?, output?, hsame]
  rw [heq, afterWorker_output?, hbefore]
  split
  · rename_i hk
    rw [← hk, hout]
    rfl
  · rfl

/-- So in a run of this one step nothing is done to any output. -/
theorem spared_of_back {k : Nat} {s₁ : Service} {next : WorkerStep} (hs : s.Sharing)
    (heq : s.apply .worker = (s₁.afterWorker k next).1) (hsame : s₁.connections = s.connections)
    (hout : s.output? k = some next.output) (i : Nat) :
    s.givenIn i [.worker] = [] ∧ s.putIn i [.worker] = [] := by
  obtain ⟨hgives, hputs⟩ := spares_of_back hs heq hsame hout i
  exact ⟨by rw [givenIn, hgives]; rfl, by rw [putIn, hputs]; rfl⟩

theorem output?_of_afterWorker {k : Nat} {next : WorkerStep}
    (heq : s.apply .worker = (s.afterWorker k next).1) (hout : s.output? k = some out) :
    (s.apply .worker).output? k = some next.output := by
  rw [heq, afterWorker_output?, if_pos rfl, hout]
  rfl

/-- While the worker carries on with a line it gives no other, and what it puts into the pipe is
    what comes into it. -/
theorem gives_of_poll (hs : s.Sharing) {k ticket n : Nat} {worker : Worker} {log : List LogEntry}
    {taken : Bytes} (hout : s.output? k = some out)
    (heq : s.apply .worker
      = (s.afterWorker k ⟨worker, (out.poll s.clock ticket).channel, log, n⟩).1)
    (haccepted : (out.poll s.clock ticket).channel.pipe.accepted = out.pipe.accepted ++ taken) :
    s.gives k .worker = [] ∧ s.puts k .worker = taken := by
  obtain ⟨hgives, hputs⟩ := gives_worker hout (output?_of_afterWorker heq hout)
  exact ⟨hgives.trans (Channel.givenSince_poll (hs.orderly hout) _ _),
    hputs.trans (Channel.putSince_of_append haccepted)⟩

/-! ### One request -/

section Request

variable {a : Service} {during : List Move} {r : Request} {outcome : Outcome}
  {opening closing : List LogEntry} {line : Bytes}

/-- How far the worker is with a reply, given the lines that it has given to the output, and the
    bytes that it has put into the pipe. -/
inductive ReplyStage (s : Service) (r : Request) (outcome : Outcome) (line : Bytes) :
    List Bytes → Bytes → Prop where
  /-- It has not begun. -/
  | evaluated (hphase : s.worker.phase = .answering r outcome) : ReplyStage s r outcome line [] []
  /-- It writes the reply. -/
  | writes {ticket : Nat} {out : Channel} {written : Bytes}
      (hphase : s.worker.phase = .replying r outcome ticket)
      (hout : s.output? r.connection = some out) (hadvances : out.Advances ticket line written) :
      ReplyStage s r outcome line [line] written

/-- **A request that is being answered.** In the state `a` the worker was at no request, and this
    one was the next.  The moves since then have not brought it to its end. -/
structure Underway (a : Service) (during : List Move) (r : Request) (outcome : Outcome)
    (opening : List LogEntry) (line : Bytes) : Prop where
  story : r.Story outcome opening line
  idle : a.worker.phase = .idle
  first : ∃ waiting, a.queue.waiting = r :: waiting
  sound : ∃ out, a.output? r.connection = some out ∧ out.broken = false
  completions : (a.applyAll during).worker.completions = a.worker.completions
  log : (a.applyAll during).workerLog = a.workerLog ++ opening
  elsewhere : ∀ j ≠ r.connection, a.givenIn j during = [] ∧ a.putIn j during = []
  stage : (a.applyAll during).ReplyStage r outcome line (a.givenIn r.connection during)
    (a.putIn r.connection during)

/-- **A request that was answered.** In the state `a` the worker was at no request, and this one was
    the next; after the moves it was done with it.  What it published, what it logged, and what it
    did to the outputs meanwhile are one story.  The reply counts as delivered just if all of it got
    into the pipe.  Otherwise that is logged, too, and nothing more of it gets there, unless the
    output was being closed.  Of an output that was broken before, that is all. -/
structure Answered (a : Service) (during : List Move) (c : Completion)
    (opening closing : List LogEntry) (line : Bytes) : Prop where
  story : c.request.Story c.outcome opening line
  idle : a.worker.phase = .idle
  first : ∃ waiting, a.queue.waiting = c.request :: waiting
  position : c.position = a.worker.completions.length
  published : (a.applyAll during).worker = ⟨.idle, a.worker.completions ++ [c]⟩
  log : (a.applyAll during).workerLog = a.workerLog ++ (opening ++ closing)
  closing : c.delivered = true ∧ closing = [] ∨ c.delivered = false ∧ ∃ e : WriteError,
    closing = [⟨.err, c.request.client, "Failed to deliver reply: " ++ e.message⟩]
  attempted : ∃ out, a.output? c.request.connection = some out ∧
    a.givenIn c.request.connection during = if out.broken then [] else [line]
  elsewhere : ∀ j ≠ c.request.connection, a.givenIn j during = [] ∧ a.putIn j during = []
  begins : a.putIn c.request.connection during <+: line
  delivered : c.delivered = true ↔ a.putIn c.request.connection during = line
  silent : c.delivered = false → ¬ (a.applyAll during).IsClosing c.request.connection →
    ∀ later, (a.applyAll (during ++ later)).acceptedAt c.request.connection
      = (a.applyAll during).acceptedAt c.request.connection

theorem Underway.alive (h : Underway a during r outcome opening line) :
    (a.applyAll during).worker.phase ≠ .killed ∧
      (a.applyAll during).worker.request? = some r := by
  have hstage := h.stage
  generalize a.givenIn r.connection during = given, a.putIn r.connection during = put at hstage
  cases hstage with
  | evaluated hphase | writes hphase =>
    rw [Worker.request?, hphase]
    exact ⟨by simp, rfl⟩

/-- To end the worker by force while it is at a request does end it. -/
theorem Underway.killed (h : Underway a during r outcome opening line) :
    ((a.applyAll during).apply .killWorker).worker.phase = .killed := by
  show (a.applyAll during).killWorker.worker.phase = _
  rcases (a.applyAll during).killWorker_cases with ⟨-, hended⟩ | ⟨-, before, -, heq⟩
  · have hrequest := h.alive.2
    unfold Worker.request? at hrequest
    unfold Worker.hasEnded at hended
    split at hrequest <;> simp_all
  · rw [heq]

/-- It stays so. -/
theorem Underway.killed_after (h : Underway a during r outcome opening line)
    (after : List Move) :
    (a.applyAll (during ++ .killWorker :: after)).worker.phase = .killed := by
  rw [applyAll_append, applyAll_cons]
  by_contra hlives
  exact alive_of_applyAll hlives h.killed

/-- The worker takes up a request. -/
theorem underway_of_take {waiting : List Request} (hs : s.Sharing) (hphase : s.worker.phase = .idle)
    (hwaiting : s.queue.waiting = r :: waiting) (hout : s.output? r.connection = some out)
    (hbroken : out.broken = false) {n : Nat}
    (heq : s.apply .worker = ({ s with queue := { s.queue with waiting } }.afterWorker r.connection
      ⟨{ s.worker with phase := .answering r r.outcome }, out,
        [r.receivedEntry, r.evaluatedEntry r.outcome], n⟩).1) :
    Underway s [.worker] r r.outcome [r.receivedEntry, r.evaluatedEntry r.outcome]
      (r.reply r.outcome).line := by
  have hspares (j : Nat) := spared_of_back hs heq rfl hout j
  refine ⟨r.story, hphase, ⟨waiting, hwaiting⟩, ⟨out, hout, hbroken⟩, ?_, ?_,
    fun j _ => hspares j, ?_⟩
  · show (s.apply .worker).worker.completions = _
    rw [heq]
    rfl
  · show (s.apply .worker).workerLog = _
    rw [heq, afterWorker_workerLog]
    rfl
  · rw [(hspares _).1, (hspares _).2]
    refine .evaluated ?_
    show (s.apply .worker).worker.phase = _
    rw [heq]
    rfl

/-- The worker passes over a request whose output is broken. -/
theorem answered_of_skip {waiting : List Request} (hs : s.Sharing)
    (hphase : s.worker.phase = .idle) (hwaiting : s.queue.waiting = r :: waiting)
    (hout : s.output? r.connection = some out) (hbroken : out.broken = true) {n : Nat}
    (heq : s.apply .worker = ({ s with queue := { s.queue with waiting } }.afterWorker r.connection
      ⟨s.worker.complete r r.outcome false, out,
        [r.receivedEntry, r.evaluatedEntry r.outcome, r.undeliveredEntry .broken], n⟩).1) :
    Answered s [.worker] ⟨s.worker.completions.length, r, r.outcome, false⟩
      [r.receivedEntry, r.evaluatedEntry r.outcome] [r.undeliveredEntry .broken]
      (r.reply r.outcome).line := by
  have hspares (j : Nat) := spared_of_back hs heq rfl hout j
  have hafter : (s.apply .worker).output? r.connection = some out := by
    rw [heq, afterWorker_output?, if_pos rfl]
    show (s.output? r.connection).map _ = _
    rw [hout]
    rfl
  refine ⟨r.story, hphase, ⟨waiting, hwaiting⟩, rfl, ?_, ?_, .inr ⟨rfl, .broken, rfl⟩,
    ⟨out, hout, ?_⟩, fun j _ => hspares j, ?_, ?_, ?_⟩
  · show (s.apply .worker).worker = _
    rw [heq]
    rfl
  · show (s.apply .worker).workerLog = _
    rw [heq, afterWorker_workerLog]
    rfl
  · rw [(hspares _).1, if_pos hbroken]
  · rw [(hspares _).2]
    exact List.nil_prefix
  · rw [(hspares _).2]
    exact ⟨nofun, fun hnil => absurd hnil.symm r.story.line_ne_nil⟩
  · intro _ hopen later
    rw [applyAll_append]
    exact accepted_of_hushed (hushed_of_broken hafter hbroken hopen) (hs.apply .worker) later

/-- A move goes on with the request, or leaves it where it is. -/
theorem Underway.goesOn (h : Underway a during r outcome opening line)
    (hcompletions : ((a.applyAll during).apply m).worker.completions
      = (a.applyAll during).worker.completions)
    (hlog : ((a.applyAll during).apply m).workerLog = (a.applyAll during).workerLog)
    (helsewhere : ∀ j ≠ r.connection, (a.applyAll during).Spares m j)
    (hstage : ((a.applyAll during).apply m).ReplyStage r outcome line
      (a.givenIn r.connection during ++ (a.applyAll during).gives r.connection m)
      (a.putIn r.connection during ++ (a.applyAll during).puts r.connection m)) :
    Underway a (during ++ [m]) r outcome opening line := by
  refine ⟨h.story, h.idle, h.first, h.sound, ?_, ?_, ?_, ?_⟩
  · rw [applyAll_concat, hcompletions, h.completions]
  · rw [applyAll_concat, hlog, h.log]
  · intro j hj
    obtain ⟨hgiven, hput⟩ := h.elsewhere j hj
    obtain ⟨hgives, hputs⟩ := helsewhere j hj
    rw [givenIn_concat, putIn_concat, hgiven, hput, hgives, hputs]
    exact ⟨rfl, rfl⟩
  · rwa [applyAll_concat, givenIn_concat, putIn_concat]

/-- A move of others leaves it where it is. -/
theorem Underway.waits (h : Underway a during r outcome opening line)
    (hworker : ((a.applyAll during).apply m).worker = (a.applyAll during).worker)
    (hlog : ((a.applyAll during).apply m).workerLog = (a.applyAll during).workerLog)
    (hspares : ∀ j, (a.applyAll during).Spares m j)
    (hadvances : ∀ {ticket written out},
      (a.applyAll during).worker.phase = .replying r outcome ticket →
      (a.applyAll during).output? r.connection = some out → out.Advances ticket line written →
      ∃ out', ((a.applyAll during).apply m).output? r.connection = some out' ∧
        out'.Advances ticket line written) :
    Underway a (during ++ [m]) r outcome opening line := by
  refine h.goesOn (by rw [hworker]) hlog (fun j _ => hspares j) ?_
  rw [(hspares _).given, (hspares _).put, List.append_nil, List.append_nil]
  have hstage := h.stage
  generalize a.givenIn r.connection during = given, a.putIn r.connection during = put at hstage ⊢
  cases hstage with
  | evaluated hphase => exact .evaluated (hworker ▸ hphase)
  | writes hphase hout hwritten =>
    obtain ⟨out', hout', hwritten'⟩ := hadvances hphase hout hwritten
    exact .writes (hworker ▸ hphase) hout' hwritten'

/-- The worker is done with the request. -/
theorem Underway.ends (h : Underway a during r outcome opening line)
    (hs : (a.applyAll during).Sharing) {delivered : Bool} {ticket n : Nat} {written taken : Bytes}
    (hgiven : a.givenIn r.connection during = [line])
    (hput : a.putIn r.connection during = written)
    (hout : (a.applyAll during).output? r.connection = some out)
    (heq : (a.applyAll during).apply .worker = ((a.applyAll during).afterWorker r.connection
      ⟨(a.applyAll during).worker.complete r outcome delivered,
        (out.poll (a.applyAll during).clock ticket).channel, closing, n⟩).1)
    (haccepted : (out.poll (a.applyAll during).clock ticket).channel.pipe.accepted
      = out.pipe.accepted ++ taken)
    (hclosing : delivered = true ∧ closing = [] ∨ delivered = false ∧ ∃ e : WriteError,
      closing = [r.undeliveredEntry e])
    (hsent : delivered = true ∧ written ++ taken = line ∨
      delivered = false ∧ (out.poll (a.applyAll during).clock ticket).channel.broken = true ∧
        written ++ taken <+: line ∧ written ++ taken ≠ line) :
    Answered a (during ++ [.worker]) ⟨a.worker.completions.length, r, outcome, delivered⟩ opening
      closing line := by
  obtain ⟨first, hfirst, hsound⟩ := h.sound
  obtain ⟨hgives, hputs⟩ := gives_of_poll hs hout heq haccepted
  have hput : a.putIn r.connection (during ++ [.worker]) = written ++ taken := by
    rw [putIn_concat, hput, hputs]
  refine ⟨h.story, h.idle, h.first, rfl, ?_, ?_, hclosing, ⟨first, hfirst, ?_⟩, ?_, ?_, ?_, ?_⟩
  · rw [applyAll_concat, heq, afterWorker_worker, Worker.complete, h.completions]
  · rw [applyAll_concat, heq, afterWorker_workerLog, h.log, List.append_assoc]
  · rw [givenIn_concat, hgiven, hgives, hsound]
    rfl
  · intro j hj
    obtain ⟨hgiven, hput⟩ := h.elsewhere j hj
    obtain ⟨hgives, hputs⟩ := spares_of_afterWorker hs heq rfl hj
    rw [givenIn_concat, putIn_concat, hgiven, hput, hgives, hputs]
    exact ⟨rfl, rfl⟩
  · rw [hput]
    rcases hsent with ⟨-, hwhole⟩ | ⟨-, -, hbegins, -⟩
    · exact hwhole ▸ List.prefix_rfl
    · exact hbegins
  · rw [hput]
    rcases hsent with ⟨hdelivered, hwhole⟩ | ⟨hdelivered, -, -, hpart⟩
    · exact iff_of_true hdelivered hwhole
    · exact iff_of_false (by simp [hdelivered]) hpart
  · intro hfailed hopen later
    rcases hsent with ⟨hdelivered, -⟩ | ⟨-, hbroken, -, -⟩
    · simp [hdelivered] at hfailed
    · rw [applyAll_append]
      rw [applyAll_concat] at hopen ⊢
      exact accepted_of_hushed (hushed_of_broken (output?_of_afterWorker heq hout) hbroken hopen)
        (hs.apply .worker) later

/-- The worker starts the reply. -/
theorem Underway.begins (h : Underway a during r outcome opening line)
    (hs : (a.applyAll during).Sharing) (hgiven : a.givenIn r.connection during = [])
    (hput : a.putIn r.connection during = [])
    (hout : (a.applyAll during).output? r.connection = some out) {n : Nat}
    (heq : (a.applyAll during).apply .worker = ((a.applyAll during).afterWorker r.connection
      ⟨{ (a.applyAll during).worker with phase := .replying r outcome out.nextTicket },
        (out.startLine (r.reply outcome).line).1, [], n⟩).1) :
    Underway a (during ++ [.worker]) r outcome opening line := by
  have hafter := output?_of_afterWorker heq hout
  obtain ⟨hgives, hputs⟩ := gives_worker hout hafter
  have hgives := hgives.trans (Channel.givenSince_startLine (hs.orderly hout) _)
  have hputs := hputs.trans (Channel.putSince_of_append (List.append_nil _).symm)
  refine h.goesOn (by rw [heq]; rfl) (by rw [heq, afterWorker_workerLog, List.append_nil])
    (fun j hj => spares_of_afterWorker hs heq rfl hj) ?_
  rw [hgiven, hput, hgives, hputs, h.story.line_eq]
  exact .writes (by rw [heq]; rfl) hafter (Channel.advances_startLine ..)

/-- The worker carries on with the reply. -/
theorem Underway.carriesOn {s' : Service} (h : Underway a during r outcome opening line)
    (hs : (a.applyAll during).Sharing) (hcarrying : (a.applyAll during).Carrying) {ticket : Nat}
    {written : Bytes} (hgiven : a.givenIn r.connection during = [line])
    (hput : a.putIn r.connection during = written)
    (hphase : (a.applyAll during).worker.phase = .replying r outcome ticket)
    (hout : (a.applyAll during).output? r.connection = some out)
    (hadvances : out.Advances ticket line written)
    (heq : (a.applyAll during).apply .worker = s')
    (hstep : (a.applyAll during).WorkerTransition s') :
    Underway a (during ++ [.worker]) r outcome opening line ∨
      ∃ c closing, Answered a (during ++ [.worker]) c opening closing line := by
  obtain ⟨lines, hcarries⟩ := hcarrying hout
  obtain ⟨taken, haccepted, hfate⟩ := hadvances.poll (hs.orderly hout) hcarries
    h.story.line_ne_nil (a.applyAll during).clock
  cases hstep with
  | take hother | skip hother | stop hother | answer hother => cases hphase.symm.trans hother
  | write hreplying hout' _ hprogress =>
    cases hphase.symm.trans hreplying
    cases hout.symm.trans hout'
    obtain ⟨hgives, hputs⟩ := gives_of_poll hs hout heq haccepted
    refine .inl (h.goesOn (by rw [heq]; rfl) (by rw [heq, afterWorker_workerLog, List.append_nil])
      (fun j hj => spares_of_afterWorker hs heq rfl hj) ?_)
    rw [hgiven, hput, hgives, hputs]
    cases hfate with
    | goesOn _ hnext =>
      exact .writes (by rw [heq]; exact hphase) (output?_of_afterWorker heq hout) hnext
    | sent hdone | failed hdone => simp [hprogress] at hdone
  | deliver hreplying hout' _ hprogress =>
    cases hphase.symm.trans hreplying
    cases hout.symm.trans hout'
    refine .inr ⟨_, [], h.ends hs hgiven hput hout heq haccepted (.inl ⟨rfl, rfl⟩)
      (.inl ⟨rfl, ?_⟩)⟩
    cases hfate with
    | sent _ hwhole => exact hwhole
    | goesOn hdone | failed hdone => simp [hprogress] at hdone
  | @fail _ _ _ _ _ e hreplying hout' _ hprogress =>
    cases hphase.symm.trans hreplying
    cases hout.symm.trans hout'
    refine .inr ⟨_, [r.undeliveredEntry e],
      h.ends hs hgiven hput hout heq haccepted (.inr ⟨rfl, e, rfl⟩) (.inr ⟨rfl, ?_⟩)⟩
    cases hfate with
    | failed _ hbroken hbegins hpart => exact ⟨hbroken, hbegins, hpart⟩
    | goesOn hdone | sent hdone => simp [hprogress] at hdone

/-- **One step of a request.** Whatever happens, the request is still being answered afterwards, or
    it is answered, and the records that were missing are logged. -/
theorem Underway.apply (h : Underway a during r outcome opening line)
    (hs : (a.applyAll during).Sharing) (hcarrying : (a.applyAll during).Carrying)
    (halive : ((a.applyAll during).apply m).worker.phase ≠ .killed) :
    Underway a (during ++ [m]) r outcome opening line ∨
      ∃ c closing, Answered a (during ++ [m]) c opening closing line := by
  rcases cases_of_alive halive with
    ⟨heq, -⟩ | ⟨s', rfl, heq, hstep⟩ | ⟨hworker, hkill, -, hsame, hlog⟩
  · -- Nothing happens.
    refine .inl (h.waits (by rw [heq]) (by rw [heq]) (fun j => ?_) fun _ hout hadvances => ?_)
    · by_cases hworker : m = .worker
      · subst hworker
        exact spares_of_same hs (by rw [heq])
      · exact spares_of_ne hworker j
    · exact ⟨_, by rw [heq, hout], hadvances⟩
  · have hstage := h.stage
    generalize hgiven : a.givenIn r.connection during = given,
      hput : a.putIn r.connection during = put at hstage
    cases hstage with
    | evaluated hphase =>
      cases hstep with
      | take hother | skip hother | stop hother | write hother | deliver hother | fail hother =>
        cases hphase.symm.trans hother
      | answer hanswering hout =>
        cases hphase.symm.trans hanswering
        exact .inl (h.begins hs hgiven hput hout heq)
    | writes hphase hout hadvances =>
      exact h.carriesOn hs hcarrying hgiven hput hphase hout hadvances heq hstep
  · -- The others leave the reply where it is.
    exact .inl (h.waits hsame hlog (spares_of_ne hworker) fun hphase hout hadvances =>
      advances_of_other hs hphase hout hadvances hworker hkill)

end Request

/-! ### All requests of a run -/

section Run

variable {s₀ : Service} {moves : List Move}

/-- A part of a run is the answer to a request, and this is what it has logged. -/
inductive Recounts (s₀ : Service) (moves : List Move) (c : Completion) : List LogEntry → Prop where
  | answered {before during after : List Move} {opening closing : List LogEntry} {line : Bytes}
      (hmoves : moves = before ++ (during ++ after))
      (hanswered : Answered (s₀.applyAll before) during c opening closing line) :
      Recounts s₀ moves c (opening ++ closing)

/-- What the worker has logged of a request that it was not done with. -/
inductive Pending (s₀ : Service) (moves : List Move) : Option Request → List LogEntry → Prop where
  /-- There is no such request. -/
  | nothing (hnone : (s₀.applyAll moves).worker.request? = none) : Pending s₀ moves none []
  /-- The worker is at it. -/
  | underway {before during : List Move} {r : Request} {outcome : Outcome}
      {opening : List LogEntry} {line : Bytes} (hmoves : moves = before ++ during)
      (hunderway : Underway (s₀.applyAll before) during r outcome opening line) :
      Pending s₀ moves (some r) opening
  /-- The worker was at it when it was ended by force. -/
  | cutShort {before during after : List Move} {r : Request} {outcome : Outcome}
      {opening : List LogEntry} {line : Bytes}
      (hmoves : moves = before ++ (during ++ .killWorker :: after))
      (hunderway : Underway (s₀.applyAll before) during r outcome opening line) :
      Pending s₀ moves (some r) opening

/-- **The record of a run.** What was published is numbered in order.  The worker's log tells of one
request after the other, in this order: all of it that there is to tell of a request comes before
anything of the next.  The requests that were taken out of the queue are those that are told of, and
the one that the worker was not done with. -/
structure Recorded (s₀ : Service) (moves : List Move) : Prop where
  position : ∀ {p : Nat} {c : Completion},
    (s₀.applyAll moves).worker.completions[p]? = some c → c.position = p
  log : ∃ blocks hand rest,
    List.Forall₂ (s₀.Recounts moves) (s₀.applyAll moves).worker.completions blocks ∧
      s₀.Pending moves hand rest ∧ (s₀.applyAll moves).workerLog = blocks.flatten ++ rest ∧
      s₀.takenIn moves
        = (s₀.applyAll moves).worker.completions.map Completion.request ++ hand.toList

/-- **The reports of a run.** All requests that were taken out of the queue are on record, and they
were taken out in the order in which they were taken in. -/
structure Reported (s₀ : Service) (moves : List Move) : Prop extends s₀.Recorded moves where
  taken : s₀.takenIn moves <+: s₀.acceptedIn moves

theorem Recounts.concat {c : Completion} {block : List LogEntry} (h : s₀.Recounts moves c block)
    (m : Move) : s₀.Recounts (moves ++ [m]) c block := by
  cases h with
  | @answered before during after opening closing line hmoves hanswered =>
    have hlonger : moves ++ [m] = before ++ (during ++ (after ++ [m])) := by simp [hmoves]
    exact .answered hlonger hanswered

theorem recorded_nil (limits : SessionLimits) (queueCapacity : Nat) :
    (start limits queueCapacity).Recorded [] :=
  ⟨nofun, [], none, [], .nil, .nothing rfl, rfl, rfl⟩

/-- A worker that lives is at the request that it is not done with. -/
theorem Pending.hand_eq {hand : Option Request} {rest : List LogEntry}
    (h : s₀.Pending moves hand rest) (halive : (s₀.applyAll moves).worker.phase ≠ .killed) :
    hand = (s₀.applyAll moves).worker.request? := by
  cases h with
  | nothing hnone => exact hnone.symm
  | underway hmoves hunderway => rw [hmoves, applyAll_append, hunderway.alive.2]
  | cutShort hmoves hunderway =>
    rw [hmoves, applyAll_append] at halive
    exact absurd (hunderway.killed_after _) halive

/-- So it is told of all requests that it has taken up. -/
theorem Pending.taken {hand : Option Request} {rest : List LogEntry}
    (h : s₀.Pending moves hand rest) (hfresh : s₀.takenUp = [])
    (halive : (s₀.applyAll moves).worker.phase ≠ .killed) :
    s₀.takenIn moves
      = (s₀.applyAll moves).worker.completions.map Completion.request ++ hand.toList := by
  rw [h.hand_eq halive, ← List.nil_append (s₀.takenIn moves), ← hfresh]
  exact (takenUp_applyAll moves halive).symm

/-- Nothing is published. -/
theorem Recorded.still (h : s₀.Recorded moves) {blocks : List (List LogEntry)}
    {hand : Option Request} {rest : List LogEntry}
    (hblocks : List.Forall₂ (s₀.Recounts moves) (s₀.applyAll moves).worker.completions blocks)
    (hcompletions : ((s₀.applyAll moves).apply m).worker.completions
      = (s₀.applyAll moves).worker.completions)
    (hpending : s₀.Pending (moves ++ [m]) hand rest)
    (hlog : ((s₀.applyAll moves).apply m).workerLog = blocks.flatten ++ rest)
    (htaken : s₀.takenIn (moves ++ [m])
      = (s₀.applyAll (moves ++ [m])).worker.completions.map Completion.request ++ hand.toList) :
    s₀.Recorded (moves ++ [m]) := by
  refine ⟨?_, blocks, hand, rest, ?_, hpending, ?_, htaken⟩ <;> rw [applyAll_concat]
  · rw [hcompletions]
    exact h.position
  · rw [hcompletions]
    exact hblocks.imp fun _ _ hrecounts => hrecounts.concat m
  · exact hlog

/-- The worker is done with a request. -/
theorem Recorded.answered (h : s₀.Recorded moves) (hfresh : s₀.takenUp = [])
    {before during : List Move} {c : Completion} {opening closing : List LogEntry} {line : Bytes}
    {blocks : List (List LogEntry)}
    (hblocks : List.Forall₂ (s₀.Recounts moves) (s₀.applyAll moves).worker.completions blocks)
    (hmoves : moves ++ [m] = before ++ during)
    (hanswered : Answered (s₀.applyAll before) during c opening closing line)
    (hcompletions : (s₀.applyAll before).worker.completions
      = (s₀.applyAll moves).worker.completions)
    (hlog : (s₀.applyAll before).workerLog = blocks.flatten) : s₀.Recorded (moves ++ [m]) := by
  have hworker : (s₀.applyAll (moves ++ [m])).worker
      = ⟨.idle, (s₀.applyAll moves).worker.completions ++ [c]⟩ := by
    rw [hmoves, applyAll_append, hanswered.published, hcompletions]
  have hpending : s₀.Pending (moves ++ [m]) none [] := .nothing (by rw [hworker]; rfl)
  refine ⟨?_, blocks ++ [opening ++ closing], none, [], ?_, hpending, ?_,
    hpending.taken hfresh (by rw [hworker]; nofun)⟩
  · intro p other hother
    rw [hworker] at hother
    simp only [List.getElem?_append] at hother
    split at hother
    · exact h.position hother
    · obtain ⟨hlt, hget⟩ := List.getElem?_eq_some_iff.mp hother
      rw [List.length_singleton] at hlt
      rw [List.getElem_singleton] at hget
      rw [← hget, hanswered.position, hcompletions]
      omega
  · have hlast : moves ++ [m] = before ++ (during ++ []) := by rw [hmoves, List.append_nil]
    rw [hworker]
    exact List.rel_append (hblocks.imp fun _ _ hrecounts => hrecounts.concat m)
      (.cons (.answered hlast hanswered) .nil)
  · rw [hmoves, applyAll_append, hanswered.log, hlog]
    simp

/-- A worker that is at no request takes up the next, or goes on to be at none. -/
theorem Recorded.idles (h : s₀.Recorded moves) (hfresh : s₀.takenUp = [])
    (hs : (s₀.applyAll moves).Sharing) {blocks : List (List LogEntry)}
    (hblocks : List.Forall₂ (s₀.Recounts moves) (s₀.applyAll moves).worker.completions blocks)
    (hlog : (s₀.applyAll moves).workerLog = blocks.flatten)
    (hnone : (s₀.applyAll moves).worker.request? = none)
    (halive : (s₀.applyAll (moves ++ [m])).worker.phase ≠ .killed) :
    s₀.Recorded (moves ++ [m]) := by
  have hlog' : (s₀.applyAll moves).workerLog = blocks.flatten ++ [] := by
    rw [hlog, List.append_nil]
  rcases cases_of_alive (s₀.applyAll_concat moves m ▸ halive) with
    ⟨heq, -⟩ | ⟨s', rfl, heq, hstep⟩ | ⟨-, -, -, hsame, hsameLog⟩
  · have hpending : s₀.Pending (moves ++ [m]) none [] :=
      .nothing (by rw [applyAll_concat, heq, hnone])
    exact h.still hblocks (by rw [heq]) hpending (by rw [heq, hlog'])
      (hpending.taken hfresh halive)
  · cases hstep with
    | take hphase hwaiting hout hbroken =>
      have hunderway := underway_of_take hs hphase hwaiting hout hbroken heq
      have hpending := Pending.underway rfl hunderway
      refine h.still hblocks hunderway.completions hpending ?_ (hpending.taken hfresh halive)
      rw [← hlog]
      exact hunderway.log
    | skip hphase hwaiting hout hbroken =>
      exact h.answered hfresh hblocks rfl
        (answered_of_skip hs hphase hwaiting hout hbroken heq) rfl hlog
    | stop =>
      have hpending : s₀.Pending (moves ++ [.worker]) none [] :=
        .nothing (by rw [applyAll_concat, heq]; rfl)
      exact h.still hblocks (by rw [heq]) hpending (by rw [heq]; exact hlog')
        (hpending.taken hfresh halive)
    | answer hphase | write hphase | deliver hphase | fail hphase =>
      rw [Worker.request?, hphase] at hnone
      cases hnone
  · have hpending : s₀.Pending (moves ++ [m]) none [] :=
      .nothing (by rw [applyAll_concat, hsame, hnone])
    exact h.still hblocks (by rw [hsame]) hpending (by rw [hsameLog, hlog'])
      (hpending.taken hfresh halive)

/-- A worker that has been ended by force publishes and logs nothing. -/
theorem still_of_killed (h : (s.apply m).worker.phase = .killed) :
    (s.apply m).worker.completions = s.worker.completions ∧
      (s.apply m).workerLog = s.workerLog ∧ (s.worker.phase = .killed ∨ m = .killWorker) := by
  by_cases hworker : m = .worker
  · subst hworker
    rcases s.apply_worker with ⟨heq, -⟩ | ⟨s', heq, hstep⟩ <;> rw [heq] at h ⊢
    · exact ⟨rfl, rfl, .inl h⟩
    · cases hstep with
      | write hphase => cases hphase.symm.trans h
      | take | skip | stop | answer | deliver | fail => cases h
  by_cases hkill : m = .killWorker
  · subst hkill
    suffices hsame : s.killWorker.worker.completions = s.worker.completions ∧
        s.killWorker.workerLog = s.workerLog from ⟨hsame.1, hsame.2, .inr rfl⟩
    rcases s.killWorker_cases with ⟨heq, -⟩ | ⟨-, before, hbefore, heq⟩ <;> rw [heq]
    · exact ⟨rfl, rfl⟩
    · rcases hbefore with ⟨rfl, -⟩ | ⟨request, outcome, ticket, -, rfl⟩ <;> exact ⟨rfl, rfl⟩
  · obtain ⟨-, hsame, hlog⟩ := apply_queue hworker hkill
    rw [hsame] at h ⊢
    exact ⟨rfl, hlog, .inl h⟩

/-- Who ends a worker by force while it is at a request leaves the request as it is. -/
theorem Pending.killed {hand : Option Request} {rest : List LogEntry}
    (h : s₀.Pending moves hand rest)
    (hkilled : ((s₀.applyAll moves).apply m).worker.phase = .killed) :
    s₀.Pending (moves ++ [m]) hand rest := by
  cases h with
  | nothing => exact .nothing (by rw [applyAll_concat, Worker.request?, hkilled])
  | @underway before during r outcome opening line hmoves hunderway =>
    have halive := hunderway.alive.1
    rw [← applyAll_append, ← hmoves] at halive
    obtain rfl := (still_of_killed hkilled).2.2.resolve_left halive
    have hcut : moves ++ [.killWorker] = before ++ (during ++ [.killWorker]) := by
      rw [hmoves, List.append_assoc]
    exact .cutShort hcut hunderway
  | @cutShort before during after r outcome opening line hmoves hunderway =>
    have hlonger : moves ++ [m] = before ++ (during ++ .killWorker :: (after ++ [m])) := by
      simp [hmoves]
    exact .cutShort hlonger hunderway

/-- **Every move** keeps it so. -/
theorem Recorded.apply (h : s₀.Recorded moves) (hfresh : s₀.takenUp = [])
    (hs : (s₀.applyAll moves).Sharing)
    (hcarrying : (s₀.applyAll moves).worker.phase ≠ .killed → (s₀.applyAll moves).Carrying)
    (m : Move) : s₀.Recorded (moves ++ [m]) := by
  obtain ⟨blocks, hand, rest, hblocks, hpending, hlog, htaken⟩ := h.log
  by_cases halive : (s₀.applyAll (moves ++ [m])).worker.phase = .killed
  · -- Nothing happens any more, and nothing is taken up.
    have hkilled := s₀.applyAll_concat moves m ▸ halive
    obtain ⟨hcompletions, hsameLog, -⟩ := still_of_killed hkilled
    refine h.still hblocks hcompletions (hpending.killed hkilled) (hsameLog.trans hlog) ?_
    rw [takenIn_concat, takes?_of_killed hkilled, Option.toList_none, List.append_nil, htaken,
      applyAll_concat, hcompletions]
  have hlives : ((s₀.applyAll moves).apply m).worker.phase ≠ .killed :=
    s₀.applyAll_concat moves m ▸ halive
  cases hpending with
  | nothing hnone => exact h.idles hfresh hs hblocks (by rw [hlog, List.append_nil]) hnone halive
  | @underway before during r outcome opening line hmoves hunderway =>
    -- What was published and logged before the request was taken up.
    have hcompletions := hunderway.completions
    have hsofar := hunderway.log
    have hall : s₀.applyAll moves = (s₀.applyAll before).applyAll during := by
      rw [hmoves, applyAll_append]
    rw [← hall] at hcompletions hsofar
    rw [hsofar, List.append_cancel_right_eq] at hlog
    have hmoves' : moves ++ [m] = before ++ (during ++ [m]) := by rw [hmoves, List.append_assoc]
    rcases hunderway.apply (hall ▸ hs) (hall ▸ hcarrying (alive_of_apply hlives))
      (hall ▸ hlives) with hnext | ⟨c, closing, hanswered⟩
    · have hpending := Pending.underway hmoves' hnext
      refine h.still hblocks ?_ hpending ?_ (hpending.taken hfresh halive)
      · rw [← applyAll_concat, hmoves', applyAll_append, hnext.completions, hcompletions]
      · rw [← applyAll_concat, hmoves', applyAll_append, hnext.log, hlog]
    · exact h.answered hfresh hblocks hmoves' hanswered hcompletions.symm hlog
  | cutShort hmoves hunderway =>
    -- A worker that was ended by force does not live.
    have hbefore := alive_of_apply hlives
    rw [hmoves, applyAll_append] at hbefore
    exact absurd (hunderway.killed_after _) hbefore

theorem recorded (limits : SessionLimits) (queueCapacity : Nat) (moves : List Move) :
    (start limits queueCapacity).Recorded moves := by
  induction moves using List.reverseRecOn with
  | nil => exact recorded_nil limits queueCapacity
  | append_singleton moves m ih =>
    have hs : ((start limits queueCapacity).applyAll moves).Sharing :=
      sharing_of_reachable (Reachable.start.applyAll moves)
    refine ih.apply rfl hs (fun halive => ?_) m
    exact Carrying.applyAll (carrying_start limits queueCapacity)
      (sharing_start limits queueCapacity) moves halive

/-- **One story for all.** In every run, what was published of the requests, what the worker has
    logged of them and what it has put into their outputs agree, request by request, and no request
    that was taken up is left out. -/
theorem reported (limits : SessionLimits) (queueCapacity : Nat) (moves : List Move) :
    (start limits queueCapacity).Reported moves :=
  ⟨recorded limits queueCapacity moves, takenIn_isPrefix limits queueCapacity moves⟩

end Run

end Service

end Reckoner
