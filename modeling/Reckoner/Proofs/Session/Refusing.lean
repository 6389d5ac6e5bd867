import Reckoner.Proofs.Channel.Carriage
import Reckoner.Proofs.Session.Tickets

/-!
# What a refused client is told

A refused client is told one line, and then its output is closed.  A client who does not take the
line is given up instead.

* `Channel.Carries.shut` — a job to close finds nothing to flush, and closes the pipe at once.
* `Refusal.Tells` — how far the client has been told, at each point of refusing it.
* `Refusal.Tells.step` — a step of refusing it keeps it so.
* `Refusal.Tells.begins`, `Refusal.Tells.whole`, `Refusal.Tells.account` — what that says of the
  output.
* `Refusal.Tells.step_of_due` — to refuse a client never has to wait longer than the time limit.
-/

namespace Reckoner

namespace Channel

variable {c : Channel} {queue : List Job} {lines : List Bytes} {clock ticket : Nat}

/-- On a channel that is not broken, a job that is still at work does not break it. -/
theorem sound_of_poll (hsound : c.broken = false)
    (hnone : ∀ e, (c.poll clock ticket).progress ≠ some (.error e)) :
    (c.poll clock ticket).channel.broken = false := by
  rcases c.operation_poll clock ticket with ⟨job, others, -, -, hop⟩ | ⟨-, hpoll⟩
  · by_contra hbroken
    rcases hop.broken.mp (by simpa using hbroken) with hbefore | ⟨e, hfails, -⟩
    · simp [hsound] at hbefore
    · exact hnone e hfails
  · rwa [hpoll]

/-- Where nobody has a job, there is none. -/
theorem Shared.jobs_eq_nil (h : c.Shared none none) : c.jobs = [] := by
  refine List.eq_nil_iff_forall_not_mem.mpr fun job hjob => ?_
  rcases h.owner job hjob with hnone | hnone <;> cases hnone

/-- All bytes of the lines are in the pipe or the buffer, or are still to be written. -/
theorem Carries.account (h : c.Carries queue lines) (hsound : c.broken = false) :
    c.committed ++ owed queue = lines.flatten := by
  cases h with
  | between _ _ hbuffer hbytes => rwa [committed, hbuffer, List.append_nil]
  | amid _ _ _ _ _ _ hbytes => exact hbytes
  | failed hbroken => simp [hsound] at hbroken

/-- A job to close that is ready finds nothing to flush, and closes the pipe at once. -/
theorem Carries.shut (h : c.Carries c.jobs lines) (hsound : c.broken = false)
    (hcloses : ∀ job ∈ c.jobs, job.work.closes = true)
    (hready : c.isReady clock ticket = true) :
    (c.poll clock ticket).progress = some (.ok ()) ∧
      (c.poll clock ticket).channel = { c with pipe := c.pipe.close, jobs := c.jobs.tail } := by
  rcases c.operation_poll clock ticket with ⟨job, others, hjobs, -, hop⟩ | ⟨hturn, -⟩
  · have hfront : job ∈ c.jobs := by rw [hjobs]; exact List.mem_cons_self
    -- The job has not begun, and nothing is left of a line before it.
    obtain ⟨hunbegun, hbuffer⟩ : job.deadline = none ∧ c.buffer = [] := by
      cases h with
      | between _ hwaits hbuffer => exact ⟨(hwaits job hfront).unbegun, hbuffer⟩
      | @amid first others _ _ hqueue _ hline =>
        have hfirst : first ∈ c.jobs := by rw [hqueue]; exact List.mem_cons_self
        simp [hcloses first hfirst] at hline
      | failed hbroken => simp [hsound] at hbroken
    have hwork := hcloses job hfront
    generalize c.poll clock ticket = next at hop
    cases hop with
    | refuse hline | begin hline => simp [hline, Work.closes] at hwork
    | hold _ _ hleft => exact absurd hbuffer hleft
    | shut =>
      rw [hjobs]
      exact ⟨rfl, rfl⟩
    | sever hstart | expire hstart | finish hstart | proceed hstart => simp [hunbegun] at hstart
  · unfold isReady at hready
    cases hjobs : c.jobs with
    | nil => simp [hjobs] at hready
    | cons job others => simp [hjobs, hturn job (by rw [hjobs]; rfl)] at hready

end Channel

namespace Refusal

variable {r : Refusal} {out : Channel} {clock : Nat} {next : RefusalStep}

/-- The lines that the client is told, from the first step on. -/
def lines : Refusal → List Bytes
  | fresh => []
  | telling _ | told | shutting _ | finished => [Response.busy.line]

/-- The job on the output is to close it. -/
def shuts : Refusal → Bool
  | shutting _ => true
  | fresh | telling _ | told | finished => false

/-- **Telling a refused client.** Nobody else writes to its output.  What was told, and no more, is
    in the channel; only a client who has not taken the line breaks it, and it is closed in the end
    just if the client has. -/
structure Tells (r : Refusal) (out : Channel) : Prop where
  shared : out.Shared r.ticket? none
  carries : out.Carries out.jobs r.lines
  closes : ∀ job ∈ out.jobs, job.work.closes = r.shuts
  broken : out.broken = true →
    r = .finished ∧ out.pipe.accepted.length < Response.busy.line.length
  closed : out.pipe.closed = true ↔ r = .finished ∧ out.broken = false

theorem tells_create (capacity timeout : Nat) : fresh.Tells (.create capacity timeout) := by
  refine ⟨Channel.shared_create capacity timeout, Channel.carries_create capacity timeout,
    ?_, ?_, ?_⟩ <;> simp [Channel.create]

/-- What the client does to the pipe does not matter. -/
theorem Tells.congr (h : r.Tells out) {pipe : Pipe} (haccepted : pipe.accepted = out.pipe.accepted)
    (hclosed : pipe.closed = out.pipe.closed) : r.Tells { out with pipe } := by
  refine ⟨h.shared.congr rfl rfl rfl, h.carries.congr rfl rfl haccepted, h.closes, ?_, ?_⟩
  · show out.broken = true → r = .finished ∧ pipe.accepted.length < _
    rw [haccepted]
    exact h.broken
  · show pipe.closed = true ↔ _
    rw [hclosed]
    exact h.closed

/-! ### Steps -/

theorem Tells.sound (h : r.Tells out) (hr : r ≠ .finished) : out.broken = false := by
  by_contra hbroken
  exact hr (h.broken (by simpa using hbroken)).1

theorem Tells.isOpen (h : r.Tells out) (hr : r ≠ .finished) : out.pipe.closed = false := by
  by_contra hclosed
  exact hr (h.closed.mp (by simpa using hclosed)).1

/-- A line that is not done yet, or is done, or has failed, closes nothing. -/
theorem Tells.isOpen_of_poll (h : r.Tells out) (hr : r ≠ .finished) (hline : r.shuts = false)
    (clock ticket : Nat) : (out.poll clock ticket).channel.pipe.closed = false := by
  by_contra hclosed
  -- Only a job to close has closed it, and there is none.
  rcases Channel.closed_of_poll (by simpa using hclosed) with hbefore | ⟨job, hjob, hcloses⟩
  · simp [h.isOpen hr] at hbefore
  · simp [h.closes job hjob, hline] at hcloses

/-- A job is started, where there is none. -/
theorem Tells.start (h : r.Tells out) (hr : r ≠ .finished) (hnone : r.ticket? = none)
    {r' : Refusal} {work : Work} (hticket : r'.ticket? = some out.nextTicket)
    (hcarries : (out.start work).1.Carries (out.start work).1.jobs r'.lines)
    (hkind : work.closes = r'.shuts) : r'.Tells (out.start work).1 := by
  have hfree := h.shared
  rw [hnone] at hfree
  have hr' : r' ≠ .finished := by
    rintro rfl
    cases hticket
  refine ⟨hticket ▸ hfree.start work, hcarries, ?_, fun hbroken => ?_, ?_⟩
  · intro job hjob
    rw [Channel.start_jobs, hfree.jobs_eq_nil, List.nil_append, List.mem_singleton] at hjob
    rw [hjob, hkind]
  · have hbefore : out.broken = true := hbroken
    simp [h.sound hr] at hbefore
  · show out.pipe.closed = true ↔ _
    simp [h.isOpen hr, hr']

/-- The line gets on.  If it is done, the output is closed next; if it has failed, nothing more is
    done. -/
theorem Tells.step_telling {ticket : Nat} (h : (telling ticket).Tells out)
    (hstep : (telling ticket).step clock out = some next) : next.refusal.Tells next.output := by
  have hshared := shared_of_step hstep h.shared
  have hsound := h.sound nofun
  have hopen := h.isOpen_of_poll nofun rfl clock ticket
  have hlines : out.jobs = out.jobs ++ [] := (List.append_nil _).symm
  obtain ⟨queue', hjobs, hcarries, -⟩ :=
    h.carries.poll h.shared.orderly hlines (fun _ => rfl) clock ticket
  rw [List.append_nil] at hjobs
  rw [← hjobs] at hcarries
  have hcloses : ∀ job ∈ (out.poll clock ticket).channel.jobs, job.work.closes = false := by
    intro job hjob
    obtain ⟨before, hbefore, -, hkind⟩ := Channel.mem_of_poll hjob
    rw [← hkind]
    exact h.closes before hbefore
  have hne : out.jobs ≠ [] := by
    obtain ⟨job, hjob, -⟩ := h.shared.left rfl
    exact List.ne_nil_of_mem hjob
  simp only [step, carryOn] at hstep
  split at hstep
  · cases hprogress : (out.poll clock ticket).progress with
    | none =>
      simp only [hprogress, Option.isSome_none, Bool.false_eq_true, if_false] at hstep
      cases hstep
      have hstill : (out.poll clock ticket).channel.broken = false :=
        Channel.sound_of_poll hsound (by simp [hprogress])
      exact ⟨hshared, hcarries, hcloses, by simp [hstill], by simp [hopen]⟩
    | some result =>
      -- It does not look at the result, but at the channel, which may have broken.
      simp only [hprogress, Option.isSome_some, if_true, afterTelling] at hstep
      cases hbroken : (out.poll clock ticket).channel.broken with
      | true =>
        simp only [hbroken, if_true] at hstep
        cases hstep
        have hshort := h.carries.short_of_poll hsound hlines hne hbroken
        exact ⟨hshared, hcarries, hcloses, fun _ => ⟨rfl, by simpa [lines] using hshort⟩,
          by simp [hopen, hbroken]⟩
      | false =>
        simp only [hbroken, Bool.false_eq_true, if_false] at hstep
        cases hstep
        exact ⟨hshared, hcarries, hcloses, by simp [hbroken], by simp [hopen]⟩
  · cases hstep

/-- The line is there, so the output is closed at once. -/
theorem Tells.step_shutting {ticket : Nat} (h : (shutting ticket).Tells out)
    (hstep : (shutting ticket).step clock out = some next) : next.refusal.Tells next.output := by
  have hshared := shared_of_step hstep h.shared
  have hsound := h.sound nofun
  obtain ⟨queue', hjobs, hcarries, -⟩ :=
    h.carries.poll h.shared.orderly (List.append_nil _).symm (fun _ => rfl) clock ticket
  rw [List.append_nil] at hjobs
  rw [← hjobs] at hcarries
  simp only [step, carryOn] at hstep
  split at hstep
  · rename_i hready
    obtain ⟨hprogress, hchannel⟩ := h.carries.shut hsound h.closes hready
    simp only [hprogress, Option.isSome_some, if_true] at hstep
    cases hstep
    have hnone : (out.poll clock ticket).channel.jobs = [] := hshared.jobs_eq_nil
    refine ⟨hshared, hcarries, by simp [hnone], ?_, ?_⟩ <;> simp [hchannel, hsound, Pipe.close]
  · cases hstep

/-- **Each step** keeps it so. -/
theorem Tells.step (h : r.Tells out) (hstep : r.step clock out = some next) :
    next.refusal.Tells next.output := by
  cases r with
  | fresh =>
    have hsound := h.sound (by simp)
    simp only [Refusal.step, tell, hsound, Bool.false_eq_true, if_false] at hstep
    cases hstep
    exact h.start (by simp) rfl rfl (h.carries.startLine (List.cons_ne_nil _ _)) rfl
  | telling ticket => exact h.step_telling hstep
  | told =>
    cases hstep
    exact h.start (by simp) rfl rfl h.carries.startClose rfl
  | shutting ticket => exact h.step_shutting hstep
  | finished => cases hstep

/-! ### What that says of the output -/

/-- Only the line is in the pipe. -/
theorem Tells.begins (h : r.Tells out) : out.pipe.accepted <+: Response.busy.line := by
  have hbegins := h.carries.begins
  cases r with
  | fresh => exact hbegins.trans List.nil_prefix
  | telling | told | shutting | finished => rwa [lines, List.flatten_singleton] at hbegins

/-- From the first step on the line is in the pipe or the buffer, or is still to be written, and
    nothing else is. -/
theorem Tells.account (h : r.Tells out) (hsound : out.broken = false) :
    out.committed ++ Channel.owed out.jobs = if r = .fresh then [] else Response.busy.line := by
  rw [h.carries.account hsound]
  cases r <;> simp [lines]

/-- Where the output is closed, all of the line is there. -/
theorem Tells.whole (h : r.Tells out) (hclosed : out.pipe.closed = true) :
    out.pipe.accepted = Response.busy.line := by
  obtain ⟨rfl, hsound⟩ := h.closed.mp hclosed
  have hcarries := h.carries
  rw [h.shared.jobs_eq_nil] at hcarries
  exact (hcarries.whole hsound).trans (List.append_nil _)

/-- **No endless waiting.** Until the client is told or given up, there is a next step, at the
    latest when the time of the job is up. -/
theorem Tells.step_of_due (h : r.Tells out) (hr : r ≠ .finished)
    (hdue : out.deadline?.getD 0 ≤ clock) : (r.step clock out).isSome = true := by
  have hready {ticket : Nat} (hticket : r.ticket? = some ticket) :
      (r.step clock out).isSome = true := by
    obtain ⟨job, hjob, -⟩ := h.shared.left hticket
    -- It is the only job, so it has its turn.
    have hturn : out.isReady clock ticket = true := by
      cases hjobs : out.jobs with
      | nil => simp [hjobs] at hjob
      | cons first others =>
        have howner : r.ticket? = some first.ticket :=
          (h.shared.owner first (by rw [hjobs]; exact List.mem_cons_self)).resolve_right nofun
        rw [hticket, Option.some.injEq] at howner
        rw [Channel.deadline?, hjobs] at hdue
        have hdue : first.deadline.getD 0 ≤ clock := hdue
        simp [Channel.isReady, hjobs, howner, hdue]
    obtain ⟨next, hnext, -⟩ := step_of_ready hticket hturn
    rw [hnext]
    rfl
  cases r with
  | fresh | told => rfl
  | telling | shutting => exact hready rfl
  | finished => exact absurd rfl hr

end Refusal

end Reckoner
