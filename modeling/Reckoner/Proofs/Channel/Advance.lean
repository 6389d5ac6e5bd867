import Reckoner.Proofs.Channel.Carriage
import Reckoner.Proofs.Channel.Shared

/-!
# One line on its way

Of a line that was given to a channel, only the steps of its own job put bytes into the pipe, and
what they put in is the beginning of it.

* `Channel.Advances` — how far a line has come, and which bytes of it went into the pipe.
* `Channel.Advances.poll_other`, `Channel.Advances.startWork` — what others do changes nothing.
* `Channel.Advances.poll` — its own job gets on, is done with all of it, or fails before the end.
-/

namespace Reckoner

namespace Channel

/-- **How far a line has come**, given the bytes that its job has put into the pipe. -/
inductive Advances (c : Channel) (ticket : Nat) (line written : Bytes) : Prop where
  /-- The job waits for its turn. -/
  | waits {job : Job} (hjob : job ∈ c.jobs) (hticket : job.ticket = ticket)
    (hunbegun : job.deadline = none) (hwork : job.work = .line line) (hnone : written = [])
  /-- The job has begun, and the rest of the line is in the buffer or with it. -/
  | begun {job : Job} {others : List Job} {deadline : Nat} {rest : Bytes}
    (hjobs : c.jobs = job :: others) (hticket : job.ticket = ticket)
    (hbegun : job.deadline = some deadline) (hwork : job.work = .line rest)
    (hleft : c.buffer ++ rest ≠ []) (hbytes : written ++ (c.buffer ++ rest) = line)

variable {c c' : Channel} {ticket : Nat} {line written : Bytes}

theorem advances_startLine (c : Channel) (line : Bytes) :
    (c.startLine line).1.Advances c.nextTicket line [] :=
  .waits (List.mem_append_right _ List.mem_cons_self) rfl rfl rfl rfl

/-- The pipe does not matter. -/
theorem Advances.congr (h : c.Advances ticket line written) (hjobs : c'.jobs = c.jobs)
    (hbuffer : c'.buffer = c.buffer) : c'.Advances ticket line written := by
  cases h with
  | waits hjob hticket hunbegun hwork hnone =>
    exact .waits (hjobs ▸ hjob) hticket hunbegun hwork hnone
  | begun hfront hticket hbegun hwork hleft hbytes =>
    exact .begun (hjobs.trans hfront) hticket hbegun hwork (hbuffer ▸ hleft) (hbuffer ▸ hbytes)

/-- What is begun by others comes behind. -/
theorem Advances.startWork (h : c.Advances ticket line written) (work : Work) :
    (c.start work).1.Advances ticket line written := by
  cases h with
  | waits hjob hticket hunbegun hwork hnone =>
    exact .waits (List.mem_append_left _ hjob) hticket hunbegun hwork hnone
  | @begun job others deadline rest hfront hticket hbegun hwork hleft hbytes =>
    have hjobs : (c.start work).1.jobs = job :: (others ++ [⟨c.nextTicket, work, none⟩]) := by
      rw [start_jobs, hfront]
      rfl
    exact .begun hjobs hticket hbegun hwork hleft hbytes

/-- Another job that takes its turn leaves the line as it is. -/
theorem Advances.poll_other (h : c.Advances ticket line written) {clock other : Nat}
    (hother : other ≠ ticket) : (c.poll clock other).channel.Advances ticket line written := by
  rcases c.operation_poll clock other with ⟨first, others, hfirst, hturn, hop⟩ | ⟨-, hpoll⟩
  · cases h with
    | @waits job hjob hticket hunbegun hwork hnone =>
      have hbehind : job ∈ others := by
        rw [hfirst] at hjob
        refine (List.mem_cons.mp hjob).resolve_left ?_
        rintro rfl
        exact hother (hturn.symm.trans hticket)
      have hstays : job ∈ (c.poll clock other).channel.jobs := by
        rcases hop.jobs with ⟨result, -, hnext⟩ | ⟨-, first', hnext, -⟩ <;> rw [hnext]
        · exact hbehind
        · exact List.mem_cons_of_mem _ hbehind
      exact .waits hstays hticket hunbegun hwork hnone
    | begun hjobs hticket =>
      -- The first job is that of the line.
      rw [hfirst] at hjobs
      cases hjobs
      exact absurd (hturn.symm.trans hticket) hother
  · rwa [hpoll]

/-- What a step of the job of a line comes to, given what it has put into the pipe before. -/
inductive Fate (ticket : Nat) (line written : Bytes) (next : JobStep) : Prop where
  /-- It has to go on. -/
  | goesOn (hprogress : next.progress = none) (hnext : next.channel.Advances ticket line written)
  /-- All of the line is in the pipe. -/
  | sent (hprogress : next.progress = some (.ok ())) (hwhole : written = line)
  /-- It has failed, and not all of the line is in the pipe. -/
  | failed {e : WriteError} (hprogress : next.progress = some (.error e))
    (hbroken : next.channel.broken = true) (hbegins : written <+: line) (hpart : written ≠ line)

/-- A line that waited takes hold of the channel, or fails. -/
theorem fate_of_unbegun {clock : Nat} {job : Job} {others : List Job} {next : JobStep}
    {lines : List Bytes} (hcarries : c.Carries c.jobs lines) (hline : line ≠ [])
    (hjobs : c.jobs = job :: others) (hunbegun : job.deadline = none)
    (hwork : job.work = .line line)
    (hop : Operation c clock job others next) :
    next.channel.pipe.accepted = c.pipe.accepted ∧ Fate job.ticket line [] next := by
  cases hop with
  | refuse _ _ hbroken =>
    exact ⟨rfl, .failed rfl hbroken List.nil_prefix hline.symm⟩
  | hold hclose | shut hclose => simp [hwork] at hclose
  | sever hstart | expire hstart | finish hstart | proceed hstart => simp [hunbegun] at hstart
  | @begin bytes rest c' _ hbytes _ hsound hload =>
    rw [hwork] at hbytes
    cases hbytes
    obtain ⟨hsame, hloaded, -⟩ := load_eq hload
    -- No other line is in the buffer, for none has been begun and not been ended.
    have hempty : c.buffer = [] := by
      cases hcarries with
      | between _ _ hbuffer => exact hbuffer
      | amid _ hqueue hbegun =>
        rw [hjobs] at hqueue
        cases hqueue
        simp [hunbegun] at hbegun
      | failed hbroken => simp [hsound] at hbroken
    rw [hempty, List.nil_append] at hloaded
    refine ⟨by rw [hsame], .goesOn rfl (.begun rfl rfl rfl rfl ?_ ?_)⟩
    · rwa [hloaded]
    · rw [List.nil_append, hloaded]

/-- A line that has been begun goes on into the pipe. -/
theorem fate_of_begun {clock deadline : Nat} {job : Job} {others : List Job} {next : JobStep}
    {rest : Bytes} (hbegun : job.deadline = some deadline) (hwork : job.work = .line rest)
    (hleft : c.buffer ++ rest ≠ []) (hbytes : written ++ (c.buffer ++ rest) = line)
    (hop : Operation c clock job others next) :
    ∃ taken, next.channel.pipe.accepted = c.pipe.accepted ++ taken ∧
      Fate job.ticket line (written ++ taken) next := by
  have hmore : c.buffer ++ job.work.rest ≠ [] := by rwa [hwork]
  obtain ⟨taken, left, haccepted, hsplit, hcases⟩ :=
    hop.line_of_begun (by rw [hwork]; rfl) hbegun hmore
  have hwhole : written ++ taken ++ left = line := by
    rw [List.append_assoc, hsplit, hwork]
    exact hbytes
  refine ⟨taken, haccepted, ?_⟩
  obtain ⟨e, hprogress, -, hbroken, hsome⟩ | ⟨hprogress, -, rfl, -⟩ |
    ⟨hprogress, -, hsome, job', hnext, hticket, hdeadline, hrest⟩ := hcases
  · refine .failed hprogress hbroken ⟨left, hwhole⟩ fun hall => hsome ?_
    rw [← hwhole] at hall
    exact List.append_right_eq_self.mp hall.symm
  · exact .sent hprogress (by rw [← hwhole, List.append_nil])
  · have hwork' : job'.work = .line job'.work.rest := by
      rcases hop.jobs with ⟨result, hresult, -⟩ | ⟨-, other, hother, -, hkind⟩
      · simp [hprogress] at hresult
      · rw [hnext] at hother
        cases hother
        cases hclose : job'.work with
        | line => rfl
        | close => simp [hwork, hclose, Work.closes] at hkind
    refine .goesOn hprogress (.begun hnext hticket hdeadline hwork' (hrest ▸ hsome) ?_)
    rw [hrest, hwhole]

/-- **The job of a line takes a step.** If it is its turn, some more of the line goes into the pipe,
    and it is done only when there is nothing left. -/
theorem Advances.poll {lines : List Bytes} (h : c.Advances ticket line written)
    (horderly : c.Orderly) (hcarries : c.Carries c.jobs lines) (hline : line ≠ []) (clock : Nat) :
    ∃ taken, (c.poll clock ticket).channel.pipe.accepted = c.pipe.accepted ++ taken ∧
      Fate ticket line (written ++ taken) (c.poll clock ticket) := by
  rcases c.operation_poll clock ticket with ⟨first, others, hfirst, hturn, hop⟩ | ⟨-, hpoll⟩
  · cases h with
    | @waits job hjob hticket hunbegun hwork hnone =>
      have hsame : job = first := by
        rw [hfirst] at hjob
        refine (List.mem_cons.mp hjob).resolve_right fun hbehind => ?_
        exact horderly.ticket_ne hfirst job hbehind (hticket.trans hturn.symm)
      subst hsame hticket hnone
      obtain ⟨haccepted, hfate⟩ :=
        fate_of_unbegun hcarries hline hfirst hunbegun hwork hop
      exact ⟨[], by rw [haccepted, List.append_nil], hfate⟩
    | begun hjobs hticket hbegun hwork hleft hbytes =>
      rw [hfirst] at hjobs
      cases hjobs
      subst hticket
      exact fate_of_begun hbegun hwork hleft hbytes hop
  · rw [hpoll]
    refine ⟨[], (List.append_nil _).symm, ?_⟩
    rw [List.append_nil]
    exact .goesOn rfl h

end Channel

end Reckoner
