import Reckoner.Proofs.Channel.Orderly
import Mathlib.Data.Prod.Lex

/-!
# Jobs get on

A job waits while others are before it, and while the pipe is full and its time is not up.  Whenever
the first job need not wait, it ends or has less to do afterwards.

* `Channel.ahead`, `Channel.frontWork` — how many jobs are before one, and how much the first job
  has still to do.
* `Channel.Operation.frontWork_lt` — a job that need not wait comes to its end or gets on.
* `Channel.Headway` — nothing that happens to a channel throws a job back.
-/

namespace Reckoner

namespace Channel

variable {c c' : Channel} {ticket : Nat}

/-! ### The first job -/

/-- How many jobs are before that of a ticket. -/
def ahead (c : Channel) (ticket : Nat) : Nat := c.jobs.findIdx fun job => job.ticket = ticket

/-- How much the first job has still to do: to begin, and to write its bytes and those in the
    buffer. -/
def frontWork (c : Channel) : Nat :=
  match c.jobs with
  | [] => 0
  | job :: _ =>
    c.buffer.length + job.work.rest.length + if job.deadline.isNone then 1 else 0

theorem length_rest_withRest_le (w : Work) (rest : Bytes) :
    (w.withRest rest).rest.length ≤ rest.length := by
  cases w <;> simp [Work.withRest, Work.rest]

section Operation

variable {clock : Nat} {job : Job} {others : List Job} {next : JobStep}

/-- A job that has begun, need not wait, and is not done by the next write puts something into the
    pipe. -/
theorem offered_pos {c' : Channel} {rest : Bytes} {deadline : Nat} (hjobs : c.jobs = job :: others)
    (hready : c.isReady clock job.ticket = true) (hstart : job.deadline = some deadline)
    (hwrite : c.write job.work.rest = some (c', rest)) (hleft : c'.buffer ++ rest ≠ [])
    (htime : c'.pipe.room = 0 → clock < deadline) :
    0 < ((c.offered job.work.rest).take c.pipe.room).length := by
  obtain ⟨hsound, hsame, hbytes, -⟩ := write_eq_some hwrite
  rw [List.length_pos_iff]
  intro hnone
  rcases List.take_eq_nil_iff.mp hnone with hroom | hoffered
  · -- The pipe is full, so the job need not wait only because its time is up.
    have hroom' : c'.pipe.room = 0 := by
      rw [hsame]
      show (c.pipe.put _).room = 0
      rw [hnone, Pipe.put_nil, hroom]
    have hlater := htime hroom'
    simp [isReady, hjobs, hsound, hroom, hstart] at hready
    omega
  · rw [hnone, List.nil_append] at hbytes
    refine hleft (hbytes.trans ?_)
    unfold offered at hoffered
    split at hoffered
    · rename_i hempty
      rw [hoffered, List.isEmpty_iff.mp hempty]
      rfl
    · rename_i hbuffer
      simp [hoffered] at hbuffer

/-- **Jobs get on.** A job that has its turn and need not wait comes to an end, or has less to
    do afterwards. -/
theorem Operation.frontWork_lt (h : Operation c clock job others next)
    (hjobs : c.jobs = job :: others) (hready : c.isReady clock job.ticket = true)
    (hnone : next.progress = none) : next.channel.frontWork < c.frontWork := by
  have hfront : c.frontWork = c.buffer.length + job.work.rest.length
      + if job.deadline.isNone then 1 else 0 := by
    rw [frontWork, hjobs]
  rw [hfront]
  cases h with
  | refuse => cases hnone
  | begin hwork hstart hbroken hload =>
    -- What is loaded goes from the job into the buffer, so beginning is all that is done.
    have hbytes := congrArg List.length (load_eq hload).2.1
    rw [List.length_append, List.length_append] at hbytes
    rw [hwork, hstart]
    simp only [frontWork, Work.rest, Option.isNone_none, Option.isNone_some, Bool.false_eq_true,
      if_true, if_false]
    omega
  | hold hwork hstart =>
    rw [hstart]
    simp [frontWork]
  | shut => cases hnone
  | sever => simp at hnone
  | expire => simp at hnone
  | finish => simp at hnone
  | proceed hstart hwrite hleft htime =>
    rename_i c' rest
    -- All bytes are still somewhere, and some of them are in the pipe now.
    have hsome := offered_pos hjobs hready hstart hwrite hleft htime
    have hbytes := congrArg List.length (write_eq_some hwrite).2.2.1
    rw [List.length_append, List.length_append, List.length_append] at hbytes
    have hrest := length_rest_withRest_le job.work rest
    rw [hstart]
    simp only [frontWork, Option.isNone_some, Bool.false_eq_true, if_false, Nat.add_zero]
    omega

end Operation

/-- Polling a job that need not wait ends it, or gets it on. -/
theorem poll_of_ready {clock : Nat} (hready : c.isReady clock ticket = true) :
    ∃ job others, c.jobs = job :: others ∧ job.ticket = ticket ∧
      ((c.poll clock ticket).progress.isSome = true ∧
          (c.poll clock ticket).channel.jobs = others ∨
        (c.poll clock ticket).progress = none ∧
          (∃ job', (c.poll clock ticket).channel.jobs = job' :: others ∧ job'.ticket = ticket) ∧
          (c.poll clock ticket).channel.frontWork < c.frontWork) := by
  rcases c.operation_poll clock ticket with ⟨job, others, hjobs, rfl, hop⟩ | ⟨hturn, -⟩
  · refine ⟨job, others, hjobs, rfl, ?_⟩
    rcases hop.jobs with ⟨result, hresult, hnext⟩ | ⟨hnone, job', hnext, hticket, -⟩
    · exact .inl ⟨by rw [hresult]; rfl, hnext⟩
    · exact .inr ⟨hnone, ⟨job', hnext, hticket⟩, hop.frontWork_lt hjobs hready hnone⟩
  · unfold isReady at hready
    cases hjobs : c.jobs with
    | nil => simp [hjobs] at hready
    | cons job others =>
      have hother := hturn job (by rw [hjobs]; rfl)
      simp [hjobs, hother] at hready

/-! ### The other jobs -/

/-- What stands between a job and its end: the jobs before it, and what the first has to do. -/
def remaining (c : Channel) (ticket : Nat) : Nat ×ₗ Nat := toLex (c.ahead ticket, c.frontWork)

/-- **Headway.** The job of a ticket is nearer to its end than before, or just as near, and then the
    same job has its turn. -/
def Headway (ticket : Nat) (c c' : Channel) : Prop :=
  c'.remaining ticket < c.remaining ticket ∨
    c'.remaining ticket = c.remaining ticket ∧ c'.jobs.head? = c.jobs.head?

/-- The pipe does not matter. -/
theorem headway_of_same (hjobs : c'.jobs = c.jobs) (hbuffer : c'.buffer = c.buffer) :
    Headway ticket c c' := by
  refine .inr ⟨?_, congrArg List.head? hjobs⟩
  rw [remaining, remaining, ahead, ahead, frontWork, frontWork, hjobs, hbuffer]

/-- A new job comes behind all others. -/
theorem headway_start (h : ∃ job ∈ c.jobs, job.ticket = ticket) (work : Work) :
    Headway ticket c (c.start work).1 := by
  obtain ⟨job, hjob, hsame⟩ := h
  have hahead : (c.start work).1.ahead ticket = c.ahead ticket := by
    rw [ahead, start_jobs, List.findIdx_append, if_pos]
    · rfl
    · exact List.findIdx_lt_length_of_exists ⟨job, hjob, by simpa using hsame⟩
  obtain ⟨first, others, hjobs⟩ := List.exists_cons_of_ne_nil (List.ne_nil_of_mem hjob)
  refine .inr ⟨?_, ?_⟩
  · rw [remaining, hahead, remaining, frontWork, frontWork, start_jobs, hjobs]
    rfl
  · rw [start_jobs, hjobs]
    rfl

/-- Where a job is given up, those behind it come nearer to their turn. -/
theorem ahead_abandon_le {other : Nat} (hne : other ≠ ticket) :
    (c.abandon other).ahead ticket ≤ c.ahead ticket := by
  unfold ahead abandon
  induction c.jobs with
  | nil => exact Nat.le_refl _
  | cons job jobs ih =>
    rw [List.filter_cons]
    split
    · rw [List.findIdx_cons, List.findIdx_cons]
      cases decide (job.ticket = ticket) with
      | true => exact Nat.le_refl _
      | false => exact Nat.succ_le_succ ih
    · rename_i hother
      have hticket : job.ticket ≠ ticket := by
        simp only [ne_eq, decide_not, Bool.not_eq_true', decide_eq_false_iff_not, not_not]
          at hother
        rwa [hother]
      rw [List.findIdx_cons, decide_eq_false hticket]
      exact ih.trans (Nat.le_succ _)

/-- The others are not thrown back by that. -/
theorem headway_abandon {other : Nat} (h : ∃ job ∈ c.jobs, job.ticket = ticket)
    (hne : other ≠ ticket) : Headway ticket c (c.abandon other) := by
  obtain ⟨job, hjob, -⟩ := h
  obtain ⟨first, others, hjobs⟩ := List.exists_cons_of_ne_nil (List.ne_nil_of_mem hjob)
  by_cases hfirst : first.ticket = other
  · -- The first job is given up, so all of them have one job less before them.
    have hahead : (c.abandon other).ahead ticket
        ≤ ({ c with jobs := others } : Channel).ahead ticket := by
      have hbehind := ahead_abandon_le (c := { c with jobs := others }) hne
      simpa only [ahead, abandon, hjobs, List.filter_cons, hfirst, ne_eq, not_true_eq_false,
        decide_false, Bool.false_eq_true, if_false] using hbehind
    have hless : ({ c with jobs := others } : Channel).ahead ticket < c.ahead ticket := by
      rw [ahead, ahead, hjobs, List.findIdx_cons, decide_eq_false (hfirst ▸ hne)]
      exact Nat.lt_succ_self _
    left
    rw [remaining, remaining, Prod.Lex.toLex_lt_toLex]
    exact .inl (Nat.lt_of_le_of_lt hahead hless)
  · have hkept : (c.abandon other).jobs = first :: others.filter fun job => job.ticket ≠ other := by
      simp [abandon, hjobs, hfirst]
    have hfront : (c.abandon other).frontWork = c.frontWork := by
      rw [frontWork, frontWork, hkept, hjobs]
      rfl
    rcases (ahead_abandon_le hne).lt_or_eq with hless | hsame
    · left
      rw [remaining, remaining, Prod.Lex.toLex_lt_toLex]
      exact .inl hless
    · refine .inr ⟨?_, by rw [hkept, hjobs]; rfl⟩
      rw [remaining, remaining, hsame, hfront]

/-- A job that has its turn and need not wait brings all jobs behind it on, and itself unless it is
    done. -/
theorem remaining_poll_lt {clock first : Nat} (hready : c.isReady clock first = true)
    (h : first ≠ ticket ∨ (c.poll clock first).progress = none) :
    (c.poll clock first).channel.remaining ticket < c.remaining ticket := by
  obtain ⟨job, others, hjobs, rfl, hpoll⟩ := poll_of_ready hready
  rw [remaining, remaining, Prod.Lex.toLex_lt_toLex]
  rcases hpoll with ⟨hdone, hnext⟩ | ⟨-, ⟨job', hnext, hsame⟩, hless⟩
  · have hne : job.ticket ≠ ticket := by
      rcases h with hne | hnone
      · exact hne
      · rw [hnone] at hdone
        cases hdone
    left
    rw [ahead, ahead, hnext, hjobs, List.findIdx_cons]
    simp [hne]
  · refine .inr ⟨?_, hless⟩
    rw [ahead, ahead, hnext, hjobs, List.findIdx_cons, List.findIdx_cons, hsame]

end Channel

end Reckoner
