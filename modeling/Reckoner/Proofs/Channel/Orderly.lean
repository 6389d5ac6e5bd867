import Reckoner.Proofs.Channel.Job

/-!
# Orderly channels

* `Channel.Orderly` — the jobs of a channel have different tickets, no job but the first has begun,
  and on a broken channel no line has.
* `Channel.Orderly.start`, `Channel.Orderly.operation` — a new job and an operation keep it so.
-/

namespace Reckoner

namespace Channel

/-- **Orderly jobs.** Tickets are given out once, only the first job may have begun, and no line
    has begun on a broken channel. -/
structure Orderly (c : Channel) : Prop where
  ticket_lt : ∀ job ∈ c.jobs, job.ticket < c.nextTicket
  nodup : (c.jobs.map Job.ticket).Nodup
  unbegun : ∀ job ∈ c.jobs.tail, job.deadline = none
  halted : c.broken = true → ∀ job ∈ c.jobs, job.work.closes = false → job.deadline = none

theorem orderly_create (capacity timeout : Nat) : (create capacity timeout).Orderly := by
  constructor <;> simp [create]

variable {c : Channel}

@[simp] theorem start_jobs (c : Channel) (work : Work) :
    (c.start work).1.jobs = c.jobs ++ [⟨c.nextTicket, work, none⟩] := rfl

/-- A new job comes last and has not begun. -/
theorem Orderly.start (h : c.Orderly) (work : Work) : (c.start work).1.Orderly := by
  refine ⟨?_, ?_, ?_, ?_⟩
  · intro job hjob
    show job.ticket < c.nextTicket + 1
    rcases List.mem_append.mp hjob with hjob | hjob
    · exact Nat.lt_succ_of_lt (h.ticket_lt job hjob)
    · rw [List.mem_singleton.mp hjob]
      exact Nat.lt_succ_self _
  · rw [start_jobs, List.map_append, List.nodup_append]
    refine ⟨h.nodup, by simp, ?_⟩
    intro ticket hticket ticket' hticket'
    obtain ⟨job, hjob, rfl⟩ := List.mem_map.mp hticket
    have hlt := h.ticket_lt job hjob
    simp only [List.map_cons, List.map_nil, List.mem_singleton] at hticket'
    omega
  · intro job hjob
    rw [start_jobs] at hjob
    cases hfirst : c.jobs with
    | nil => simp [hfirst] at hjob
    | cons first others =>
      rw [hfirst, List.cons_append, List.tail_cons, List.mem_append] at hjob
      rcases hjob with hjob | hjob
      · exact h.unbegun job (by rwa [hfirst])
      · rw [List.mem_singleton.mp hjob]
  · intro hbroken job hjob hline
    rcases List.mem_append.mp hjob with hjob | hjob
    · exact h.halted hbroken job hjob hline
    · rw [List.mem_singleton.mp hjob]

section Operation

variable {clock : Nat} {job : Job} {others : List Job} {next : JobStep}

/-- The jobs behind the first have other tickets than it. -/
theorem Orderly.ticket_ne (h : c.Orderly) (hjobs : c.jobs = job :: others) :
    ∀ other ∈ others, other.ticket ≠ job.ticket := by
  have hnodup := h.nodup
  rw [hjobs, List.map_cons, List.nodup_cons] at hnodup
  intro other hother hsame
  exact hnodup.1 (hsame ▸ List.mem_map_of_mem hother)

/-- The jobs behind the first are orderly by themselves. -/
theorem Orderly.behind (h : c.Orderly) (hjobs : c.jobs = job :: others) :
    (∀ other ∈ others, other.ticket < c.nextTicket) ∧ (others.map Job.ticket).Nodup ∧
      ∀ other ∈ others, other.deadline = none := by
  obtain ⟨hlt, hnodup, hunbegun, -⟩ := h
  rw [hjobs] at hlt hnodup hunbegun
  exact ⟨fun other hother => hlt other (List.mem_cons_of_mem _ hother),
    (List.nodup_cons.mp hnodup).2, hunbegun⟩

theorem Orderly.operation (h : c.Orderly) (hjobs : c.jobs = job :: others)
    (hop : Operation c clock job others next) : next.channel.Orderly := by
  obtain ⟨hlt, hnodup, hunbegun⟩ := h.behind hjobs
  have hjob : job ∈ c.jobs := by rw [hjobs]; exact List.mem_cons_self
  rcases hop.jobs with ⟨result, -, hnext⟩ | ⟨hnone, job', hnext, hticket, hkind⟩
  · -- The job is done, and none of those behind has begun.
    refine ⟨?_, ?_, ?_, ?_⟩ <;> rw [hnext]
    · rwa [hop.nextTicket]
    · exact hnodup
    · exact fun other hother => hunbegun other (List.mem_of_mem_tail hother)
    · exact fun _ other hother _ => hunbegun other hother
  · refine ⟨?_, ?_, ?_, ?_⟩ <;> rw [hnext]
    · rw [hop.nextTicket]
      intro other hother
      rcases List.mem_cons.mp hother with rfl | hother
      · rw [hticket]
        exact h.ticket_lt job hjob
      · exact hlt other hother
    · rw [List.map_cons, List.nodup_cons, hticket]
      refine ⟨?_, hnodup⟩
      intro hmem
      obtain ⟨other, hother, hsame⟩ := List.mem_map.mp hmem
      exact h.ticket_ne hjobs other hother hsame
    · exact hunbegun
    · intro hbroken other hother hline
      rcases List.mem_cons.mp hother with rfl | hother
      · -- The channel was broken before, and then only a closing job stays in front.
        have hbefore : c.broken = true := by
          rcases hop.broken.mp hbroken with hbefore | ⟨e, he, -⟩
          · exact hbefore
          · simp [hnone] at he
        have hcloses := hop.closes_of_broken hbefore (h.halted hbefore job hjob) hnone
        simp [hkind, hcloses] at hline
      · exact hunbegun other hother

end Operation

theorem poll_nextTicket (c : Channel) (clock ticket : Nat) :
    (c.poll clock ticket).channel.nextTicket = c.nextTicket := by
  rcases c.operation_poll clock ticket with ⟨job, others, -, -, hop⟩ | ⟨-, hpoll⟩
  · exact hop.nextTicket
  · rw [hpoll]

/-- The jobs that are left after an operation were there before. -/
theorem mem_of_poll {clock ticket : Nat} {job : Job}
    (hjob : job ∈ (c.poll clock ticket).channel.jobs) : ∃ before ∈ c.jobs,
      before.ticket = job.ticket ∧ before.work.closes = job.work.closes := by
  rcases c.operation_poll clock ticket with ⟨first, others, hjobs, -, hop⟩ | ⟨-, hpoll⟩
  · rw [hjobs]
    rcases hop.jobs with ⟨result, -, hnext⟩ | ⟨-, first', hnext, hticket, hkind⟩ <;>
      rw [hnext] at hjob
    · exact ⟨job, List.mem_cons_of_mem _ hjob, rfl, rfl⟩
    · rcases List.mem_cons.mp hjob with rfl | hjob
      · exact ⟨first, List.mem_cons_self, hticket.symm, hkind.symm⟩
      · exact ⟨job, List.mem_cons_of_mem _ hjob, rfl, rfl⟩
  · rw [hpoll] at hjob
    exact ⟨job, hjob, rfl, rfl⟩

/-- A job that is left after its own operation has no result yet. -/
theorem Orderly.progress_of_mem_poll (h : c.Orderly) {clock : Nat} {job : Job}
    (hjob : job ∈ (c.poll clock job.ticket).channel.jobs) :
    (c.poll clock job.ticket).progress = none := by
  rcases c.operation_poll clock job.ticket with ⟨first, others, hjobs, hticket, hop⟩ | ⟨-, hpoll⟩
  · rcases hop.jobs with ⟨result, -, hnext⟩ | ⟨hnone, -⟩
    · rw [hnext] at hjob
      exact absurd hticket.symm (h.ticket_ne hjobs job hjob)
    · exact hnone
  · rw [hpoll]

end Channel

end Reckoner
