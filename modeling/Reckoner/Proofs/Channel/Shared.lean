import Reckoner.Proofs.Channel.Orderly

/-!
# A channel with two users

The lines for one client come from whoever looks after its connection and from the worker.  Each of
them has at most one job on the channel at a time.

* `Channel.Shared` — the jobs of a channel are those of its two users.
* `Channel.Shared.start`, `Channel.Shared.poll`, `Channel.Shared.abandon` — what one of them does
  keeps it so.
-/

namespace Reckoner

namespace Channel

/-- **Two users.** The jobs of an orderly channel belong to two users under different tickets. -/
structure Shared (c : Channel) (a b : Option Nat) : Prop where
  orderly : c.Orderly
  owner : ∀ job ∈ c.jobs, a = some job.ticket ∨ b = some job.ticket
  left : ∀ {ticket}, a = some ticket → ∃ job ∈ c.jobs, job.ticket = ticket
  right : ∀ {ticket}, b = some ticket → ∃ job ∈ c.jobs, job.ticket = ticket
  apart : ∀ {ticket}, a = some ticket → b ≠ some ticket

variable {c c' : Channel} {a b : Option Nat} {ticket : Nat}

theorem shared_create (capacity timeout : Nat) : (create capacity timeout).Shared none none := by
  refine ⟨orderly_create capacity timeout, ?_, ?_, ?_, ?_⟩ <;> simp [create]

theorem Shared.symm (h : c.Shared a b) : c.Shared b a :=
  ⟨h.orderly, fun job hjob => (h.owner job hjob).symm, h.right, h.left,
    fun hb ha => h.apart ha hb⟩

/-- The pipe and the buffer do not matter. -/
theorem Shared.congr (h : c.Shared a b) (hjobs : c'.jobs = c.jobs)
    (hticket : c'.nextTicket = c.nextTicket) (hbroken : c'.broken = c.broken) :
    c'.Shared a b := by
  obtain ⟨⟨hlt, hnodup, hunbegun, hhalted⟩, howner, hleft, hright, hapart⟩ := h
  refine ⟨⟨?_, ?_, ?_, ?_⟩, ?_, ?_, ?_, hapart⟩ <;> rw [hjobs]
  · rwa [hticket]
  · exact hnodup
  · exact hunbegun
  · rwa [hbroken]
  · exact howner
  · exact hleft
  · exact hright

/-- A user who has no job starts one. -/
theorem Shared.start (h : c.Shared none b) (work : Work) :
    (c.start work).1.Shared (some c.nextTicket) b := by
  refine ⟨h.orderly.start work, ?_, ?_, ?_, ?_⟩
  · intro job hjob
    rw [start_jobs] at hjob
    rcases List.mem_append.mp hjob with hjob | hjob
    · rcases h.owner job hjob with hnone | hb
      · cases hnone
      · exact .inr hb
    · rw [List.mem_singleton.mp hjob]
      exact .inl rfl
  · rintro ticket hticket
    cases hticket
    exact ⟨⟨c.nextTicket, work, none⟩, by rw [start_jobs]; simp, rfl⟩
  · intro ticket hb
    obtain ⟨job, hjob, hsame⟩ := h.right hb
    exact ⟨job, by rw [start_jobs]; exact List.mem_append_left _ hjob, hsame⟩
  · rintro ticket hticket hb
    cases hticket
    obtain ⟨job, hjob, hsame⟩ := h.right hb
    have hlt := h.orderly.ticket_lt job hjob
    omega

/-- A user polls its job, and has none any more once there is a result. -/
theorem Shared.poll (h : c.Shared (some ticket) b) (clock : Nat) :
    (c.poll clock ticket).channel.Shared
      (if (c.poll clock ticket).progress.isSome then none else some ticket) b := by
  rcases c.operation_poll clock ticket with ⟨job, others, hjobs, rfl, hop⟩ | ⟨-, hpoll⟩
  · have horderly := h.orderly.operation hjobs hop
    have hne := h.orderly.ticket_ne hjobs
    -- The jobs behind are those of the other user.
    have hbehind : ∀ other ∈ others, b = some other.ticket := by
      intro other hother
      rcases h.owner other (by rw [hjobs]; exact List.mem_cons_of_mem _ hother) with hsame | hb
      · exact absurd (Option.some.inj hsame).symm (hne other hother)
      · exact hb
    have hright {t : Nat} (hb : b = some t) : ∃ other ∈ others, other.ticket = t := by
      obtain ⟨other, hother, hsame⟩ := h.right hb
      rw [hjobs, List.mem_cons] at hother
      rcases hother with rfl | hother
      · exact absurd (hsame ▸ hb) (h.apart rfl)
      · exact ⟨other, hother, hsame⟩
    rcases hop.jobs with ⟨result, hresult, hnext⟩ | ⟨hnone, job', hnext, hticket, -⟩
    · rw [hresult, Option.isSome_some, if_pos rfl]
      refine ⟨horderly, ?_, nofun, ?_, nofun⟩ <;> rw [hnext]
      · exact fun other hother => .inr (hbehind other hother)
      · exact hright
    · rw [hnone, Option.isSome_none, if_neg Bool.false_ne_true]
      refine ⟨horderly, ?_, ?_, ?_, h.apart⟩ <;> rw [hnext]
      · intro other hother
        rcases List.mem_cons.mp hother with rfl | hother
        · exact .inl (by rw [hticket])
        · exact .inr (hbehind other hother)
      · intro t ht
        cases ht
        exact ⟨job', List.mem_cons_self, hticket⟩
      · intro t hb
        obtain ⟨other, hother, hsame⟩ := hright hb
        exact ⟨other, List.mem_cons_of_mem _ hother, hsame⟩
  · rw [hpoll]
    exact h

/-- A user gives up its job. -/
theorem Shared.abandon (h : c.Shared (some ticket) b) : (c.abandon ticket).Shared none b := by
  have hsub : (c.abandon ticket).jobs.Sublist c.jobs := List.filter_sublist
  have hother {job : Job} (hjob : job ∈ (c.abandon ticket).jobs) :
      job ∈ c.jobs ∧ job.ticket ≠ ticket := by
    simpa [Channel.abandon] using hjob
  refine ⟨⟨?_, ?_, ?_, ?_⟩, ?_, nofun, ?_, nofun⟩
  · exact fun job hjob => h.orderly.ticket_lt job (hother hjob).1
  · exact h.orderly.nodup.sublist (hsub.map _)
  · intro job hjob
    refine h.orderly.unbegun job ?_
    have hjob : job ∈ (c.jobs.filter fun job => job.ticket ≠ ticket).tail := hjob
    cases hjobs : c.jobs with
    | nil => simp [hjobs] at hjob
    | cons first others =>
      rw [hjobs, List.filter_cons] at hjob
      split at hjob
      · exact List.mem_of_mem_filter hjob
      · exact List.mem_of_mem_filter (List.mem_of_mem_tail hjob)
  · exact fun hbroken job hjob => h.orderly.halted hbroken job (hother hjob).1
  · intro job hjob
    obtain ⟨hmem, hne⟩ := hother hjob
    rcases h.owner job hmem with hsame | hb
    · exact absurd (Option.some.inj hsame).symm hne
    · exact .inr hb
  · intro t hb
    obtain ⟨job, hjob, rfl⟩ := h.right hb
    refine ⟨job, ?_, rfl⟩
    have hne : job.ticket ≠ ticket := by
      rintro hsame
      exact h.apart rfl (hsame ▸ hb)
    simpa [Channel.abandon] using ⟨hjob, hne⟩

end Channel

end Reckoner
