import Reckoner.Proofs.Channel.Orderly
import Reckoner.Proofs.Channel.Traffic

/-!
# Calls, jobs and the broken channel

* `Traffic.Coherent` — how the calls on a channel, its jobs and its being broken go together.
* `Traffic.coherent_of_reachable` — they do so in every state that a channel can get into, by one
  lemma for each kind of move.
-/

namespace Reckoner

namespace Traffic

variable {t : Traffic}

/-! ### Looking at a call that has moved on -/

theorem getElem?_advance {k : Nat} {old : Call} (hk : t.calls[k]? = some old) (work : Work)
    (stage : CallStage) (channel : Channel) (k' : Nat) :
    (t.advance k work stage channel).calls[k']?
      = if k = k' then some ⟨work, stage⟩ else t.calls[k']? := by
  rw [advance, List.getElem?_set]
  split
  · rw [if_pos (List.getElem?_eq_some_iff.mp hk).1]
  · rfl

theorem hasFailed_iff (t : Traffic) :
    t.HasFailed ↔ ∃ (k : Nat) (call : Call), t.calls[k]? = some call ∧ call.HasFailed := by
  constructor
  · rintro ⟨call, hcall, hfailed⟩
    obtain ⟨k, hk⟩ := List.mem_iff_getElem?.mp hcall
    exact ⟨k, call, hk, hfailed⟩
  · rintro ⟨k, call, hk, hfailed⟩
    exact ⟨call, List.mem_of_getElem? hk, hfailed⟩

/-- A line has failed after a call has moved on, if one had before or this one now has. -/
theorem hasFailed_advance {k : Nat} {old : Call} (hk : t.calls[k]? = some old)
    (hold : ¬ old.HasFailed) (work : Work) (stage : CallStage) (channel : Channel) :
    (t.advance k work stage channel).HasFailed
      ↔ t.HasFailed ∨ Call.HasFailed ⟨work, stage⟩ := by
  rw [hasFailed_iff, hasFailed_iff]
  constructor
  · rintro ⟨k', call, hk', hfailed⟩
    rw [getElem?_advance hk] at hk'
    split at hk'
    · cases hk'
      exact .inr hfailed
    · exact .inl ⟨k', call, hk', hfailed⟩
  · rintro (⟨k', call, hk', hfailed⟩ | hfailed)
    · refine ⟨k', call, ?_, hfailed⟩
      have hne : k ≠ k' := by
        rintro rfl
        rw [hk] at hk'
        cases hk'
        exact hold hfailed
      rw [getElem?_advance hk, if_neg hne, hk']
    · exact ⟨k, _, by rw [getElem?_advance hk, if_pos rfl], hfailed⟩

theorem not_hasFailed_of_queued (work : Work) (ticket : Nat) :
    ¬ Call.HasFailed ⟨work, .queued ticket⟩ := by
  rintro ⟨e, hstage, -⟩
  cases hstage

/-! ### Coherence -/

/-- **Coherence.** The jobs are orderly, the channel is broken just when a line has failed, and the
    calls that have queued up are those that the jobs belong to, one each. -/
structure Coherent (t : Traffic) : Prop where
  orderly : t.channel.Orderly
  broken_iff : t.channel.broken = true ↔ t.HasFailed
  owner : ∀ job ∈ t.channel.jobs, ∃ (k : Nat) (call : Call), t.calls[k]? = some call ∧
    call.stage = .queued job.ticket ∧ call.work.closes = job.work.closes
  hasJob : ∀ {k : Nat} {call : Call} {ticket : Nat}, t.calls[k]? = some call →
    call.stage = .queued ticket →
      ∃ job ∈ t.channel.jobs, job.ticket = ticket ∧ job.work.closes = call.work.closes
  unique : ∀ {k k' : Nat} {call call' : Call} {ticket : Nat}, t.calls[k]? = some call →
    t.calls[k']? = some call' → call.stage = .queued ticket → call'.stage = .queued ticket →
      k = k'

theorem coherent_start (capacity timeout : Nat) : Coherent (start capacity timeout) := by
  refine ⟨Channel.orderly_create capacity timeout, ?_, ?_, ?_, ?_⟩ <;>
    simp [start, Channel.create, HasFailed]

/-- A call that has just been made has not queued up, nor does it fail for the first time. -/
theorem create_stage (c : Channel) (work : Work) :
    (∀ ticket, (Call.create c work).stage ≠ .queued ticket) ∧ ¬ (Call.create c work).HasFailed := by
  cases hb : c.broken <;> cases work <;>
    simp [Call.create, Call.HasFailed, hb, Work.onBroken, eq_comm]

theorem Coherent.call (h : Coherent t) (work : Work) : Coherent (t.apply (.call work)) := by
  have hqueued {k : Nat} {call : Call} {ticket : Nat}
      (hk : (t.apply (.call work)).calls[k]? = some call) (hstage : call.stage = .queued ticket) :
      t.calls[k]? = some call := by
    rcases some_of_getElem?_call hk with hk | rfl
    · exact hk
    · exact absurd hstage ((create_stage _ _).1 ticket)
  refine ⟨h.orderly, ?_, ?_, ?_, ?_⟩
  · show t.channel.broken = true ↔ _
    rw [h.broken_iff, hasFailed_iff, hasFailed_iff]
    constructor
    · rintro ⟨k, call, hk, hfailed⟩
      exact ⟨k, call, getElem?_call_of_some hk work, hfailed⟩
    · rintro ⟨k, call, hk, hfailed⟩
      rcases some_of_getElem?_call hk with hk | rfl
      · exact ⟨k, call, hk, hfailed⟩
      · exact absurd hfailed (create_stage _ _).2
  · intro job hjob
    obtain ⟨k, call, hk, hstage, hkind⟩ := h.owner job hjob
    exact ⟨k, call, getElem?_call_of_some hk work, hstage, hkind⟩
  · intro k call ticket hk hstage
    exact h.hasJob (hqueued hk hstage) hstage
  · intro k k' call call' ticket hk hk' hstage hstage'
    exact h.unique (hqueued hk hstage) (hqueued hk' hstage') hstage hstage'

/-- No call has the ticket that is given out next, for its job would be there. -/
theorem Coherent.fresh (h : Coherent t) {k : Nat} {call : Call} (hk : t.calls[k]? = some call) :
    call.stage ≠ .queued t.channel.nextTicket := by
  intro hstage
  obtain ⟨job, hjob, hsame, -⟩ := h.hasJob hk hstage
  have hlt := h.orderly.ticket_lt job hjob
  omega

theorem Coherent.enter (h : Coherent t) (k : Nat) : Coherent (t.apply (.enter k)) := by
  show Coherent (t.enter k)
  rcases t.enter_cases k with heq | ⟨work, hk, heq⟩
  · rwa [heq]
  rw [heq]
  have hcalls := getElem?_advance hk work (.queued t.channel.nextTicket) (t.channel.start work).1
  refine ⟨h.orderly.start work, ?_, ?_, ?_, ?_⟩
  · have hcleared : ¬ Call.HasFailed ⟨work, .cleared⟩ := by
      rintro ⟨e, hstage, -⟩
      cases hstage
    rw [hasFailed_advance hk hcleared, or_iff_left (not_hasFailed_of_queued work _)]
    exact h.broken_iff
  · intro job hjob
    rcases List.mem_append.mp hjob with hjob | hjob
    · obtain ⟨k', call, hk', hstage, hkind⟩ := h.owner job hjob
      have hne : k ≠ k' := by
        rintro rfl
        rw [hk] at hk'
        cases hk'
        cases hstage
      exact ⟨k', call, by rw [hcalls, if_neg hne, hk'], hstage, hkind⟩
    · rw [List.mem_singleton.mp hjob]
      exact ⟨k, _, by rw [hcalls, if_pos rfl], rfl, rfl⟩
  · intro k' call ticket hk' hstage
    rw [hcalls] at hk'
    split at hk'
    · cases hk'
      cases hstage
      exact ⟨_, List.mem_append_right _ (List.mem_singleton.mpr rfl), rfl, rfl⟩
    · obtain ⟨job, hjob, hsame, hkind⟩ := h.hasJob hk' hstage
      exact ⟨job, List.mem_append_left _ hjob, hsame, hkind⟩
  · intro i j call call' ticket hi hj hstage hstage'
    rw [hcalls] at hi hj
    split at hi <;> split at hj
    · omega
    · cases hi
      cases hstage
      exact absurd hstage' (h.fresh hj)
    · cases hj
      cases hstage'
      exact absurd hstage (h.fresh hi)
    · exact h.unique hi hj hstage hstage'

/-- The job in front and the call that it belongs to are of one kind. -/
theorem Coherent.front_kind (h : Coherent t) {k : Nat} {work : Work} {job : Job}
    {others : List Job} (hk : t.calls[k]? = some ⟨work, .queued job.ticket⟩)
    (hjobs : t.channel.jobs = job :: others) : job.work.closes = work.closes := by
  obtain ⟨other, hother, hticket, hkind⟩ := h.hasJob hk rfl
  rw [hjobs, List.mem_cons] at hother
  rcases hother with rfl | hother
  · exact hkind
  · exact absurd hticket (h.orderly.ticket_ne hjobs other hother)

/-- The call that has its turn moves on, and those that the jobs behind belong to stay. -/
theorem Coherent.owner_behind (h : Coherent t) {k : Nat} {work : Work} {job other : Job}
    {others : List Job} (hk : t.calls[k]? = some ⟨work, .queued job.ticket⟩)
    (hjobs : t.channel.jobs = job :: others) (stage : CallStage) (channel : Channel)
    (hother : other ∈ others) : ∃ (k' : Nat) (call : Call),
      (t.advance k work stage channel).calls[k']? = some call ∧
        call.stage = .queued other.ticket ∧ call.work.closes = other.work.closes := by
  have hmem : other ∈ t.channel.jobs := by
    rw [hjobs]
    exact List.mem_cons_of_mem _ hother
  obtain ⟨k', call, hk', hstage, hkind⟩ := h.owner other hmem
  have hne : k ≠ k' := by
    rintro rfl
    rw [hk] at hk'
    cases hk'
    exact h.orderly.ticket_ne hjobs other hother (CallStage.queued.inj hstage).symm
  exact ⟨k', call, by rw [getElem?_advance hk, if_neg hne, hk'], hstage, hkind⟩

/-- The jobs of the other calls are behind. -/
theorem Coherent.job_behind (h : Coherent t) {k k' ticket : Nat} {work : Work} {job : Job}
    {others : List Job} {call : Call} (hk : t.calls[k]? = some ⟨work, .queued job.ticket⟩)
    (hjobs : t.channel.jobs = job :: others) (hne : k ≠ k') (hk' : t.calls[k']? = some call)
    (hstage : call.stage = .queued ticket) :
    ∃ other ∈ others, other.ticket = ticket ∧ other.work.closes = call.work.closes := by
  obtain ⟨other, hother, hticket, hkind⟩ := h.hasJob hk' hstage
  rw [hjobs, List.mem_cons] at hother
  rcases hother with rfl | hother
  · exact absurd (h.unique hk hk' rfl (hticket ▸ hstage)) hne
  · exact ⟨other, hother, hticket, hkind⟩

theorem ticket_eq_of_after {ticket ticket' : Nat} {progress : Channel.Progress}
    (h : CallStage.after ticket progress = .queued ticket') : ticket' = ticket := by
  cases progress with
  | none => exact (CallStage.queued.inj h).symm
  | some result => cases h

/-- A call that is queued up after an operation was so before, under the same ticket. -/
theorem queued_of_advance {k i ticket first : Nat} {work : Work} {call : Call}
    {progress : Channel.Progress} {channel : Channel}
    (hk : t.calls[k]? = some ⟨work, .queued first⟩)
    (hi : (t.advance k work (.after first progress) channel).calls[i]? = some call)
    (hstage : call.stage = .queued ticket) :
    ∃ old, t.calls[i]? = some old ∧ old.stage = .queued ticket := by
  rw [getElem?_advance hk] at hi
  split at hi
  · rename_i hsame
    cases hi
    exact ⟨_, by rw [← hsame, hk], by rw [ticket_eq_of_after hstage]⟩
  · exact ⟨call, hi, hstage⟩

theorem Coherent.poll (h : Coherent t) (k : Nat) : Coherent (t.apply (.poll k)) := by
  show Coherent (t.poll k)
  rcases t.poll_cases k with heq | ⟨work, job, others, next, hk, hjobs, hop, heq⟩
  · rwa [heq]
  rw [heq]
  have hcalls := getElem?_advance hk work (.after job.ticket next.progress) next.channel
  have hkind := h.front_kind hk hjobs
  -- In front is the job of this call or, if it is done, the next.
  refine ⟨h.orderly.operation hjobs hop, ?_, ?_, ?_, ?_⟩
  · rw [hasFailed_advance hk (not_hasFailed_of_queued _ _), ← h.broken_iff]
    show next.channel.broken = true ↔ _
    rw [hop.broken]
    refine or_congr_right ?_
    unfold Call.HasFailed
    cases next.progress <;> simp [CallStage.after]
  · intro other hmem'
    have hmem' : other ∈ next.channel.jobs := hmem'
    rcases hop.jobs with ⟨result, -, hnext⟩ | ⟨hnone, job', hnext, hticket, hkind'⟩
    · rw [hnext] at hmem'
      exact h.owner_behind hk hjobs _ _ hmem'
    · rw [hnext, List.mem_cons] at hmem'
      rcases hmem' with rfl | hmem'
      · refine ⟨k, _, by rw [hcalls, if_pos rfl], ?_, by rw [hkind', hkind]⟩
        rw [hnone, hticket]
        rfl
      · exact h.owner_behind hk hjobs _ _ hmem'
  · intro k' call ticket hk' hstage
    show ∃ other ∈ next.channel.jobs, _
    rw [hcalls] at hk'
    rcases hop.jobs with ⟨result, hresult, hnext⟩ | ⟨-, job', hnext, hticket, hkind'⟩
    · rw [hnext]
      split at hk'
      · cases hk'
        simp [hresult, CallStage.after] at hstage
      · exact h.job_behind hk hjobs ‹_› hk' hstage
    · rw [hnext]
      split at hk'
      · cases hk'
        exact ⟨job', List.mem_cons_self, by rw [hticket, ticket_eq_of_after hstage],
          by rw [hkind', hkind]⟩
      · obtain ⟨other, hmem', hsame⟩ := h.job_behind hk hjobs ‹_› hk' hstage
        exact ⟨other, List.mem_cons_of_mem _ hmem', hsame⟩
  · intro i j call call' ticket hi hj hstage hstage'
    obtain ⟨old, hi, hstage⟩ := queued_of_advance hk hi hstage
    obtain ⟨old', hj, hstage'⟩ := queued_of_advance hk hj hstage'
    exact h.unique hi hj hstage hstage'

/-- Calls, jobs and the broken channel go together whatever happens. -/
theorem Coherent.apply (h : Coherent t) (m : Move) : Coherent (t.apply m) := by
  cases m with
  | call work => exact h.call work
  | enter k => exact h.enter k
  | poll k => exact h.poll k
  | read | deafen | wait =>
    exact ⟨⟨h.1.1, h.1.2, h.1.3, h.1.4⟩, h.broken_iff, h.owner, h.hasJob, h.unique⟩

theorem coherent_of_reachable {capacity timeout : Nat} (h : Reachable capacity timeout t) :
    Coherent t := by
  induction h with
  | start => exact coherent_start capacity timeout
  | move m _ ih => exact ih.apply m

end Traffic

end Reckoner
