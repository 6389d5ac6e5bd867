import Reckoner.Proofs.Channel.Carriage
import Reckoner.Proofs.Channel.Shared
import Reckoner.Proofs.Session.Transition
import Reckoner.Session.Refusal

/-!
# Who looks after a connection uses its output

* `Session.ticket?`, `Refusal.ticket?` — the job that a session or a refusal has on its output.
* `Session.Transition.shared`, `Refusal.shared_of_step` — their steps respect the other user of
  the output.
* `Session.Transition.output`, `Refusal.output_of_step` — what they do to the output.
* `Session.Transition.broken`, `Refusal.broken_of_step` — an output that is broken stays so.
* `Refusal.step_of_ready` — a refusal does not wait without need.
-/

namespace Reckoner

variable {out : Channel} {b : Option Nat}

namespace Session

/-- The ticket of the job that the session has on its output. -/
def ticket? (s : Session) : Option Nat :=
  match s.phase with
  | .sending ticket _ | .shutting ticket _ => some ticket
  | _ => none

variable {o : Outlook} {s : Session} {next : SessionStep}

theorem Transition.shared (h : Transition o s out next) (hshared : out.Shared s.ticket? b) :
    next.output.Shared next.session.ticket? b := by
  cases h with
  | cancel hphase | notice hphase | expire hphase | gather hphase | runOut hphase
  | reject hphase | want hphase | request hphase | requestLost hphase | leave hphase | ask hphase
  | cleanUp hphase | giveBack hphase =>
    simpa [ticket?, hphase] using hshared
  | askLost hphase =>
    rcases hphase with hphase | hphase <;> simpa [ticket?, hphase] using hshared
  | join hphase | deny hphase =>
    unfold phaseOfReply
    split <;> simpa [ticket?, hphase] using hshared
  | skip hphase | signOff hphase =>
    unfold phaseOfClose
    split <;> simpa [ticket?, hphase] using hshared
  | giveBackLost hphase =>
    unfold phaseOfClose
    rcases hphase with ⟨hphase, -⟩ | ⟨hphase, -⟩ <;>
      split <;> simpa [ticket?, hphase] using hshared
  | answer hphase | close hphase =>
    -- The session has no job yet, and gets the next ticket.
    have hnone : s.ticket? = none := by rw [ticket?, hphase]
    rw [hnone] at hshared
    exact hshared.start _
  | write hphase hready hprogress | shut hphase hready hprogress =>
    have hsome := hshared
    rw [ticket?, hphase] at hsome
    have hnext := hsome.poll o.clock
    rw [hprogress] at hnext
    rw [ticket?, hphase]
    exact hnext
  | writeFail hphase hready hprogress | readOn hphase hready hprogress
  | bidFarewell hphase hready hprogress | finish hphase hready hprogress =>
    rw [ticket?, hphase] at hshared
    have hnext := hshared.poll o.clock
    rw [hprogress] at hnext
    exact hnext

/-- What a step of a session does to the output: nothing, its response or the wish to close become
    a new job, or its own job gets on. -/
theorem Transition.output (h : Transition o s out next) :
    next.output = out ∨
      (∃ r after, s.phase = .answering r after ∧ next.output = (out.startLine r.line).1) ∨
      next.output = out.startClose.1 ∨
      ∃ ticket, s.ticket? = some ticket ∧ next.output = (out.poll o.clock ticket).channel := by
  cases h with
  | answer hphase => exact .inr (.inl ⟨_, _, hphase, rfl⟩)
  | close => exact .inr (.inr (.inl rfl))
  | write hphase | writeFail hphase | readOn hphase | bidFarewell hphase | shut hphase
  | finish hphase => exact .inr (.inr (.inr ⟨_, by rw [ticket?, hphase], rfl⟩))
  | _ => exact .inl rfl

theorem Transition.broken (h : Transition o s out next) (hbroken : out.broken = true) :
    next.output.broken = true := by
  rcases h.output with hout | ⟨r, after, -, hout⟩ | hout | ⟨ticket, -, hout⟩ <;> rw [hout]
  · exact hbroken
  · exact hbroken
  · exact hbroken
  · exact Channel.broken_of_poll hbroken _ _

end Session

namespace Refusal

/-- The ticket of the job that the refusal has on its output. -/
def ticket? : Refusal → Option Nat
  | telling ticket | shutting ticket => some ticket
  | fresh | told | finished => none

theorem shared_of_carryOn {clock ticket : Nat} {now : Refusal} {after : Channel → Refusal}
    {next : RefusalStep} (hnow : now.ticket? = some ticket) (hafter : ∀ c, (after c).ticket? = none)
    (h : carryOn clock ticket now after out = some next) (hshared : out.Shared now.ticket? b) :
    next.output.Shared next.refusal.ticket? b := by
  rw [hnow] at hshared
  unfold carryOn at h
  split at h
  · cases h
    have hnext := hshared.poll clock
    split
    · rename_i hdone
      rw [hdone, if_pos rfl] at hnext
      rw [hafter]
      exact hnext
    · rename_i hdone
      rw [if_neg hdone] at hnext
      rw [hnow]
      exact hnext
  · cases h

theorem shared_of_step {clock : Nat} {r : Refusal} {next : RefusalStep}
    (h : r.step clock out = some next) (hshared : out.Shared r.ticket? b) :
    next.output.Shared next.refusal.ticket? b := by
  cases r with
  | fresh =>
    cases h
    unfold tell
    split
    · exact hshared
    · exact hshared.start _
  | telling ticket =>
    refine shared_of_carryOn rfl ?_ h hshared
    intro c
    unfold afterTelling
    split <;> rfl
  | told =>
    cases h
    exact hshared.start _
  | shutting ticket =>
    have h : carryOn clock ticket (.shutting ticket) (fun _ => .finished) out = some next := h
    exact shared_of_carryOn rfl (fun _ => rfl) h hshared
  | finished => cases h

/-- What a step of a refusal does to the output: nothing, a new job, or that its own job gets on. -/
theorem output_of_step {clock : Nat} {r : Refusal} {next : RefusalStep}
    (h : r.step clock out = some next) :
    next.output = out ∨
      (∃ work, (work = .line Response.busy.line ∨ work = .close) ∧
        next.output = (out.start work).1) ∨
      ∃ ticket, r.ticket? = some ticket ∧ out.isReady clock ticket = true ∧
        next.output = (out.poll clock ticket).channel := by
  cases r with
  | fresh =>
    cases h
    unfold tell
    split
    · exact .inl rfl
    · exact .inr (.inl ⟨_, .inl rfl, rfl⟩)
  | told =>
    cases h
    exact .inr (.inl ⟨_, .inr rfl, rfl⟩)
  | telling ticket | shutting ticket =>
    simp only [step, carryOn] at h
    split at h
    · rename_i hready
      cases h
      exact .inr (.inr ⟨ticket, rfl, hready, rfl⟩)
    · cases h
  | finished => cases h

theorem broken_of_step {clock : Nat} {r : Refusal} {next : RefusalStep}
    (h : r.step clock out = some next) (hbroken : out.broken = true) :
    next.output.broken = true := by
  rcases output_of_step h with hout | ⟨work, -, hout⟩ | ⟨ticket, -, -, hout⟩ <;> rw [hout]
  · exact hbroken
  · exact hbroken
  · exact Channel.broken_of_poll hbroken _ _

/-- A refusal whose job need not wait gets it on. -/
theorem step_of_ready {clock ticket : Nat} {r : Refusal} (hticket : r.ticket? = some ticket)
    (hready : out.isReady clock ticket = true) :
    ∃ next, r.step clock out = some next ∧ next.output = (out.poll clock ticket).channel := by
  cases r with
  | telling | shutting =>
    cases hticket
    simp only [step, carryOn, if_pos hready]
    exact ⟨_, rfl, rfl⟩
  | fresh | told | finished => cases hticket

end Refusal

end Reckoner
