import Reckoner.Proofs.Service.Submission
import Mathlib.Data.Nat.Pairing
import Mathlib.Order.WellFounded

/-!
# Schedules

A schedule says which move comes when, and goes on for ever.

* `Service.after` — a service after so many moves of a schedule.
* `Service.Recurs` — a move that comes again and again.
* `Service.Fair` — a schedule that forgets nobody, and lets time go on.
* `Service.reached_of_turns` — what is reached by those who take turns.
* `Service.roundRobin`, `Service.fair_roundRobin` — there is a fair schedule.
-/

namespace Reckoner

namespace Service

variable {s : Service} {m : Move} {schedule : Nat → Move} {n k : Nat}

/-! ### Time -/

/-- The clock only moves when time goes by. -/
theorem clock_of_other (s : Service) (hwait : ∀ milliseconds, m ≠ .wait milliseconds) :
    (s.apply m).clock = s.clock := by
  cases m with
  | handler i =>
    rcases s.apply_handler i with heq | ⟨effort, hstep⟩
    · rw [heq]
    · rcases stepHandler_cases hstep with
        ⟨c, session, next, -, -, -, heq⟩ | ⟨c, r, next, -, -, -, heq⟩
      · rw [heq, afterSession]
        cases next.errand with
        | none => rfl
        | some errand => cases errand <;> rfl
      · rw [heq]
        rfl
  | registry =>
    rcases s.apply_registry with heq | ⟨effort, hstep⟩
    · rw [heq]
    · obtain ⟨source, command, mailbox, -, heq⟩ := stepRegistry_cases hstep
      rw [heq]
      rfl
  | worker =>
    rcases s.apply_worker with ⟨heq, -⟩ | ⟨s', heq, hstep⟩ <;> rw [heq]
    cases hstep <;> rfl
  | connect =>
    simp only [apply]
    split <;> rfl
  | submit request => rcases s.apply_submit request with heq | ⟨-, -, heq⟩ <;> rw [heq]
  | wait milliseconds => exact absurd rfl (hwait milliseconds)
  | refuse | attach | detach | arrive | finish | read | deafen | age | cancel | release
  | killRegistry => rfl
  | killWorker =>
    show s.killWorker.clock = s.clock
    rcases s.killWorker_cases with ⟨heq, -⟩ | ⟨-, before, hbefore, heq⟩ <;> rw [heq]
    rcases hbefore with ⟨rfl, -⟩ | ⟨request, outcome, ticket, -, rfl⟩ <;> rfl

theorem clock_apply (s : Service) (m : Move) : s.clock ≤ (s.apply m).clock := by
  by_cases hwait : ∃ milliseconds, m = .wait milliseconds
  · obtain ⟨milliseconds, rfl⟩ := hwait
    exact Nat.le_add_right _ _
  · exact Nat.le_of_eq (s.clock_of_other fun milliseconds hm => hwait ⟨milliseconds, hm⟩).symm

theorem alive_of_ne_killWorker (h : s.worker.phase ≠ .killed) (hkill : m ≠ .killWorker) :
    (s.apply m).worker.phase ≠ .killed := by
  by_cases hworker : m = .worker
  · subst hworker
    rcases s.apply_worker with ⟨heq, -⟩ | ⟨s', heq, hstep⟩ <;> rw [heq]
    · exact h
    · cases hstep <;> simp_all [Worker.complete]
  · rwa [(apply_queue hworker hkill).2.1]

/-! ### Schedules -/

/-- The service after so many moves of a schedule. -/
def after (s : Service) (schedule : Nat → Move) (n : Nat) : Service :=
  s.applyAll ((List.range n).map schedule)

theorem after_succ (s : Service) (schedule : Nat → Move) (n : Nat) :
    s.after schedule (n + 1) = (s.after schedule n).apply (schedule n) := by
  simp [after, applyAll, List.range_succ]

theorem Reachable.after {limits : SessionLimits} {queueCapacity : Nat}
    (h : Reachable limits queueCapacity s) (schedule : Nat → Move) (n : Nat) :
    Reachable limits queueCapacity (s.after schedule n) := h.applyAll _

/-- The move comes again and again. -/
def Recurs (schedule : Nat → Move) (m : Move) : Prop := ∀ n, ∃ k ≥ n, schedule k = m

/-- **Fairness.** Everybody has a turn again and again, time goes on, and the worker is not ended by
    force. -/
structure Fair (s : Service) (schedule : Nat → Move) : Prop where
  worker : ∀ n, ∃ m ≥ n, schedule m = .worker
  handler : ∀ i n, ∃ m ≥ n, schedule m = .handler i
  clock : ∀ time, ∃ n, time ≤ (s.after schedule n).clock
  alive : ∀ n, (s.after schedule n).worker.phase ≠ .killed

theorem clock_after (s : Service) (schedule : Nat → Move) (h : n ≤ k) :
    (s.after schedule n).clock ≤ (s.after schedule k).clock := by
  induction k, h using Nat.le_induction with
  | base => exact Nat.le_refl _
  | succ k _ ih =>
    rw [after_succ]
    exact Nat.le_trans ih (clock_apply _ _)

/-- A move that comes again and again comes when its time has come. -/
theorem Fair.comes (hfair : Fair s schedule) (hm : Recurs schedule m) (time n : Nat) :
    ∃ k ≥ n, schedule k = m ∧ time ≤ (s.after schedule k).clock := by
  obtain ⟨start, hstart⟩ := hfair.clock time
  obtain ⟨k, hk, hmove⟩ := hm (max n start)
  have hclock := clock_after s schedule (show start ≤ k by omega)
  exact ⟨k, by omega, hmove, by omega⟩

/-! ### Taking turns -/

section Turns

variable {α : Type} [Preorder α] {toGo : Service → α} {turn : Service → Move × Nat}

/-- Until the goal is nearer, it is the same one's turn. -/
theorem toGo_of_turns
    (hback : ∀ k, toGo (s.after schedule (k + 1)) < toGo (s.after schedule k) ∨
      toGo (s.after schedule (k + 1)) = toGo (s.after schedule k) ∧
        turn (s.after schedule (k + 1)) = turn (s.after schedule k)) (h : n ≤ k) :
    toGo (s.after schedule k) < toGo (s.after schedule n) ∨
      toGo (s.after schedule k) = toGo (s.after schedule n) ∧
        turn (s.after schedule k) = turn (s.after schedule n) := by
  induction k, h using Nat.le_induction with
  | base => exact .inr ⟨rfl, rfl⟩
  | succ k _ ih =>
    rcases hback k with hless | ⟨hequal, hturn⟩ <;> rcases ih with hbefore | ⟨hsame, hkept⟩
    · exact .inl (lt_trans hless hbefore)
    · exact .inl (hsame ▸ hless)
    · exact .inl (hequal ▸ hbefore)
    · exact .inr ⟨hequal.trans hsame, hturn.trans hkept⟩

variable (toGo turn) in
/-- **Taking turns.** Let no move lead away from a goal, and none change whose turn it is but those
    that lead nearer; let the move whose turn it is lead nearer, once its time has come, and come
    then.  So the goal is reached. -/
theorem reached_of_turns [WellFoundedLT α] (Goal : Service → Prop)
    (hback : ∀ k, toGo (s.after schedule (k + 1)) < toGo (s.after schedule k) ∨
      toGo (s.after schedule (k + 1)) = toGo (s.after schedule k) ∧
        turn (s.after schedule (k + 1)) = turn (s.after schedule k))
    (hturn : ∀ k, ¬ Goal (s.after schedule k) → schedule k = (turn (s.after schedule k)).1 →
      (turn (s.after schedule k)).2 ≤ (s.after schedule k).clock →
      toGo (s.after schedule (k + 1)) < toGo (s.after schedule k))
    (hcomes : ∀ n, ∃ k ≥ n, schedule k = (turn (s.after schedule n)).1 ∧
      (turn (s.after schedule n)).2 ≤ (s.after schedule k).clock) (n : Nat) :
    ∃ k ≥ n, Goal (s.after schedule k) := by
  -- By induction on how far there is to go.
  induction hgo : toGo (s.after schedule n) using WellFoundedLT.induction generalizing n with
  | ind togo ih =>
    subst hgo
    obtain ⟨k, hk, hmove, htime⟩ := hcomes n
    rcases toGo_of_turns hback hk with hless | ⟨hsame, hkept⟩
    · obtain ⟨j, hj, hreached⟩ := ih _ hless k rfl
      exact ⟨j, hk.trans hj, hreached⟩
    by_cases hgoal : Goal (s.after schedule k)
    · exact ⟨k, hk, hgoal⟩
    -- It is as far as at `n`, so the turn is that of the move `k`.
    rw [← hkept] at hmove htime
    have hless := hturn k hgoal hmove htime
    rw [hsame] at hless
    obtain ⟨j, hj, hreached⟩ := ih _ hless (k + 1) rfl
    exact ⟨j, by omega, hreached⟩

end Turns

/-! ### A fair schedule -/

/-- A schedule in which the worker has every third move, time every third, and every handler
    infinitely many of the others. -/
def roundRobin (n : Nat) : Move :=
  match n % 3 with
  | 0 => .worker
  | 1 => .wait 1
  | _ => .handler (n / 3).unpair.1

theorem clock_roundRobin (s : Service) (time : Nat) :
    time ≤ (s.after roundRobin (3 * time)).clock := by
  induction time with
  | zero => exact Nat.zero_le _
  | succ time ih =>
    have hworker := clock_after s roundRobin (show 3 * time ≤ 3 * time + 1 by omega)
    have hhandler := clock_after s roundRobin (show 3 * time + 2 ≤ 3 * time + 3 by omega)
    have hmove : roundRobin (3 * time + 1) = .wait 1 := by
      rw [roundRobin, show (3 * time + 1) % 3 = 1 by omega]
      rfl
    have hwait : (s.after roundRobin (3 * time + 2)).clock
        = (s.after roundRobin (3 * time + 1)).clock + 1 := by
      rw [after_succ, hmove]
      rfl
    show time + 1 ≤ (s.after roundRobin (3 * time + 3)).clock
    omega

/-- There is a fair schedule. -/
theorem fair_roundRobin (h : s.worker.phase ≠ .killed) : Fair s roundRobin := by
  refine ⟨?_, ?_, fun time => ⟨3 * time, clock_roundRobin s time⟩, ?_⟩
  · intro n
    refine ⟨3 * n, by omega, ?_⟩
    rw [roundRobin, show 3 * n % 3 = 0 by omega]
    rfl
  · intro i n
    -- The numbers of pairs name every handler infinitely often.
    have hle := Nat.right_le_pair i n
    refine ⟨3 * Nat.pair i n + 2, by omega, ?_⟩
    rw [roundRobin, show (3 * Nat.pair i n + 2) % 3 = 2 by omega,
      show (3 * Nat.pair i n + 2) / 3 = Nat.pair i n by omega, Nat.unpair_pair]
    rfl
  · intro n
    induction n with
    | zero => exact h
    | succ n ih =>
      rw [after_succ]
      refine alive_of_ne_killWorker ih ?_
      unfold roundRobin
      split <;> nofun

end Service

end Reckoner
