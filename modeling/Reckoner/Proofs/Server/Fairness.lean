import Reckoner.Proofs.Server.Runs
import Reckoner.Proofs.Service.Ending

/-!
# Servers on fair schedules

A server is scheduled fairly if everybody has a turn again and again, the server goes on with its
shutdown, and time goes on, whatever clients do meanwhile.  Then what it has begun it brings to an
end.

* `Server.after`, `Server.Fair` — a server after so many moves of a schedule, and a schedule that
  forgets nobody.
* `Server.inwards`, `Server.Hosts.fair` — the schedule of the service behind it is fair as well.
* `Server.Reachable.refusal_finishes` — a connection that is refused is done with.
* `Server.Reachable.completes` — a server that has to shut down comes to a result.
* `Server.roundRobin`, `Server.fair_roundRobin` — there is a fair schedule.
-/

namespace Reckoner

/-! ### Who looks after connections -/

namespace Service

variable {s : Service} {m : Move}

/-- Every connection has a session, or is refused. -/
def Staffed (s : Service) : Prop := ∀ {i : Nat} {c : Connection}, s.connections[i]? = some c →
  c.handler.session?.isSome = true ∨ c.handler.refusal?.isSome = true

/-- It stays so unless somebody outside gets a connection. -/
theorem Staffed.apply (h : s.Staffed) (hm : ∀ capacity timeout, m ≠ .attach capacity timeout) :
    (s.apply m).Staffed := by
  intro i c' hc'
  rcases connection_of_apply hc' with ⟨c, hc, hbecomes⟩ | ⟨-, hopens⟩
  · rw [hbecomes.keeps.1, hbecomes.keeps.2]
    exact h hc
  · cases hopens with
    | connect => exact .inl rfl
    | refuse => exact .inr rfl
    | attach => exact absurd rfl (hm _ _)

end Service

namespace Server

variable {s : Server} {t : Service} {m : Move} {schedule : Nat → Move} {settings : Settings}
  {port : UInt16} {n k : Nat}

theorem Hosting.staffed {s' : Server} (h : Hosting s m s') (hs : s.service.Staffed) :
    s'.service.Staffed := by
  cases h with
  | inner _ hm =>
    refine hs.apply ?_
    rintro capacity timeout rfl
    cases m <;> cases hm
  | receive | turnAway | release =>
    refine Service.Staffed.apply hs ?_
    nofun
  | stop | stay => exact hs

theorem Reachable.staffed (h : Reachable settings port s) : s.service.Staffed := by
  induction h with
  | start => exact fun hc => nomatch hc
  | @move s m hreach ih =>
    obtain ⟨inner, -, hhosts⟩ := hreach.hosts
    exact (step_cases hhosts.held m).staffed ih

/-! ### Schedules -/

/-- The server after so many moves of a schedule. -/
def after (s : Server) (schedule : Nat → Move) (n : Nat) : Server :=
  s.applyAll ((List.range n).map schedule)

theorem after_applyAll (s : Server) (moves : List Move) (schedule : Nat → Move) (n : Nat) :
    (s.applyAll moves).after schedule n = s.applyAll (moves ++ (List.range n).map schedule) :=
  (s.applyAll_append moves _).symm

theorem after_succ (s : Server) (schedule : Nat → Move) (n : Nat) :
    s.after schedule (n + 1) = (s.after schedule n).apply (schedule n) := by
  simp [after, applyAll, List.range_succ]

/-- A schedule that goes on from a later moment. -/
theorem after_add (s : Server) (schedule : Nat → Move) (n k : Nat) :
    s.after schedule (n + k) = (s.after schedule n).after (fun k => schedule (n + k)) k := by
  induction k with
  | zero => rfl
  | succ k ih => rw [← Nat.add_assoc, after_succ, ih, after_succ]

theorem Reachable.after (h : Reachable settings port s) (schedule : Nat → Move) (n : Nat) :
    Reachable settings port (s.after schedule n) := h.applyAll _

/-- **Fairness.** Everybody has a turn again and again, and time goes on. -/
structure Fair (s : Server) (schedule : Nat → Move) : Prop where
  handler : ∀ i n, ∃ k ≥ n, schedule k = .handler i
  registry : ∀ n, ∃ k ≥ n, schedule k = .registry
  worker : ∀ n, ∃ k ≥ n, schedule k = .worker
  proceed : ∀ n, ∃ k ≥ n, schedule k = .proceed
  clock : ∀ time, ∃ n, time ≤ (s.after schedule n).service.clock

theorem clock_apply (s : Server) (m : Move) : s.service.clock ≤ (s.apply m).service.clock := by
  cases m with
  | accept =>
    simp only [apply, accept]
    split
    · split <;> exact Nat.le_refl _
    · exact Nat.le_refl _
  | proceed =>
    simp only [apply, proceed]
    split
    · split <;> exact Nat.le_refl _
    · split <;> exact Nat.le_refl _
    · exact Nat.le_refl _
  | handler | registry | worker | arrive | finish | read | deafen | wait | age | cancel =>
    exact Service.clock_apply _ _

theorem clock_after (s : Server) (schedule : Nat → Move) (h : n ≤ k) :
    (s.after schedule n).service.clock ≤ (s.after schedule k).service.clock := by
  induction k, h using Nat.le_induction with
  | base => exact Nat.le_refl _
  | succ k _ ih =>
    rw [after_succ]
    exact Nat.le_trans ih (clock_apply _ _)

/-- A schedule that is fair goes on to be so. -/
theorem Fair.later (hfair : s.Fair schedule) (n : Nat) :
    (s.after schedule n).Fair fun k => schedule (n + k) := by
  have hlater {m : Move} (hm : ∀ n, ∃ k ≥ n, schedule k = m) (start : Nat) :
      ∃ k ≥ start, schedule (n + k) = m := by
    obtain ⟨k, hk, hmove⟩ := hm (n + start)
    exact ⟨k - n, by omega, by rwa [Nat.add_sub_cancel' (by omega)]⟩
  refine ⟨fun i => hlater (hfair.handler i), hlater hfair.registry, hlater hfair.worker,
    hlater hfair.proceed, fun time => ?_⟩
  obtain ⟨k, hk⟩ := hfair.clock time
  have hclock := clock_after s schedule (Nat.le_add_left k n)
  rw [after_add] at hclock
  exact ⟨k, Nat.le_trans hk hclock⟩

/-! ### The service behind a server -/

/-- The schedule of the service behind a server: what it is led to do, or nothing. -/
def inwards (s : Server) (schedule : Nat → Move) (n : Nat) : Reckoner.Move :=
  ((s.after schedule n).led? (schedule n)).getD (.age 0)

/-- The two go on in step. -/
theorem Hosts.after (h : s.Hosts t) (schedule : Nat → Move) (n : Nat) :
    (s.after schedule n).Hosts (t.after (s.inwards schedule) n) := by
  induction n with
  | zero => exact h
  | succ n ih =>
    have hnext := (ih.led (schedule n)).2
    rw [after_succ, Service.after_succ, inwards]
    cases hled : (s.after schedule n).led? (schedule n) <;> rw [hled] at hnext <;> exact hnext

theorem recurs_inwards (s : Server) {inner : Reckoner.Move} (hinner : m.inner? = some inner)
    (hm : ∀ n, ∃ k ≥ n, schedule k = m) : Service.Recurs (s.inwards schedule) inner := by
  intro n
  obtain ⟨k, hk, hmove⟩ := hm n
  exact ⟨k, hk, by rw [inwards, hmove, led?_of_inner hinner, Option.getD_some]⟩

/-- Nobody is ended by force. -/
theorem inwards_ne_killWorker (s : Server) (schedule : Nat → Move) (n : Nat) :
    s.inwards schedule n ≠ .killWorker := by
  unfold inwards
  cases hled : (s.after schedule n).led? (schedule n) with
  | none => exact nofun
  | some inner =>
    have hleads : ∀ other ∈ [inner], ∃ m ∈ [schedule n], m.Leads other := by
      simpa using leads_of_led? hled
    rintro rfl
    exact (notMem_of_leads hleads).1 List.mem_cons_self

/-- **The service behind a server** that is scheduled fairly is so as well. -/
theorem Hosts.fair (h : s.Hosts t) (halive : t.worker.phase ≠ .killed) (hfair : s.Fair schedule) :
    Service.Fair t (s.inwards schedule) := by
  refine ⟨s.recurs_inwards rfl hfair.worker, fun i => s.recurs_inwards rfl (hfair.handler i),
    fun time => ?_, fun n => ?_⟩
  · obtain ⟨n, hn⟩ := hfair.clock time
    exact ⟨n, (h.after schedule n).clock ▸ hn⟩
  · induction n with
    | zero => exact halive
    | succ n ih =>
      rw [Service.after_succ]
      exact Service.alive_of_ne_killWorker ih (s.inwards_ne_killWorker schedule n)

/-- What stands behind a server that can be got into. -/
theorem Reachable.behind (h : Reachable settings port s) : ∃ t limits queueCapacity,
    s.Hosts t ∧ Service.Reachable limits queueCapacity t ∧ t.worker.phase ≠ .killed := by
  obtain ⟨inner, ⟨hkill, -, -⟩, hhosts⟩ := h.hosts
  exact ⟨_, _, _, hhosts, Service.Reachable.start.applyAll inner, alive_inside settings hkill⟩

/-! ### Refused connections -/

/-- **To refuse a connection** comes to its end on every fair schedule. -/
theorem Reachable.refusal_finishes (h : Reachable settings port s) (hfair : s.Fair schedule)
    {i : Nat} {c : Connection} {r : Refusal} (hc : s.service.connections[i]? = some c)
    (hhandler : c.handler = .refusal r) :
    ∃ n, (s.after schedule n).service.refusal? i = some .finished := by
  obtain ⟨t, limits, queueCapacity, hhosts, hreach, halive⟩ := h.behind
  rw [hhosts.connections] at hc
  obtain ⟨n, -, c', hc', hdone⟩ := Service.finishes_of_fair hreach hc (.refusal hhandler)
    (hhosts.fair halive hfair) (s.recurs_inwards rfl hfair.registry) 0
  -- Who has finished still refuses the connection.
  obtain ⟨c'', hc'', -, hkind⟩ :=
    Service.kept_applyAll hc ((List.range n).map (s.inwards schedule))
  cases hc'.symm.trans hc''
  rw [hhandler] at hkind
  refine ⟨n, ?_⟩
  rw [Service.refusal?, (hhosts.after schedule n).connections, hc', Option.bind_some]
  cases hrefusal : c'.handler with
  | refusal r' =>
    rw [hrefusal, Handler.hasFinished, decide_eq_true_eq] at hdone
    rw [hdone]
    rfl
  | session | outside | released =>
    rw [hrefusal] at hkind
    cases hkind

/-! ### Shutting down -/

/-- How far the server gets by a move. -/
theorem Hosting.stage {s' : Server} (h : Hosting s m s') : s'.stage = s.stage ∨
    s.stage = .accepting ∧ s'.stage = .draining ∨ s.stage = .draining ∧ s'.stage = .released := by
  cases h with
  | inner | receive | turnAway | stay => exact .inl rfl
  | stop hstage => exact .inr (.inl ⟨hstage, rfl⟩)
  | release hstage => exact .inr (.inr ⟨hstage, rfl⟩)

/-- Once it takes no connections, there are as many as there will ever be. -/
theorem Hosting.length {s' : Server} (h : Hosting s m s') (hstage : s.stage ≠ .accepting) :
    s'.service.connections.length = s.service.connections.length := by
  cases h with
  | inner _ hm =>
    refine Service.length_apply fun c hopens => ?_
    cases hopens <;> cases m <;> cases hm
  | receive haccepting | turnAway haccepting => exact absurd haccepting hstage
  | stop | release | stay => rfl

theorem Hosting.cancelled {s' : Server} (h : Hosting s m s') (hs : s.service.cancelled = true) :
    s'.service.cancelled = true := by
  cases h with
  | inner | receive | release => exact Service.cancelled_apply hs _
  | @turnAway peer capacity => exact Service.cancelled_apply hs (.refuse capacity s.writeTimeout)
  | stop | stay => exact hs

theorem Reachable.hosting (h : Reachable settings port s) (m : Move) : Hosting s m (s.apply m) := by
  obtain ⟨inner, -, hhosts⟩ := h.hosts
  exact step_cases hhosts.held m

/-- What every step of a server keeps that can be got into, it keeps on every schedule. -/
theorem Reachable.after_induction (h : Reachable settings port s) {P : Server → Prop}
    (hkeeps : ∀ {s s' : Server} {m : Move}, Hosting s m s' → P s → P s') (hs : P s)
    (schedule : Nat → Move) (n : Nat) : P (s.after schedule n) := by
  induction n with
  | zero => exact hs
  | succ n ih =>
    rw [after_succ]
    exact hkeeps ((h.after schedule n).hosting _) ih

theorem Reachable.cancelled_after (h : Reachable settings port s)
    (hcancelled : s.service.cancelled = true) (schedule : Nat → Move) (n : Nat) :
    (s.after schedule n).service.cancelled = true :=
  h.after_induction (P := fun s => s.service.cancelled = true) Hosting.cancelled hcancelled _ n

/-- It stops taking connections. -/
theorem Reachable.stops_accepting (h : Reachable settings port s)
    (hcancelled : s.service.cancelled = true) (hfair : s.Fair schedule) :
    ∃ n, (s.after schedule n).stage ≠ .accepting := by
  -- The first time that it goes on with its shutdown, it finds the order.
  obtain ⟨k, -, hmove⟩ := hfair.proceed 0
  refine ⟨k + 1, ?_⟩
  rw [after_succ, hmove]
  have hstill := h.cancelled_after hcancelled schedule k
  show (s.after schedule k).proceed.stage ≠ _
  unfold proceed
  cases hstage : (s.after schedule k).stage with
  | accepting => simp [hstill]
  | draining =>
    simp only
    split <;> simp [hstage]
  | released => simp [hstage]

/-- From then on nobody connects. -/
theorem Reachable.closed_after (h : Reachable settings port s) (hstage : s.stage ≠ .accepting)
    (schedule : Nat → Move) (n : Nat) : (s.after schedule n).stage ≠ .accepting ∧
      (s.after schedule n).service.connections.length = s.service.connections.length := by
  refine h.after_induction (P := fun t => t.stage ≠ .accepting ∧
    t.service.connections.length = s.service.connections.length) ?_ ⟨hstage, rfl⟩ schedule n
  rintro t t' m hosting ⟨hstage, hlength⟩
  refine ⟨?_, (hosting.length hstage).trans hlength⟩
  rcases hosting.stage with hsame | ⟨haccepting, -⟩ | ⟨-, hreleased⟩
  · rwa [hsame]
  · exact absurd haccepting hstage
  · simp [hreleased]

/-- All handlers come to their end. -/
theorem Reachable.drains (h : Reachable settings port s) (hcancelled : s.service.cancelled = true)
    (hstage : s.stage ≠ .accepting) (hfair : s.Fair schedule) :
    ∃ n, ∀ k ≥ n, (s.after schedule k).isDrained = true := by
  obtain ⟨t, limits, queueCapacity, hhosts, hreach, halive⟩ := h.behind
  have hends : t.cancelled = true := hhosts.cancelled.symm.trans hcancelled
  have hstaffed : t.Staffed := by
    intro i c hc
    rw [← hhosts.connections] at hc
    exact h.staffed hc
  have hlength (n : Nat) :
      (t.after (s.inwards schedule) n).connections.length = t.connections.length := by
    rw [← (hhosts.after schedule n).connections, (h.closed_after hstage schedule n).2,
      hhosts.connections]
  obtain ⟨n, hdone⟩ := Service.all_finish_of_fair hreach
    (fun hc => Service.windsUp_of_cancelled hends (hstaffed hc)) (hhosts.fair halive hfair)
    (s.recurs_inwards rfl hfair.registry) hlength
  refine ⟨n, fun k hk => ?_⟩
  rw [isDrained, (hhosts.after schedule k).connections, List.all_eq_true]
  exact hdone k hk

/-- So the server lets the queue go. -/
theorem Reachable.releases (h : Reachable settings port s) (hcancelled : s.service.cancelled = true)
    (hstage : s.stage ≠ .accepting) (hfair : s.Fair schedule) :
    ∃ n, (s.after schedule n).stage = .released := by
  obtain ⟨n, hdrained⟩ := h.drains hcancelled hstage hfair
  obtain ⟨k, hk, hmove⟩ := hfair.proceed n
  refine ⟨k + 1, ?_⟩
  rw [after_succ, hmove]
  show (s.after schedule k).proceed.stage = _
  unfold proceed
  cases hstill : (s.after schedule k).stage with
  | accepting => exact absurd hstill (h.closed_after hstage schedule k).1
  | draining => simp [hdrained k hk]
  | released => simp [hstill]

/-- And the worker does what is left, and ends. -/
theorem Reachable.gives_result (h : Reachable settings port s) (hstage : s.stage = .released)
    (hfair : s.Fair schedule) : ∃ n result, (s.after schedule n).processed? = some result := by
  obtain ⟨t, limits, queueCapacity, hhosts, hreach, halive⟩ := h.behind
  have hquiet : t.mayRequest = false := hhosts.mayRequest.symm.trans (hhosts.quiet hstage)
  obtain ⟨n, -, hstopped⟩ := Service.stops_of_fair (Service.sharing_of_reachable hreach) hquiet
    (hhosts.fair halive hfair) 0
  have hstill : (s.after schedule n).stage = .released := by
    refine h.after_induction (P := fun s => s.stage = .released) ?_ hstage schedule n
    intro s s' m hosting hreleased
    rcases hosting.stage with hsame | ⟨haccepting, -⟩ | ⟨-, hagain⟩
    · rwa [hsame]
    · cases hreleased.symm.trans haccepting
    · exact hagain
  refine ⟨n, (s.after schedule n).service.worker.completions.length, ?_⟩
  have hworker : (s.after schedule n).service.worker.phase = .stopped := by
    rw [(hhosts.after schedule n).worker, hstopped]
  simp only [processed?, hstill, hworker]

/-- **A shutdown is completed.** Whatever the server is at when the order comes, it comes to a
    result on every fair schedule. -/
theorem Reachable.completes (h : Reachable settings port s)
    (hcancelled : s.service.cancelled = true) (hfair : s.Fair schedule) :
    ∃ n result, (s.after schedule n).processed? = some result := by
  -- First nobody connects any more, then all handlers end, and then the worker does.
  obtain ⟨n, hclosed⟩ := h.stops_accepting hcancelled hfair
  obtain ⟨k, hreleased⟩ := (h.after schedule n).releases (h.cancelled_after hcancelled schedule n)
    hclosed (hfair.later n)
  rw [← after_add] at hreleased
  obtain ⟨last, result, hresult⟩ :=
    (h.after schedule (n + k)).gives_result hreleased (hfair.later (n + k))
  rw [← after_add] at hresult
  exact ⟨_, result, hresult⟩

/-! ### A fair schedule -/

/-- A schedule in which the worker, the registry, the shutdown and time have every fifth move each,
    and every handler infinitely many of the others. -/
def roundRobin (n : Nat) : Move :=
  match n % 5 with
  | 0 => .worker
  | 1 => .registry
  | 2 => .proceed
  | 3 => .wait 1
  | _ => .handler (n / 5).unpair.1

/-- There is a fair schedule. -/
theorem fair_roundRobin (s : Server) : s.Fair roundRobin := by
  have hmod (n j : Nat) (hj : j < 5) : (5 * n + j) % 5 = j := by omega
  refine ⟨fun i n => ?_, fun n => ⟨5 * n + 1, by omega, ?_⟩, fun n => ⟨5 * n, by omega, ?_⟩,
    fun n => ⟨5 * n + 2, by omega, ?_⟩, fun time => ⟨5 * time, ?_⟩⟩
  · -- The numbers of pairs name every handler infinitely often.
    have hle := Nat.right_le_pair i n
    refine ⟨5 * Nat.pair i n + 4, by omega, ?_⟩
    rw [roundRobin, hmod _ 4 (by decide), show (5 * Nat.pair i n + 4) / 5 = Nat.pair i n by omega,
      Nat.unpair_pair]
    rfl
  · rw [roundRobin, hmod n 1 (by decide)]
    rfl
  · rw [roundRobin, show 5 * n % 5 = 0 by omega]
    rfl
  · rw [roundRobin, hmod n 2 (by decide)]
    rfl
  · induction time with
    | zero => exact Nat.zero_le _
    | succ time ih =>
      have hbefore := clock_after s roundRobin (show 5 * time ≤ 5 * time + 3 by omega)
      have hbehind := clock_after s roundRobin (show 5 * time + 4 ≤ 5 * time + 5 by omega)
      have hmove : roundRobin (5 * time + 3) = .wait 1 := by
        rw [roundRobin, hmod time 3 (by decide)]
        rfl
      have hwait : (s.after roundRobin (5 * time + 4)).service.clock
          = (s.after roundRobin (5 * time + 3)).service.clock + 1 := by
        rw [after_succ, hmove]
        rfl
      show time + 1 ≤ (s.after roundRobin (5 * time + 5)).service.clock
      omega

end Server

end Reckoner
