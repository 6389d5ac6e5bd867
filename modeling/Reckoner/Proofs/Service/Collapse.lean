import Reckoner.Proofs.Service.Breakage
import Reckoner.Proofs.Service.Ending

/-!
# A broken output ends its session

A session whose output breaks may be waiting for its turn on the output or for the registry.  Lines
fail at once on a broken output, so its turn comes, and the registry carries out one command after
the other, so its answer comes.  It ends, and nobody else has part in that.

* `Service.Stranded.finishes` — a session on a broken output comes to its end.
* `Service.BreaksBy`, `Service.Ruined` — how an output breaks, and what is left of its session.
* `Service.break_ends_session` — this is what comes of an output that breaks.
-/

namespace Reckoner

namespace Service

variable {s : Service} {m : Move} {i : Nat} {first session session' : Session} {out out' : Channel}
  {limits : SessionLimits} {queueCapacity : Nat} {schedule : Nat → Move}

/-! ### Its end -/

/-- No job on a broken output waits for its time limit. -/
theorem Stranded.turnFor_at_once (h : s.Stranded i first session out)
    (hreach : Reachable limits queueCapacity s) : (s.turnFor i).2 = 0 := by
  have hlines := h.lines hreach
  have horderly := (sharing_of_reachable hreach).orderly (has_iff.mp h.has).2
  obtain ⟨⟨c, hc, -, rfl⟩, hbroken, -⟩ := h
  rw [turnFor_of_connection hc, turnOf]
  split
  · rename_i job _ hfirst
    have hjob := List.mem_of_head? hfirst
    rw [horderly.halted hbroken job hjob (hlines job hjob)]
    rfl
  · rfl

/-- The session of the connection has ended. -/
def HasFinished (i : Nat) (s : Service) : Prop := (s.session? i).any Session.hasFinished = true

/-- **It comes to its end**, if it and those whom it may wait for have their turns again and
    again. -/
theorem Stranded.finishes (h : s.Stranded i first session out)
    (hreach : Reachable limits queueCapacity s) (hhandler : Recurs schedule (.handler i))
    (hworker : Recurs schedule .worker) (hregistry : Recurs schedule .registry) (n : Nat) :
    ∃ k ≥ n, HasFinished i (s.after schedule k) := by
  have hcomes (n : Nat) : ∃ k ≥ n, schedule k = ((s.after schedule n).turnFor i).1 ∧
      ((s.after schedule n).turnFor i).2 ≤ (s.after schedule k).clock := by
    obtain ⟨session', out', hlater⟩ := h.applyAll hreach ((List.range n).map schedule)
    have hrecurs : Recurs schedule ((s.after schedule n).turnFor i).1 := by
      rcases (s.after schedule n).turnFor_cases i with heq | heq | heq <;> rw [heq] <;> assumption
    obtain ⟨k, hk, hmove⟩ := hrecurs n
    have htime : ((s.after schedule n).turnFor i).2 = 0 :=
      hlater.turnFor_at_once (hreach.after schedule n)
    exact ⟨k, hk, hmove, by omega⟩
  obtain ⟨c, hc, hsession, hout⟩ := h.has
  obtain ⟨k, hk, c', hc', hdone⟩ :=
    finishes_of_turns hreach hc (.session hsession (.inr (hout ▸ h.broken))) hcomes n
  -- Whoever is done there is still the session.
  obtain ⟨session', out', hlater⟩ := h.applyAll hreach ((List.range k).map schedule)
  obtain ⟨c'', hc'', hhandler', -⟩ := hlater.has
  cases hc'.symm.trans hc''
  rw [hhandler'] at hdone
  refine ⟨k, hk, ?_⟩
  rw [HasFinished, session?_of_handler hc' hhandler', Option.any_some]
  exact hdone

/-! ### Breaks -/

/-- **How an output breaks.** By a line of the session itself, or by a reply of the worker.  The
    last index is the session afterwards. -/
inductive BreaksBy (s : Service) (i : Nat) (session : Session) : Move → Session → Prop where
  /-- The session ends for this reason. -/
  | own {e : WriteError} (hfirst : e ≠ .broken) :
      BreaksBy s i session (.handler i) { session with phase := .ending (.failed (.write e)) }
  /-- The session has not noticed yet. -/
  | worker {ticket : Nat} (hticket : s.worker.ticketOn? i = some ticket) :
      BreaksBy s i session .worker session

/-- There are no other ways. -/
theorem breaksBy_of_befalls (h : s.Befalls i session out m session' out')
    (hloop : session.end? = none) (hsound : out.broken = false) (hbroken : out'.broken = true) :
    s.BreaksBy i session m session' := by
  cases h with
  | @step next hstep =>
    rcases hstep.output with hout | ⟨r, after, -, hout⟩ | hout | ⟨ticket, hticket, hout⟩
    · rw [hout, hsound] at hbroken
      cases hbroken
    · rw [hout] at hbroken
      cases hsound.symm.trans hbroken
    · rw [hout] at hbroken
      cases hsound.symm.trans hbroken
    -- A line of its own has failed, and it ends because of that.
    obtain ⟨after, hphase⟩ : ∃ after, session.phase = .sending ticket after := by
      unfold Session.ticket? at hticket
      unfold Session.end? at hloop
      split at hticket <;> simp_all
    rw [hout] at hbroken
    obtain ⟨e, hfails, hfirst⟩ := Channel.error_of_breaking hsound hbroken
    obtain ⟨-, ⟨hnone, -⟩ | ⟨e', hfails', hnext⟩ | ⟨hdone, -⟩⟩ := hstep.of_sending hphase
    · cases hfails.symm.trans hnone
    · cases hfails.symm.trans hfails'
      rw [hnext]
      exact .own hfirst
    · cases hfails.symm.trans hdone
  | carryOn hticket => exact .worker hticket
  | reply | giveUp | hear | arrive | finish | pipe | none => cases hsound.symm.trans hbroken

/-- **What is left.** A session whose output has broken is stranded.  If it reads, it ends with its
    next step, because the service shuts down, if it does, or because the output is broken.  Once
    it has given back its name it owns none.  Whatever it does meanwhile, it spares the others. -/
structure Ruined (s : Service) (i : Nat) (first : Session) : Prop where
  stranded : ∃ session out, s.Stranded i first session out
  notices : ∀ {session : Session} {since : Nat}, s.session? i = some session →
    session.phase = .reading since → (s.apply (.handler i)).session? i = some { session with
      phase := .ending (if s.cancelled then .shutdown else .failed (.write .broken)) }
  freed : ∀ {session : Session}, s.session? i = some session → session.hasGivenBack = true →
    s.Freed i
  spares : ∀ m, IsStepFor i s m → SparesOthers i s (s.apply m)

theorem Stranded.ruined (h : s.Stranded i first session out)
    (hreach : Reachable limits queueCapacity s) : s.Ruined i first := by
  refine ⟨⟨session, out, h⟩, ?_, fun hsession => freed_of_givenBack hreach hsession,
    fun m => sparesOthers_of_isStepFor hreach⟩
  intro other since hother hphase
  cases hother.symm.trans (has_iff.mp h.has).1
  exact h.notices hphase

/-- **A broken output ends its session.** In every state that a service can get into let the output
    of a session break that has not ended.
    It breaks by a line of the session or by a reply of the worker;
    whatever happens later, the session handles no line any more, ends for one of very few reasons,
    and then loses its name;
    nobody else is touched, neither by the break nor by what the session does after it;
    and it does come to its end, if everybody has a turn again and again. -/
theorem break_ends_session (h : Reachable limits queueCapacity s) (hhas : s.Has i session out)
    (hloop : session.end? = none) (hsound : out.broken = false)
    (hafter : (s.apply m).Has i session' out') (hbroken : out'.broken = true) :
    s.BreaksBy i session m session' ∧ SparesOthers i s (s.apply m) ∧
      (∀ later, ((s.apply m).applyAll later).Ruined i session') ∧
      ∀ schedule, Recurs schedule (.handler i) → Recurs schedule .worker →
        Recurs schedule .registry → ∃ n, HasFinished i ((s.apply m).after schedule n) ∧
          ((s.apply m).after schedule n).Freed i := by
  obtain ⟨after, out'', hafter', hbefalls⟩ := befalls_of_apply hhas m
  obtain ⟨rfl, rfl⟩ := hafter.unique hafter'
  have hbreaks := breaksBy_of_befalls hbefalls hloop hsound hbroken
  -- If it ends at once, it has not begun to close its output.
  have hstranded : (s.apply m).Stranded i session' session' out' := by
    refine ⟨hafter, hbroken, rfl, fun _ => id, fun hnone e he => ?_, fun hend => ?_⟩
    · cases hnone.symm.trans he
    · cases hbreaks with
      | own => rfl
      | worker => exact absurd hloop hend
  refine ⟨hbreaks, ?_, fun later => ?_, fun schedule hhandler hworker hregistry => ?_⟩
  · cases hbreaks with
    | own => exact s.sparesOthers_handler i
    | worker hticket => exact sparesOthers_worker hticket
  · obtain ⟨session'', out'', hlater⟩ := hstranded.applyAll (h.move m) later
    exact hlater.ruined ((h.move m).applyAll later)
  · obtain ⟨n, -, hfinished⟩ := hstranded.finishes (h.move m) hhandler hworker hregistry 0
    refine ⟨n, hfinished, ?_⟩
    obtain ⟨last, hlast, hdone⟩ := (Option.any_eq_true _ _).mp hfinished
    exact freed_of_givenBack ((h.move m).applyAll _) hlast
      (Session.hasGivenBack_of_hasFinished hdone)

/-- A client joins, asks for something, and stops reading while the worker replies. -/
def replyingRun : List Move := List.flatten
  [[.connect "peer" 64 1000, .arrive 0 (utf8 "JOIN:a\nCALC:a:1+1\n")],
    List.replicate 2 (.handler 0), [.registry], List.replicate 5 (.handler 0),
    List.replicate 3 .worker, [.deafen 0]]

/-- It asks for something else, and its session comes to its end. -/
def ruinedRun : List Move := List.flatten
  [[.arrive 0 (utf8 "CALC:a:2+2\n")], List.replicate 3 (.handler 0), [.registry, .handler 0]]

theorem break_ends_session_replyingRun :
    (∃ session, ((start ⟨1000, 64⟩ 4).applyAll replyingRun).session? 0 = some session ∧
      session.handled = ["JOIN:a", "CALC:a:1+1"] ∧
      ((start ⟨1000, 64⟩ 4).applyAll replyingRun).BreaksBy 0 session .worker session ∧
      ∀ later, ((((start ⟨1000, 64⟩ 4).applyAll replyingRun).apply .worker).applyAll later).Ruined 0
        session) ∧
    ((((start ⟨1000, 64⟩ 4).applyAll replyingRun).apply .worker).applyAll ruinedRun).names = [] ∧
    (((((start ⟨1000, 64⟩ 4).applyAll replyingRun).apply .worker).applyAll ruinedRun).session?
        0).map (fun session => (session.handled, session.phase))
      = some (["JOIN:a", "CALC:a:1+1"], .finished (.failed (.write .broken))) := by
  have hbefore : (((start ⟨1000, 64⟩ 4).applyAll replyingRun).session? 0).map
      (fun session => (session.handled, session.end?))
        = some (["JOIN:a", "CALC:a:1+1"], none) := by decide +kernel
  have hsound : (((start ⟨1000, 64⟩ 4).applyAll replyingRun).output? 0).map Channel.broken
      = some false := by decide +kernel
  have hbroken : ((((start ⟨1000, 64⟩ 4).applyAll replyingRun).apply .worker).output? 0).map
      Channel.broken = some true := by decide +kernel
  obtain ⟨session, hsession, hstanding⟩ := Option.map_eq_some_iff.mp hbefore
  obtain ⟨hhandled, hloop⟩ := Prod.mk.inj hstanding
  obtain ⟨out, hout, hsound⟩ := Option.map_eq_some_iff.mp hsound
  obtain ⟨out', hout', hbroken⟩ := Option.map_eq_some_iff.mp hbroken
  -- What the worker does leaves the session alone.
  have hsession' := (session?_apply_worker _ 0).trans hsession
  obtain ⟨hbreaks, -, hlater, -⟩ := break_ends_session (Reachable.start.applyAll replyingRun)
    (has_iff.mpr ⟨hsession, hout⟩) hloop hsound (has_iff.mpr ⟨hsession', hout'⟩) hbroken
  exact ⟨⟨session, hsession, hhandled, hbreaks, hlater⟩, by decide +kernel, by decide +kernel⟩

end Service

end Reckoner
