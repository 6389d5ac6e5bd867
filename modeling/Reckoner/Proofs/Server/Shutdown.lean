import Reckoner.Proofs.Server.Fairness
import Reckoner.Proofs.Service.Agreement
import Reckoner.Proofs.Service.Fifo
import Reckoner.Proofs.Service.Life

/-!
# A shutdown loses nothing

* `Service.handledBy`, `Service.handled_applyAll` — once a service has to shut down, no session
  handles another line.
* `Server.acceptedIn` — the requests that are taken in during a run of a server.
* `Server.WoundDown` — what there is when the shutdown is complete.
* `Server.graceful` — whenever the order to shut down comes, no line is handled any more, the result
  is given when nothing was lost, and on every fair schedule it is given.
-/

namespace Reckoner

/-! ### Lines -/

/-- A session that has to shut down handles no line. -/
theorem Session.Transition.handled {o : Outlook} {s : Session} {out : Channel} {next : SessionStep}
    (h : Transition o s out next) (hcancelled : o.cancelled = true) :
    next.session.handled = s.handled := by
  cases h with
  | reject _ hreads | want _ hreads | request _ hreads | requestLost _ hreads | leave _ hreads =>
    -- It would have looked at the order first.
    rw [hreads.cancelled] at hcancelled
    cases hcancelled
  | _ => rfl

namespace Service

variable {s : Service} {m : Move} {i : Nat} {session : Session}

/-- The lines that the session of a connection has handled. -/
def handledBy (s : Service) (i : Nat) : List String :=
  ((s.session? i).map Session.handled).getD []

/-- Of a session that is there after a move, and was before, no line is handled in between; one that
    was not has handled none. -/
theorem handled_apply (hcancelled : s.cancelled = true)
    (h : (s.apply m).session? i = some session) :
    (∃ before, s.session? i = some before ∧ session.handled = before.handled) ∨
      s.connections.length = i ∧ session.handled = [] := by
  rcases session_of_move h with ⟨before, next, hstep, hbefore, rfl⟩ |
    ⟨-, (hsame | ⟨before, hbefore, htouched⟩) | ⟨peer, _, _, -, hnew, rfl⟩⟩
  · obtain ⟨c, -, -, htransition, -⟩ := apply_of_sessionStep hstep
    exact .inl ⟨before, hbefore, htransition.handled hcancelled⟩
  · exact .inl ⟨session, hsame, rfl⟩
  · refine .inl ⟨before, hbefore, ?_⟩
    cases htouched with
    | hear reply => exact (before.hears_hear reply).handled
    | arrive | finish => rfl
  · exact .inr ⟨hnew.symm, rfl⟩

/-- **No line is handled any more** once the service has to shut down. -/
theorem handled_applyAll (hcancelled : s.cancelled = true) {moves : List Move}
    (h : (s.applyAll moves).session? i = some session) : session.handled = s.handledBy i := by
  -- A session that begins later does so on a connection that is not there yet.
  have hstill : (s.applyAll moves).cancelled = true ∧
      s.connections.length ≤ (s.applyAll moves).connections.length ∧
      ∀ session, (s.applyAll moves).session? i = some session →
        session.handled = s.handledBy i := by
    refine applyAll_induction (P := fun t => t.cancelled = true ∧
      s.connections.length ≤ t.connections.length ∧
      ∀ session, t.session? i = some session → session.handled = s.handledBy i) ?_ ?_ moves
    · rintro t m ⟨hstill, hlength, hhandled⟩
      refine ⟨cancelled_apply hstill m, Nat.le_trans hlength (t.frame_apply m).length, ?_⟩
      intro session hsession
      rcases handled_apply hstill hsession with ⟨before, hbefore, hsame⟩ | ⟨hnew, hnone⟩
      · rw [hsame, hhandled before hbefore]
      · have habsent : s.session? i = none := by
          rw [session?, List.getElem?_eq_none (hnew ▸ hlength)]
          rfl
        rw [hnone, handledBy, habsent]
        rfl
    · refine ⟨hcancelled, Nat.le_refl _, fun session hsession => ?_⟩
      rw [handledBy, hsession]
      rfl
  exact hstill.2.2 session h

/-! ### The end -/

/-- A move that submits nothing adds nothing to the account of the queue. -/
theorem accepted_apply_of_none (h : s.submission? m = none) :
    (s.apply m).queue.accepted = s.queue.accepted ++ [] := by
  have haccepted := s.accepted_apply m
  rwa [h, Option.toList_none, ite_self] at haccepted

/-- When no request can come any more, all sessions have ended. -/
theorem finished_of_quiet (h : s.mayRequest = false) (hsession : s.session? i = some session) :
    ∃ e, session.phase = .finished e := by
  obtain ⟨c, hc, hhandler⟩ := session?_eq_some hsession
  have hended := (mayRequest_eq_false.mp h).2 hc
  rw [hhandler, Handler.mayRequest, Session.hasFinished] at hended
  cases hphase : session.phase with
  | finished e => exact ⟨e, rfl⟩
  | _ => simp [hphase] at hended

/-- Then nobody owns a name. -/
theorem Agreement.names_of_quiet (h : s.Agreement) (hquiet : s.mayRequest = false) :
    s.names = [] := by
  have howners : s.registry.table.owners = [] := by
    refine List.eq_nil_iff_forall_not_mem.mpr ?_
    rintro ⟨name, owner⟩ hmem
    obtain ⟨c, session, hc, -, hhandler, hheld⟩ := h.holder hmem
    obtain ⟨e, hphase⟩ := finished_of_quiet hquiet (session?_of_handler hc hhandler)
    rw [Session.held?, hphase] at hheld
    cases hheld
  rw [names, Registry.names, howners, List.map_nil, List.mergeSort_nil]

end Service

/-! ### Servers -/

namespace Server

variable {s : Server} {t : Service} {m : Move}

/-- The request that a move submits, whether or not it is taken. -/
def submission? (s : Server) (m : Move) : Option Request := m.inner?.bind s.service.submission?

/-- The requests that are taken in during a run. -/
def acceptedIn (s : Server) : List Move → List Request
  | [] => []
  | m :: moves =>
    (if s.service.queue.refusal? = none then (s.submission? m).toList else [])
      ++ (s.apply m).acceptedIn moves

/-- The queue keeps account of the requests that are taken. -/
theorem Hosting.accepted {s' : Server} (h : Hosting s m s') : s'.service.queue.accepted
    = s.service.queue.accepted ++
      if s.service.queue.refusal? = none then (s.submission? m).toList else [] := by
  -- No other move submits anything.
  have hnone (hinner : m.inner? = none) :
      (if s.service.queue.refusal? = none then (s.submission? m).toList else []) = [] := by
    rw [submission?, hinner, Option.bind_none]
    exact ite_self _
  cases h with
  | inner _ hm =>
    rw [submission?, hm, Option.bind_some]
    exact s.service.accepted_apply _
  | receive =>
    rw [hnone rfl]
    exact Service.accepted_apply_of_none rfl
  | turnAway =>
    rw [hnone rfl]
    exact Service.accepted_apply_of_none rfl
  | stop => rw [hnone rfl, List.append_nil]; rfl
  | release =>
    rw [hnone rfl]
    exact Service.accepted_apply_of_none rfl
  | stay hm => rw [hnone hm, List.append_nil]

theorem Hosts.accepted (h : s.Hosts t) (moves : List Move) :
    (s.applyAll moves).service.queue.accepted
      = s.service.queue.accepted ++ s.acceptedIn moves := by
  induction moves generalizing s t with
  | nil => exact (List.append_nil _).symm
  | cons m moves ih =>
    obtain ⟨inner, -, -, hhosts⟩ := h.apply m
    show ((s.apply m).applyAll moves).service.queue.accepted = _
    rw [ih hhosts, (step_cases h.held m).accepted, acceptedIn, List.append_assoc]

/-- **What there is when the shutdown is complete**, after a run in which some requests were taken
    in. -/
structure WoundDown (s : Server) (accepted : List Request) (result : Nat) : Prop where
  /-- Every session has cleaned up after its client and has ended, as the log tells. -/
  cleaned : ∀ i session, s.service.session? i = some session → ∃ e tried,
    session.phase = .finished e ∧ session.Life tried (s.service.logBy (.connection i))
  /-- No name is owned. -/
  names : s.service.names = []
  /-- Every request that was taken in was processed, once and in its turn. -/
  processed : s.service.worker.completions.map Completion.request = accepted
  /-- None is left. -/
  waiting : s.service.queue.waiting = []
  /-- The result is their number. -/
  count : result = accepted.length

/-- **A graceful shutdown**, in a run. -/
structure Graceful (start : Server) (moves : List Move) : Prop where
  /-- From the order to shut down on no session handles another line. -/
  unheard : ∀ before after, moves = before ++ after →
    (start.applyAll before).service.cancelled = true →
    ∀ i session, (start.applyAll moves).service.session? i = some session →
      session.handled = (start.applyAll before).service.handledBy i
  /-- A result of the shutdown is given when nothing was lost. -/
  complete : ∀ result, (start.applyAll moves).processed? = some result →
    (start.applyAll moves).WoundDown (start.acceptedIn moves) result
  /-- Once the order has come, a result is given on every fair schedule. -/
  completes : (start.applyAll moves).service.cancelled = true → ∀ schedule,
    (start.applyAll moves).Fair schedule →
    ∃ n result, ((start.applyAll moves).after schedule n).processed? = some result
  /-- What the program goes on to do are moves like the others, so all this holds of it, too. -/
  runs : ∃ later, (∀ m ∈ later, m.isOwn = true) ∧
    (start.applyAll moves).run = start.applyAll (moves ++ later)
  /-- So are those that it makes when it is told to shut down. -/
  shutsDown : ∃ later, (∀ m ∈ later, m.isOwn = true) ∧
    (start.applyAll moves).shutDown = start.applyAll (moves ++ .cancel :: later)

theorem processed?_eq_some {result : Nat} (h : s.processed? = some result) :
    s.stage = .released ∧ s.service.worker.phase = .stopped ∧
      s.service.worker.completions.length = result := by
  unfold processed? at h
  split at h
  · rename_i hstage hphase
    exact ⟨hstage, hphase, Option.some.inj h⟩
  · cases h

/-- **Every shutdown is graceful**, whatever the sessions are at when the order comes. -/
theorem graceful (settings : Settings) (port : UInt16) (moves : List Move) :
    Graceful (create settings port) moves := by
  have hcreate := hosts_create settings port
  have hreachable : Reachable settings port ((create settings port).applyAll moves) :=
    Reachable.start.applyAll moves
  obtain ⟨later, hown, hrun⟩ := ((create settings port).applyAll moves).run_eq
  obtain ⟨last, hown', hshutDown⟩ := ((create settings port).applyAll moves).shutDown_eq
  refine ⟨?_, ?_, fun hcancelled schedule => hreachable.completes hcancelled,
    ⟨later, hown, hrun.trans (applyAll_append ..).symm⟩,
    last, hown', hshutDown.trans (applyAll_append ..).symm⟩
  · rintro before after rfl hcancelled i session hsession
    obtain ⟨earlier, -, -, hbefore⟩ := hcreate.applyAll before
    obtain ⟨later, -, -, hafter⟩ := hbefore.applyAll after
    rw [applyAll_append, Service.session?, hafter.connections] at hsession
    rw [Service.handledBy, Service.session?, hbefore.connections]
    exact Service.handled_applyAll (hbefore.cancelled ▸ hcancelled) hsession
  · intro result hresult
    obtain ⟨inner, ⟨hkill, -, -⟩, hhosts⟩ := hreachable.hosts
    obtain ⟨hstage, hstopped, hcount⟩ := processed?_eq_some hresult
    have hquiet := hhosts.quiet hstage
    -- What holds of every run of a service holds of the one behind the server.
    have hordered := (Service.ordered_start _ _).applyAll inner (alive_inside settings hkill)
    have hinside := hhosts.worker ▸ hstopped
    have hdone : ((create settings port).applyAll moves).service.worker.completions.map
        Completion.request = (create settings port).acceptedIn moves := by
      rw [hhosts.worker]
      refine (hordered.of_stopped hinside).trans ?_
      rw [← hhosts.queue]
      exact hcreate.accepted moves
    refine ⟨fun i session hsession => ?_, hreachable.agreement.names_of_quiet hquiet, hdone, ?_, ?_⟩
    · obtain ⟨e, hphase⟩ := Service.finished_of_quiet hquiet hsession
      obtain ⟨log, -, hlog⟩ := hhosts.alike
      rw [Service.session?, hhosts.connections] at hsession
      have hlife := Service.life_of_run hsession
      have hsource : LogSource.connection i ≠ .service := by simp
      rw [← hlog _ hsource] at hlife
      exact ⟨e, _, hphase, hlife⟩
    · rw [hhosts.queue]
      exact (hordered.stopped hinside).2
    · rw [← hcount, ← hdone, List.length_map]

/-- One request waits and the next one is not read. -/
def interruptedRun : List Move := List.flatten
  [[.accept "peer" 128, .arrive 0 (utf8 "JOIN:a\nCALC:a:1+1\nCALC:a:2\n")],
    List.replicate 6 (.handler 0), [.registry], List.replicate 5 (.handler 0)]

/-- Then the order comes.  The first request is answered before the server is done, and the second
    never. -/
theorem graceful_interruptedRun :
    ((create {} 12345).applyAll interruptedRun).service.queue.waiting = [⟨"a", "1+1", 0⟩] ∧
    ((create {} 12345).applyAll interruptedRun).shutDown.WoundDown [⟨"a", "1+1", 0⟩] 1 ∧
    ((create {} 12345).applyAll interruptedRun).shutDown.service.handledBy 0
      = ["JOIN:a", "CALC:a:1+1"] ∧
    ((create {} 12345).applyAll (interruptedRun ++ [.cancel])).processed? = none ∧
    ∃ n result, (((create {} 12345).applyAll (interruptedRun ++ [.cancel])).after roundRobin
        n).processed? = some result ∧
      (((create {} 12345).applyAll (interruptedRun ++ [.cancel])).after roundRobin n).WoundDown
        ((create {} 12345).acceptedIn
          (interruptedRun ++ [.cancel] ++ (List.range n).map roundRobin)) result := by
  refine ⟨by decide +kernel, ?_, by decide +kernel, by decide +kernel, ?_⟩
  · obtain ⟨later, -, hrun⟩ := (graceful {} 12345 interruptedRun).shutsDown
    have hlast : ((create {} 12345).applyAll interruptedRun).shutDown.processed? = some 1 := by
      decide +kernel
    have hdone : ((create {} 12345).applyAll
        interruptedRun).shutDown.service.worker.completions.map Completion.request
          = [⟨"a", "1+1", 0⟩] := by decide +kernel
    rw [hrun] at hlast hdone ⊢
    have hwound := (graceful {} 12345 _).complete 1 hlast
    rwa [← hwound.processed, hdone] at hwound
  · have hcancelled : ((create {} 12345).applyAll
        (interruptedRun ++ [.cancel])).service.cancelled = true := by decide +kernel
    have hgraceful := graceful {} 12345 (interruptedRun ++ [.cancel])
    obtain ⟨n, result, hlast⟩ := hgraceful.completes hcancelled roundRobin (fair_roundRobin _)
    refine ⟨n, result, hlast, ?_⟩
    rw [after_applyAll] at hlast ⊢
    exact (graceful {} 12345 _).complete result hlast

end Server

end Reckoner
