import Reckoner.Proofs.Server.Fairness
import Reckoner.Proofs.Service.Agreement
import Reckoner.Proofs.Service.Connections
import Mathlib.Data.List.Perm.Subperm

/-!
# A bounded number of sessions

There are so many places for sessions.  A client who connects takes one, and it is given back when
the session has cleaned up and ended, whatever has ended it; who finds none is refused.

* `Server.freeAfter`, `Server.freeIn` — an account of the places that are free, kept by taking and
  giving back alone.
* `Server.free_applyAll` — what is not free in the account has a session that has not ended, so no
  place is lost and none is given twice.
* `Service.Agreement.length_names_le` — no more names are registered than there are such sessions.
* `Service.Refused` — what there is of a refused connection, and how its refusal begins and goes on.
* `Server.Bounded`, `Server.bounded` — all of this in every run of a server; and on every fair
  schedule all refusals come to their ends.
-/

namespace Reckoner

/-! ### Services -/

namespace Service

variable {s : Service} {i : Nat} {c : Connection} {r : Refusal}

/-- The connections are numbered from one on. -/
theorem Agreement.ids (h : s.Agreement) :
    s.connections.map Connection.id = List.range' 1 s.connections.length := by
  refine List.ext_getElem? fun i => ?_
  rw [List.getElem?_map]
  cases hc : s.connections[i]? with
  | none =>
    rw [List.getElem?_eq_none_iff] at hc
    rw [Option.map_none, List.getElem?_eq_none (by simpa using hc)]
  | some c =>
    have hlt : i < s.connections.length := (List.getElem?_eq_some_iff.mp hc).1
    rw [Option.map_some, h.numbered hc, List.getElem?_range' hlt, Nat.one_mul, Nat.add_comm]

/-- **Names need sessions.** There are no more names than sessions that have not ended. -/
theorem Agreement.length_names_le (h : s.Agreement) : s.names.length ≤ s.served.count true := by
  -- The owners are told apart by their numbers, and each is the number of such a session.
  have hsubset : s.registry.table.owners.map (fun entry => entry.2.session) ⊆
      (s.connections.filter fun c => c.handler.mayRequest).map Connection.id := by
    intro number hnumber
    obtain ⟨⟨name, owner⟩, hentry, rfl⟩ := List.mem_map.mp hnumber
    obtain ⟨c, session, hc, hid, hhandler, hheld⟩ := h.holder hentry
    refine List.mem_map.mpr ⟨c, List.mem_filter.mpr ⟨List.mem_of_getElem? hc, ?_⟩, hid⟩
    rw [hhandler, Handler.mayRequest, Bool.not_eq_true']
    by_contra hfinished
    have hback := (Session.joined_of_held? hheld).1
    rw [Session.hasGivenBack_of_hasFinished (by simpa using hfinished)] at hback
    cases hback
  have hlength := (h.nodup_sessions.subperm hsubset).length_le
  rw [names, Registry.names, List.length_mergeSort, List.length_map, count_served]
  rwa [List.length_map, List.length_map, ← List.countP_eq_length_filter] at hlength

/-- **What there is of a refused connection.** -/
structure Refused (s : Service) (i : Nat) (c : Connection) (r : Refusal) : Prop where
  /-- No session looks after it. -/
  unserved : s.session? i = none
  /-- No name is registered for it, and the registry has no command from it. -/
  nameless : (∀ entry ∈ s.registry.table.owners, entry.2.session ≠ c.id ∧ entry.2.channel ≠ i) ∧
    ∀ command, (i, command) ∉ s.registry.mailbox
  /-- It submits nothing, and no request of its was ever taken in. -/
  asksNothing : s.submission? (.handler i) = none ∧
    ∀ request ∈ s.queue.accepted, request.connection ≠ i
  /-- From the first step on the line is in the pipe or the buffer, or is still to be written, and
      nothing else is. -/
  offered : c.output.broken = false → c.output.committed ++ Channel.owed c.output.jobs
    = if r = .fresh then [] else utf8 "ERR:Server busy\n"
  /-- Nothing but the line goes to the client. -/
  begins : c.output.pipe.accepted <+: utf8 "ERR:Server busy\n"
  /-- The output is closed behind the line. -/
  closed : c.output.pipe.closed = true → c.output.pipe.accepted = utf8 "ERR:Server busy\n"
  /-- The client sees the end when all is done: then the line is there and the output is closed
      behind it, or the client has not taken the line. -/
  ended : s.outputEnds i = true → r = .finished ∧
    (c.output.pipe.closed = true ∨ c.output.broken = true ∧
      c.output.pipe.accepted.length < (utf8 "ERR:Server busy\n").length)
  /-- When all is done, the client sees the end. -/
  ends : r = .finished → s.outputEnds i = true
  /-- The first step starts the line. -/
  starts : r = .fresh → (s.apply (.handler i)).connections[i]?
    = some { c with
        output := (c.output.startLine (utf8 "ERR:Server busy\n")).1,
        handler := .refusal (.telling c.output.nextTicket) }
  /-- Until all is done there is a next step, at the latest when the time for the line is up. -/
  goesOn : r ≠ .finished → c.output.deadline?.getD 0 ≤ s.clock →
    (r.step s.clock c.output).isSome = true

/-- Nobody but its handler holds the output of a refused connection. -/
theorem Refusals.holdsOutput (h : s.Refusals) (htaken : s.Taken) (hc : s.connections[i]? = some c)
    (hhandler : c.handler = .refusal r) : s.holdsOutput i = decide (r ≠ .finished) := by
  have hreplying : s.replyingTo? ≠ some i := by
    intro hreply
    obtain ⟨request, hrequest, hi⟩ := Option.map_eq_some_iff.mp hreply
    exact h.connection_ne hc hhandler (htaken.answered request hrequest) hi
  have hwaiting : (s.queue.waiting.any fun request => request.connection = i) = false := by
    refine List.any_eq_false.mpr fun request hrequest => ?_
    simpa using h.connection_ne hc hhandler (htaken.waiting request hrequest)
  simp [Service.holdsOutput, hc, hhandler, Handler.hasFinished, hreplying, hwaiting]

theorem Refusals.outputEnds_iff (h : s.Refusals) (htaken : s.Taken)
    (hc : s.connections[i]? = some c) (hhandler : c.handler = .refusal r) :
    s.outputEnds i = true ↔ r = .finished := by
  have hheld := h.holdsOutput htaken hc hhandler
  have hclosed := (h.tells hc hhandler).closed
  simp only [outputEnds, output?, hc, Option.map_some, hheld, Bool.or_eq_true, hclosed,
    Bool.not_eq_true', decide_eq_false_iff_not, ne_eq, not_not]
  exact ⟨fun hends => hends.elim And.left id, .inr⟩

/-- The first step of refusing a connection starts the line. -/
theorem connection_of_fresh (hc : s.connections[i]? = some c)
    (hhandler : c.handler = .refusal .fresh) (hsound : c.output.broken = false) :
    (s.apply (.handler i)).connections[i]?
      = some { c with
          output := (c.output.startLine Response.busy.line).1,
          handler := .refusal (.telling c.output.nextTicket) } := by
  have hnext : Refusal.step s.clock .fresh c.output
      = some ⟨.telling c.output.nextTicket, (c.output.startLine Response.busy.line).1, 0⟩ := by
    rw [Refusal.step, Refusal.tell, hsound]
    rfl
  rw [apply, stepHandler_refusal hc hhandler, hnext, Option.map_some, Option.map_some,
    Option.getD_some, getElem?_modifyConnection, if_pos rfl, hc, Option.map_some]

theorem Refusals.refused (h : s.Refusals) (htaken : s.Taken) (hagree : s.Agreement)
    (hc : s.connections[i]? = some c) (hhandler : c.handler = .refusal r) : s.Refused i c r := by
  have hnone : s.session? i = none := by
    rw [session?, hc, Option.bind_some, hhandler]
    rfl
  have htells := h.tells hc hhandler
  have hends := h.outputEnds_iff htaken hc hhandler
  refine ⟨hnone, ⟨fun entry hentry => ?_, fun command hcommand => ?_⟩,
    ⟨?_, fun request hrequest => h.connection_ne hc hhandler hrequest⟩, htells.account,
    htells.begins, htells.whole, fun hended => ?_, hends.mpr, ?_, htells.step_of_due⟩
  · obtain ⟨name, owner⟩ := entry
    obtain ⟨other, session, hother, hid, hsession, -⟩ := hagree.holder hentry
    have hne : owner.channel ≠ i := by
      rintro rfl
      rw [hc] at hother
      cases hother
      rw [hhandler] at hsession
      cases hsession
    refine ⟨?_, hne⟩
    rw [← hid, hagree.numbered hother, hagree.numbered hc]
    omega
  · have hpending := hagree.pending hcommand
    rw [pending?, hnone] at hpending
    cases hpending
  · simp [submission?, hc, hhandler, Handler.session?]
  · have hdone := hends.mp hended
    refine ⟨hdone, ?_⟩
    cases hbroken : c.output.broken with
    | false => exact .inl (htells.closed.mpr ⟨hdone, hbroken⟩)
    | true => exact .inr ⟨rfl, (htells.broken hbroken).2⟩
  · rintro rfl
    exact connection_of_fresh hc hhandler (htells.sound (by simp))

theorem handler_of_refusal? (h : s.refusal? i = some r) :
    ∃ c, s.connections[i]? = some c ∧ c.handler = .refusal r := by
  obtain ⟨c, hc, hrefusal⟩ := Option.bind_eq_some_iff.mp h
  refine ⟨c, hc, ?_⟩
  cases hhandler : c.handler <;> rw [hhandler] at hrefusal <;> cases hrefusal
  rfl

/-- What is logged does not matter. -/
theorem Refused.withLog (h : s.Refused i c r) (log : List (LogSource × LogEntry)) :
    (s.withLog log).Refused i c r := by
  obtain ⟨new, hnew⟩ := s.apply_withLog (.handler i)
  refine ⟨h.unserved, h.nameless, h.asksNothing, h.offered, h.begins, h.closed, h.ended, h.ends,
    fun hfresh => ?_, h.goesOn⟩
  rw [hnew log]
  exact h.starts hfresh

end Service

/-! ### Servers -/

namespace Server

variable {s : Server} {t : Service} {free : Nat} {peer : String} {capacity : Nat}

/-- The places that are free after a move, if so many were free before it: who connects takes one,
    unless there is none, and the session that ends gives its own back. -/
def freeAfter (s : Server) (free : Nat) (m : Move) : Nat :=
  match m with
  | .accept .. => if s.stage = .accepting then free - 1 else free
  | .handler i =>
    if s.service.served[i]? = some true ∧ (s.apply m).service.served[i]? = some false
    then free + 1 else free
  | _ => free

/-- The places that are free after some moves. -/
def freeIn (s : Server) (free : Nat) : List Move → Nat
  | [] => free
  | m :: moves => (s.apply m).freeIn (s.freeAfter free m) moves

theorem active_eq (s : Server) : s.active = s.service.served.count true :=
  s.service.count_served.symm

/-- The number of places never changes. -/
theorem maxSessions_apply (s : Server) (m : Move) : (s.apply m).maxSessions = s.maxSessions := by
  cases m with
  | accept peer capacity =>
    simp only [apply, accept]
    split
    · split <;> rfl
    · rfl
  | proceed =>
    simp only [apply, proceed]
    split
    · split <;> rfl
    · split <;> rfl
    · rfl
  | _ => rfl

/-- A client who connects has a session just if there was room. -/
theorem served_accept (hstage : s.stage = .accepting) :
    (s.apply (.accept peer capacity)).service.served
      = s.service.served ++ [decide (s.active < s.maxSessions)] := by
  have happly : s.apply (.accept peer capacity) = s.accept peer capacity := if_pos hstage
  rw [happly, accept]
  split
  · rename_i hroom
    rw [decide_eq_true hroom]
    exact s.service.served_addConnection _ _
  · rename_i hfull
    rw [decide_eq_false hfull]
    exact s.service.served_addConnection _ _

/-- Nobody else changes who is served, but a handler. -/
theorem served_proceed (s : Server) : (s.apply .proceed).service.served = s.service.served := by
  show s.proceed.service.served = _
  unfold proceed
  split
  · split <;> rfl
  · split <;> rfl
  · rfl

/-- **Places, step by step.** What is not free has a session that has not ended. -/
theorem free_apply (h : free + s.active = s.maxSessions) (m : Move) :
    s.freeAfter free m + (s.apply m).active = s.maxSessions := by
  -- Only to connect and to end a session changes who is served.
  have hsame (hserved : (s.apply m).service.served = s.service.served) :
      free + (s.apply m).active = s.maxSessions := by
    rwa [active_eq, hserved, ← active_eq]
  cases m with
  | accept peer capacity =>
    by_cases hstage : s.stage = .accepting
    · have hactive : (s.apply (.accept peer capacity)).active
          = s.active + if s.active < s.maxSessions then 1 else 0 := by
        rw [active_eq, active_eq, served_accept hstage, List.count_append]
        by_cases hroom : s.active < s.maxSessions <;> simp [← active_eq, hroom]
      rw [freeAfter, if_pos hstage, hactive]
      split <;> omega
    · rw [freeAfter, if_neg hstage]
      refine hsame ?_
      rw [apply, if_neg hstage]
  | proceed => exact hsame s.served_proceed
  | handler i =>
    have hstep : (s.apply (.handler i)).service = s.service.apply (.handler i) := rfl
    rw [freeAfter, hstep, active_eq, hstep]
    rcases s.service.served_apply_handler i with hserved | ⟨hserved, hended⟩
    · rw [hserved, if_neg (by simp_all), ← active_eq]
      exact h
    · obtain ⟨hlt, hvalue⟩ := List.getElem?_eq_some_iff.mp hserved
      have hpositive : 0 < s.service.served.count true :=
        List.count_pos_iff.mpr (List.mem_of_getElem? hserved)
      rw [active_eq] at h
      rw [hended, if_pos ⟨hserved, List.getElem?_set_self hlt⟩, List.count_set hlt, hvalue,
        if_pos (by decide), if_neg (by decide)]
      omega
  | registry | worker | arrive | finish | read | deafen | wait | age | cancel =>
    refine hsame (Service.served_apply (fun c hopens => ?_) (by simp))
    cases hopens

/-- **Places.** No place is lost, and none is given twice. -/
theorem free_applyAll (h : free + s.active = s.maxSessions) (moves : List Move) :
    s.freeIn free moves + (s.applyAll moves).active = s.maxSessions := by
  induction moves generalizing s free with
  | nil => exact h
  | cons m moves ih =>
    have hnext := free_apply h m
    rw [← s.maxSessions_apply m] at hnext ⊢
    exact ih hnext

theorem maxSessions_applyAll (s : Server) (moves : List Move) :
    (s.applyAll moves).maxSessions = s.maxSessions := by
  induction moves generalizing s with
  | nil => rfl
  | cons m moves ih => exact (ih (s.apply m)).trans (s.maxSessions_apply m)

/-- Who connects gets a session if there is room, and is refused otherwise. -/
theorem connection_accept (hstage : s.stage = .accepting) (peer : String) (capacity : Nat) : ∃ c,
    (s.apply (.accept peer capacity)).service.connections[s.service.connections.length]? = some c ∧
      (c.handler.session?.isSome = true ↔ s.active < s.maxSessions) ∧
      (c.handler.refusal?.isSome = true ↔ s.maxSessions ≤ s.active) := by
  have hnew (output : Channel) (handler : Handler) :
      (s.service.addConnection output handler).connections[s.service.connections.length]?
        = some ⟨s.service.connections.length + 1, output, handler⟩ :=
    (s.service.getElem?_addConnection output handler _).trans (if_pos rfl)
  have happly : s.apply (.accept peer capacity) = s.accept peer capacity := if_pos hstage
  rw [happly, accept]
  split
  · rename_i hroom
    refine ⟨_, hnew _ _, ?_, ?_⟩ <;> simp [Handler.session?, Handler.refusal?, hroom]
  · rename_i hfull
    refine ⟨_, hnew _ _, ?_, ?_⟩ <;>
      simp [Handler.session?, Handler.refusal?, hfull, Nat.not_lt.mp hfull]

/-- Whoever looks after a connection does so for good. -/
theorem Hosts.kept (h : s.Hosts t) {i : Nat} {c : Connection}
    (hc : s.service.connections[i]? = some c) (moves : List Move) : ∃ c',
    (s.applyAll moves).service.connections[i]? = some c' ∧
      c'.handler.session?.isSome = c.handler.session?.isSome ∧
      c'.handler.refusal?.isSome = c.handler.refusal?.isSome := by
  obtain ⟨inner, -, -, hafter⟩ := h.applyAll moves
  obtain ⟨log, heq, -⟩ := h.alike
  obtain ⟨log', heq', -⟩ := hafter.alike
  rw [heq] at hc
  rw [heq']
  have hinside : t.connections[i]? = some c := hc
  exact Service.kept_applyAll hinside inner

/-- Who has connected has a session for good just if there was room, and is refused for good just if
    there was none. -/
theorem Hosts.admitted (h : s.Hosts t) (hstage : s.stage = .accepting) (peer : String)
    (capacity : Nat) (after : List Move) :
    ((((s.apply (.accept peer capacity)).applyAll after).service.refusal?
        s.service.connections.length).isSome = true ↔ s.maxSessions ≤ s.active) ∧
      ((((s.apply (.accept peer capacity)).applyAll after).service.session?
        s.service.connections.length).isSome = true ↔ s.active < s.maxSessions) := by
  obtain ⟨inner, -, -, hhosts⟩ := h.apply (.accept peer capacity)
  obtain ⟨c, hc, hsession, hrefusal⟩ := connection_accept hstage peer capacity
  obtain ⟨c', hc', hsession', hrefusal'⟩ := hhosts.kept hc after
  rw [Service.refusal?, Service.session?, hc', Option.bind_some, Option.bind_some, hrefusal',
    hsession']
  exact ⟨hrefusal, hsession⟩

/-- What there is of a refused connection of a server. -/
theorem Reachable.refused {settings : Settings} {port : UInt16} (h : Reachable settings port s)
    {i : Nat} {c : Connection} {r : Refusal} (hc : s.service.connections[i]? = some c)
    (hhandler : c.handler = .refusal r) : s.service.Refused i c r := by
  -- The service behind the server has made a run of its own, in which nobody but the sessions asks
  -- for anything.
  obtain ⟨inner, ⟨-, -, hsubmit⟩, hhosts⟩ := h.hosts
  obtain ⟨log, hservice, -⟩ := hhosts.alike
  have hreach : Service.Reachable _ _ ((inside settings).applyAll inner) :=
    Service.Reachable.start.applyAll inner
  have hagree := h.agreement.of_connections hhosts.registry.symm hhosts.connections.symm
  rw [hservice] at hc ⊢
  exact ((Service.refusals_applyAll _ _ hsubmit).refused (Service.taken_of_reachable hreach) hagree
    hc hhandler).withLog log

/-- On every fair schedule its client sees the end. -/
theorem Reachable.refusal_ends {settings : Settings} {port : UInt16} {schedule : Nat → Move}
    (h : Reachable settings port s) (hfair : s.Fair schedule) {i : Nat} {c : Connection}
    {r : Refusal} (hc : s.service.connections[i]? = some c) (hhandler : c.handler = .refusal r) :
    ∃ n, (s.after schedule n).service.refusal? i = some .finished ∧
      (s.after schedule n).service.outputEnds i = true := by
  obtain ⟨n, hfinished⟩ := h.refusal_finishes hfair hc hhandler
  refine ⟨n, hfinished, ?_⟩
  obtain ⟨c', hc', hhandler'⟩ := Service.handler_of_refusal? hfinished
  exact ((h.after schedule n).refused hc' hhandler').ends rfl

/-- **A bounded number of sessions**, in a run. -/
structure Bounded (start : Server) (moves : List Move) : Prop where
  /-- The sessions that have not ended are no more than there are places. -/
  active : (start.applyAll moves).active ≤ start.maxSessions
  /-- The others are free: none was lost, and none was given twice. -/
  places : start.freeIn start.maxSessions moves + (start.applyAll moves).active
    = start.maxSessions
  /-- Who has connected, while the server took connections, was refused for good just if every
      place was taken at that moment, and has had a session from then on just if not. -/
  admitted : ∀ before after peer capacity, moves = before ++ .accept peer capacity :: after →
    (start.applyAll before).stage = .accepting →
    let i := (start.applyAll before).service.connections.length
    (((start.applyAll moves).service.refusal? i).isSome = true ↔
        (start.applyAll before).active = start.maxSessions) ∧
      (((start.applyAll moves).service.session? i).isSome = true ↔
        (start.applyAll before).active < start.maxSessions)
  /-- Who was refused is told so, and nothing else comes of it. -/
  refused : ∀ i c r, (start.applyAll moves).service.connections[i]? = some c →
    c.handler = .refusal r → (start.applyAll moves).service.Refused i c r
  /-- On every fair schedule to refuse it comes to its end, and its client sees the end. -/
  settled : ∀ i c r, (start.applyAll moves).service.connections[i]? = some c →
    c.handler = .refusal r → ∀ schedule, (start.applyAll moves).Fair schedule →
    ∃ n, ((start.applyAll moves).after schedule n).service.refusal? i = some .finished ∧
      ((start.applyAll moves).after schedule n).service.outputEnds i = true
  /-- No two connections have the same number. -/
  ids : ((start.applyAll moves).service.connections.map Connection.id).Nodup
  /-- No more names are registered than there are places. -/
  names : (start.applyAll moves).service.names.length ≤ start.maxSessions

/-- **Every run is bounded**, in whatever order clients connect and sessions end. -/
theorem bounded (settings : Settings) (port : UInt16) (moves : List Move) :
    Bounded (create settings port) moves := by
  have hcreate := hosts_create settings port
  have hplaces (moves : List Move) : (create settings port).freeIn settings.maxSessions moves
      + ((create settings port).applyAll moves).active = settings.maxSessions :=
    free_applyAll (Nat.add_zero _) moves
  have hreachable : Reachable settings port ((create settings port).applyAll moves) :=
    Reachable.start.applyAll moves
  have hactive : ((create settings port).applyAll moves).active ≤ settings.maxSessions := by
    have := hplaces moves
    omega
  refine ⟨hactive, hplaces moves, ?_, fun i c r => hreachable.refused,
    fun i c r hc hhandler schedule hfair => hreachable.refusal_ends hfair hc hhandler, ?_, ?_⟩
  · rintro before after peer capacity rfl hstage i
    obtain ⟨earlier, -, -, hbefore⟩ := hcreate.applyAll before
    obtain ⟨hrefusal, hsession⟩ := hbefore.admitted hstage peer capacity after
    rw [maxSessions_applyAll] at hrefusal hsession
    rw [applyAll_append]
    refine ⟨hrefusal.trans ?_, hsession⟩
    have hfree := hplaces before
    have hmax : (create settings port).maxSessions = settings.maxSessions := rfl
    omega
  · rw [hreachable.agreement.ids]
    exact List.nodup_range'
  · refine Nat.le_trans ?_ hactive
    rw [active_eq]
    exact hreachable.agreement.length_names_le

/-- There is one place.  While the first client has it, the second one is refused. -/
def contendingRun : List Move := List.flatten
  [[.accept "peer" 64, .arrive 0 (utf8 "JOIN:a\n")], List.replicate 3 (.handler 0), [.registry],
    List.replicate 4 (.handler 0), [.accept "peer" 64]]

/-- The first one leaves, and the third one gets its place. -/
def yieldingRun : List Move := List.flatten
  [List.replicate 5 (.handler 1), [.arrive 0 (utf8 "LEAVE:a\n")], List.replicate 8 (.handler 0),
    [.registry], List.replicate 8 (.handler 0), [.accept "peer" 64]]

theorem bounded_contendingRun :
    ((create { maxSessions := 1 } 12345).applyAll contendingRun).active = 1 ∧
    ((create { maxSessions := 1 } 12345).applyAll contendingRun).service.refusal? 1
      = some .fresh ∧
    (∃ n, (((create { maxSessions := 1 } 12345).applyAll contendingRun).after roundRobin
        n).service.outputEnds 1 = true) ∧
    Bounded (create { maxSessions := 1 } 12345) (contendingRun ++ yieldingRun) ∧
    ((create { maxSessions := 1 } 12345).applyAll (contendingRun ++ yieldingRun)).service.served
      = [false, false, true] ∧
    (((create { maxSessions := 1 } 12345).applyAll (contendingRun ++ yieldingRun)).service.output?
        1).map (fun out => (out.pipe.accepted, out.pipe.closed))
      = some (utf8 "ERR:Server busy\n", true) := by
  have hfresh : ((create { maxSessions := 1 } 12345).applyAll contendingRun).service.refusal? 1
      = some .fresh := by decide +kernel
  refine ⟨by decide +kernel, hfresh, ?_, bounded { maxSessions := 1 } 12345 _, by decide +kernel,
    by decide +kernel⟩
  obtain ⟨c, hc, hhandler⟩ := Service.handler_of_refusal? hfresh
  obtain ⟨n, -, hends⟩ := (bounded { maxSessions := 1 } 12345 contendingRun).settled 1 c .fresh hc
    hhandler roundRobin (fair_roundRobin _)
  exact ⟨n, hends⟩

end Server

end Reckoner
