import Reckoner.Proofs.Service.Drain
import Reckoner.Proofs.Service.Effect
import Reckoner.Proofs.Service.Logging
import Reckoner.Server.Basic

/-!
# The service behind a server

A server lets its service do what it would do without it, but for what the server itself logs.  So
what holds after every run of a service, whatever is logged, holds behind every server.

* `Server.applyAll` — what moves do, one after the other.
* `Service.Alike` — two services that differ only in what their server has logged.
* `Server.Move.Leads`, `Server.led?` — the moves that a server lets its service make.
* `Server.saidIn` — what moves of a server say to a client.
* `Server.Hosting`, `Server.step_cases` — all that a server does to its service.
* `Server.Hosts`, `Server.Hosts.applyAll` — how far the server has got fits the service.
* `Server.Hosts.connections`, `Server.Hosts.worker` and others — what the two have in common.
-/

namespace Reckoner

/-! ### Services that differ in the log -/

namespace Service

variable {s t : Service}

/-- The services differ in nothing but what their server has logged. -/
def Alike (s t : Service) : Prop :=
  ∃ log, s = t.withLog log ∧ ∀ source, source ≠ .service → s.logBy source = t.logBy source

theorem Alike.refl (s : Service) : Alike s s := ⟨s.log, rfl, fun _ _ => rfl⟩

theorem Alike.record (h : Alike s t) (entries : List LogEntry) :
    Alike (s.record .service entries) t := by
  obtain ⟨log, rfl, hlog⟩ := h
  refine ⟨log ++ entries.map fun e => (.service, e), rfl, fun source hsource => ?_⟩
  rw [logBy_record, if_neg fun heq => hsource heq.symm, List.append_nil, hlog source hsource]

/-- They stay alike whatever both of them do. -/
theorem Alike.apply (h : Alike s t) (m : Move) : Alike (s.apply m) (t.apply m) := by
  obtain ⟨log, rfl, hlog⟩ := h
  obtain ⟨new, hnew⟩ := t.apply_withLog m
  refine ⟨log ++ new, hnew log, fun source hsource => ?_⟩
  have hhere : (t.apply m).log = t.log ++ new := congrArg Service.log (hnew t.log)
  have hbefore := hlog source hsource
  rw [hnew log]
  unfold logBy at hbefore ⊢
  rw [withLog_log] at hbefore ⊢
  rw [hhere, List.filterMap_append, List.filterMap_append, hbefore]

theorem Alike.said? (h : Alike s t) (i : Nat) (m : Move) : s.said? i m = t.said? i m := by
  obtain ⟨log, rfl, -⟩ := h
  cases m <;> rfl

/-! ### Runs in which nobody is ended by force -/

variable {m : Move} {moves : List Move}

theorem alive_of_never (halive : s.worker.phase ≠ .killed) (hmoves : .killWorker ∉ moves) :
    (s.applyAll moves).worker.phase ≠ .killed := by
  induction moves generalizing s with
  | nil => exact halive
  | cons m moves ih =>
    rw [List.mem_cons, not_or] at hmoves
    exact ih (alive_of_ne_killWorker halive (Ne.symm hmoves.1)) hmoves.2

theorem runs_of_never (hruns : s.registry.runs = true) (hmoves : .killRegistry ∉ moves) :
    (s.applyAll moves).registry.runs = true := by
  induction moves generalizing s with
  | nil => exact hruns
  | cons m moves ih =>
    rw [List.mem_cons, not_or] at hmoves
    exact ih (((s.frame_apply m).runs (Ne.symm hmoves.1)).trans hruns) hmoves.2

end Service

/-! ### Servers -/

namespace Server

variable {s : Server} {t : Service} {m : Move}

/-- What moves do, one after the other. -/
def applyAll (s : Server) (moves : List Move) : Server := moves.foldl apply s

theorem applyAll_append (s : Server) (moves later : List Move) :
    s.applyAll (moves ++ later) = (s.applyAll moves).applyAll later := List.foldl_append

theorem applyAll_concat (s : Server) (moves : List Move) (m : Move) :
    s.applyAll (moves ++ [m]) = (s.applyAll moves).apply m := s.applyAll_append moves [m]

/-- The moves that a server lets its service make in one of its own. -/
inductive Move.Leads : Move → Reckoner.Move → Prop where
  /-- The move is one of the service. -/
  | inner {m : Move} {inner : Reckoner.Move} (hm : m.inner? = some inner) : m.Leads inner
  /-- A client connects. -/
  | connect (peer : String) (capacity timeout : Nat) :
      (accept peer capacity).Leads (.connect peer capacity timeout)
  /-- It is refused. -/
  | refuse (peer : String) (capacity timeout : Nat) :
      (accept peer capacity).Leads (.refuse capacity timeout)
  /-- The server lets the queue go. -/
  | release : proceed.Leads .release

/-- The move that a server lets its service make in one of its own, if it does. -/
def led? (s : Server) (m : Move) : Option Reckoner.Move :=
  match m with
  | .accept peer capacity =>
    if s.stage = .accepting then
      if s.active < s.maxSessions then some (.connect peer capacity s.writeTimeout)
      else some (.refuse capacity s.writeTimeout)
    else none
  | .proceed => if s.stage = .draining ∧ s.isDrained then some .release else none
  | m => m.inner?

theorem led?_of_inner {inner : Reckoner.Move} (h : m.inner? = some inner) :
    s.led? m = some inner := by
  cases m <;> first | exact h | cases h

theorem leads_of_led? {other : Reckoner.Move} (h : s.led? m = some other) : m.Leads other := by
  cases m with
  | accept peer capacity =>
    simp only [led?] at h
    split at h
    · split at h <;> cases h
      · exact .connect ..
      · exact .refuse ..
    · cases h
  | proceed =>
    simp only [led?] at h
    split at h <;> cases h
    exact .release
  | _ => exact .inner h

/-- It lets nobody be ended by force, and nobody outside submit anything. -/
theorem notMem_of_leads {moves : List Move} {inner : List Reckoner.Move}
    (h : ∀ other ∈ inner, ∃ m ∈ moves, m.Leads other) :
    .killWorker ∉ inner ∧ .killRegistry ∉ inner ∧ ∀ r, .submit r ∉ inner := by
  have hnever {other : Reckoner.Move} (hno : ∀ m : Move, m.inner? ≠ some other)
      (hconnect : ∀ peer capacity timeout, other ≠ .connect peer capacity timeout)
      (hrefuse : ∀ capacity timeout, other ≠ .refuse capacity timeout)
      (hrelease : other ≠ .release) : other ∉ inner := by
    intro hmem
    obtain ⟨m, -, hleads⟩ := h other hmem
    cases hleads with
    | inner hm => exact hno m hm
    | connect => exact hconnect _ _ _ rfl
    | refuse => exact hrefuse _ _ rfl
    | release => exact hrelease rfl
  refine ⟨hnever ?_ nofun nofun nofun, hnever ?_ nofun nofun nofun,
    fun r => hnever ?_ nofun nofun nofun⟩ <;> intro m <;> cases m <;> nofun

/-- What a move says to the client of a connection. -/
def said? (s : Server) (i : Nat) (m : Move) : Option Utterance := m.inner?.bind (s.service.said? i)

/-- What moves say to it, one after the other. -/
def saidIn (s : Server) (i : Nat) : List Move → List Utterance
  | [] => []
  | m :: moves => (s.said? i m).toList ++ (s.apply m).saidIn i moves

theorem said?_of_none (h : m.inner? = none) (i : Nat) : s.said? i m = none := by
  rw [said?, h]
  rfl

/-- How far the server has got fits the service: requests may come until it lets the queue go, and
    then none can come any more. -/
structure Hosts (s : Server) (t : Service) : Prop where
  alike : s.service.Alike t
  held : s.stage ≠ .released → s.service.queueHeld = true
  quiet : s.stage = .released → s.service.mayRequest = false

/-- **All that a server does to its service.** The last index is the server after it. -/
inductive Hosting (s : Server) : Move → Server → Prop where
  /-- A move of the service. -/
  | inner {m : Move} {inner : Reckoner.Move} (hrelease : inner ≠ .release)
      (hm : m.inner? = some inner) : Hosting s m { s with service := s.service.apply inner }
  /-- A client connects and gets a session. -/
  | receive {peer : String} {capacity : Nat} (hstage : s.stage = .accepting)
      (hroom : s.active < s.maxSessions) :
      Hosting s (.accept peer capacity)
        { s with service := s.service.apply (.connect peer capacity s.writeTimeout) }
  /-- A client connects and is refused. -/
  | turnAway {peer : String} {capacity : Nat} (hstage : s.stage = .accepting)
      (hfull : s.maxSessions ≤ s.active) :
      Hosting s (.accept peer capacity)
        { s with
          service := (s.service.apply (.refuse capacity s.writeTimeout)).record
            .service [refusalEntry peer s.maxSessions] }
  /-- The server begins to shut down. -/
  | stop (hstage : s.stage = .accepting) (hcancelled : s.service.cancelled = true) :
      Hosting s .proceed
        { s with stage := .draining, service := s.service.record .service [stopEntry] }
  /-- All handlers are done, and the server lets the queue go. -/
  | release (hstage : s.stage = .draining) (hdrained : s.isDrained = true) :
      Hosting s .proceed { s with stage := .released, service := s.service.apply .release }
  /-- Nothing. -/
  | stay {m : Move} (hm : m.inner? = none) (hled : s.led? m = none) : Hosting s m s

theorem step_cases (h : s.stage ≠ .released → s.service.queueHeld = true) (m : Move) :
    Hosting s m (s.apply m) := by
  cases m with
  | accept peer capacity =>
    show Hosting s _ (if s.stage = .accepting then s.accept peer capacity else s)
    split
    · rename_i hstage
      unfold accept
      split
      · rename_i hroom
        -- It accepts, so it holds the queue, and to connect is a move of the service.
        have hconnect : s.service.connect peer (.create capacity s.writeTimeout)
            = s.service.apply (.connect peer capacity s.writeTimeout) := by
          rw [Service.apply, if_pos (h (by simp [hstage]))]
        rw [hconnect]
        exact .receive hstage hroom
      · rename_i hfull
        exact .turnAway hstage (Nat.le_of_not_lt hfull)
    · rename_i hstage
      exact .stay rfl (if_neg hstage)
  | proceed =>
    show Hosting s .proceed s.proceed
    unfold proceed
    split
    · rename_i hstage
      split
      · rename_i hcancelled
        exact .stop hstage hcancelled
      · exact .stay rfl (by simp [led?, hstage])
    · rename_i hstage
      split
      · rename_i hdrained
        exact .release hstage hdrained
      · rename_i hdrained
        exact .stay rfl (by simp [led?, hdrained])
    · rename_i hstage
      exact .stay rfl (by simp [led?, hstage])
  | handler | registry | worker | arrive | finish | read | deafen | wait | age | cancel =>
    exact .inner (by simp) rfl

/-- When all handlers are done and the queue is let go, no request can come any more. -/
theorem mayRequest_of_drained (h : s.isDrained = true) :
    (s.service.apply .release).mayRequest = false := by
  refine Service.mayRequest_eq_false.mpr ⟨rfl, fun {i c} hc => ?_⟩
  have hfinished := List.all_eq_true.mp h c (List.mem_of_getElem? hc)
  cases hhandler : c.handler with
  | session session =>
    rw [hhandler] at hfinished
    have hdone : session.hasFinished = true := hfinished
    rw [Handler.mayRequest, hdone]
    rfl
  | refusal | outside | released => rfl

/-- What a server does keeps it in step with its service. -/
theorem Hosts.led (h : s.Hosts t) (m : Move) :
    (∀ i, t.saidIn i (s.led? m).toList = (s.said? i m).toList) ∧
      (s.apply m).Hosts (t.applyAll (s.led? m).toList) := by
  have hstep := step_cases h.held m
  generalize s.apply m = s' at hstep
  cases hstep with
  | @inner _ inner hrelease hm =>
    -- The queue is held until it is let go, and where no request may come none ever will.
    rw [led?_of_inner hm]
    refine ⟨fun i => ?_, h.alike.apply inner, fun hstage => ?_, fun hstage => ?_⟩
    · rw [said?, hm, Option.bind_some, h.alike.said?, Option.toList_some, Service.saidIn,
        Service.saidIn, List.append_nil]
    · exact ((s.service.frame_apply inner).held hrelease).trans (h.held hstage)
    · exact Service.mayRequest_apply (h.quiet hstage) inner
  | @receive peer capacity hstage hroom =>
    have hled : s.led? (.accept peer capacity) = some (.connect peer capacity s.writeTimeout) := by
      rw [led?, if_pos hstage, if_pos hroom]
    have hframe := s.service.frame_apply (.connect peer capacity s.writeTimeout)
    rw [hled]
    refine ⟨fun _ => rfl, h.alike.apply (.connect peer capacity s.writeTimeout), fun hother => ?_,
      fun hreleased => ?_⟩
    · exact (hframe.held (by simp)).trans (h.held hother)
    · cases hstage.symm.trans hreleased
  | @turnAway peer capacity hstage hfull =>
    have hled : s.led? (.accept peer capacity) = some (.refuse capacity s.writeTimeout) := by
      rw [led?, if_pos hstage, if_neg (Nat.not_lt.mpr hfull)]
    have hframe := s.service.frame_apply (.refuse capacity s.writeTimeout)
    rw [hled]
    refine ⟨fun _ => rfl, (h.alike.apply (.refuse capacity s.writeTimeout)).record _,
      fun hother => ?_, fun hreleased => ?_⟩
    · exact (hframe.held (by simp)).trans (h.held hother)
    · cases hstage.symm.trans hreleased
  | stop hstage =>
    rw [show s.led? .proceed = none by simp [led?, hstage]]
    refine ⟨fun _ => rfl, h.alike.record _, fun _ => ?_, by simp⟩
    exact h.held (by simp [hstage])
  | release hstage hdrained =>
    rw [show s.led? .proceed = some .release from if_pos ⟨hstage, hdrained⟩]
    exact ⟨fun _ => rfl, h.alike.apply .release, fun hother => absurd rfl hother,
      fun _ => mayRequest_of_drained hdrained⟩
  | stay hm hled =>
    rw [hled]
    exact ⟨fun i => by rw [said?_of_none hm]; rfl, h⟩

theorem Hosts.apply (h : s.Hosts t) (m : Move) : ∃ inner : List Reckoner.Move,
    (∀ other ∈ inner, m.Leads other) ∧ (∀ i, t.saidIn i inner = (s.said? i m).toList) ∧
      (s.apply m).Hosts (t.applyAll inner) :=
  ⟨(s.led? m).toList, fun _ hother => leads_of_led? (Option.mem_toList.mp hother),
    (h.led m).1, (h.led m).2⟩

/-! What is in the service of a server, but for the log, is in the one behind it. -/

theorem Hosts.connections (h : s.Hosts t) : s.service.connections = t.connections := by
  obtain ⟨log, hservice, -⟩ := h.alike
  rw [hservice, Service.withLog_connections]

theorem Hosts.registry (h : s.Hosts t) : s.service.registry = t.registry := by
  obtain ⟨log, hservice, -⟩ := h.alike
  rw [hservice, Service.withLog_registry]

theorem Hosts.queue (h : s.Hosts t) : s.service.queue = t.queue := by
  obtain ⟨log, hservice, -⟩ := h.alike
  rw [hservice, Service.withLog_queue]

theorem Hosts.worker (h : s.Hosts t) : s.service.worker = t.worker := by
  obtain ⟨log, hservice, -⟩ := h.alike
  rw [hservice, Service.withLog_worker]

theorem Hosts.clock (h : s.Hosts t) : s.service.clock = t.clock := by
  obtain ⟨log, hservice, -⟩ := h.alike
  rw [hservice, Service.withLog_clock]

theorem Hosts.cancelled (h : s.Hosts t) : s.service.cancelled = t.cancelled := by
  obtain ⟨log, hservice, -⟩ := h.alike
  rw [hservice]
  rfl

theorem Hosts.mayRequest (h : s.Hosts t) : s.service.mayRequest = t.mayRequest := by
  obtain ⟨log, hservice, -⟩ := h.alike
  rw [hservice, Service.withLog_mayRequest]

/-- **The service behind a server** makes moves of its own, but for what the server logs. -/
theorem Hosts.applyAll (h : s.Hosts t) (moves : List Move) : ∃ inner : List Reckoner.Move,
    (∀ other ∈ inner, ∃ m ∈ moves, m.Leads other) ∧ (∀ i, t.saidIn i inner = s.saidIn i moves) ∧
      (s.applyAll moves).Hosts (t.applyAll inner) := by
  induction moves generalizing s t with
  | nil => exact ⟨[], nofun, fun _ => rfl, h⟩
  | cons m moves ih =>
    obtain ⟨first, hfirst, hsaid, hhosts⟩ := h.apply m
    obtain ⟨rest, hrest, hsaid', hhosts⟩ := ih hhosts
    refine ⟨first ++ rest, ?_, fun i => ?_, ?_⟩
    · intro other hother
      rcases List.mem_append.mp hother with hother | hother
      · exact ⟨m, List.mem_cons_self, hfirst other hother⟩
      · obtain ⟨m', hm', hleads⟩ := hrest other hother
        exact ⟨m', List.mem_cons_of_mem _ hm', hleads⟩
    · rw [Service.saidIn_append, hsaid, hsaid', saidIn]
    · rw [Service.applyAll_append]
      exact hhosts

/-- The service that a server begins with. -/
abbrev inside (settings : Settings) : Service :=
  .start ⟨settings.readTimeoutSecs * 1000, settings.maxLineLength⟩ settings.queueCapacity

/-- Its worker lives unless it is ended by force. -/
theorem alive_inside (settings : Settings) {moves : List Reckoner.Move}
    (hmoves : .killWorker ∉ moves) :
    ((inside settings).applyAll moves).worker.phase ≠ .killed :=
  Service.alive_of_never (by simp [inside, Service.start]) hmoves

theorem hosts_create (settings : Settings) (port : UInt16) :
    (create settings port).Hosts (inside settings) :=
  ⟨(Service.Alike.refl _).record _, fun _ => rfl, nofun⟩

end Server

end Reckoner
