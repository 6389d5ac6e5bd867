import Reckoner.Proofs.Service.Agreement
import Reckoner.Proofs.Service.Connections
import Reckoner.Proofs.Service.Life
import Reckoner.Proofs.Session.Rebuff

/-!
# Rejected lines leave everything else alone

A line that a session rejects costs it one entry in the log and one line on its own output, however
the service is scheduled in the meantime.  Nothing else changes by it, also where the session has to
consult the registry or the queue to find out that it rejects the line.

* `Service.Throughout` — what holds of every move of a run.
* `Service.mailbox_of_gone` — a registry that is gone has nothing to do.
* `Service.IsStepFor`, `Service.OnlyOwn` — the moves in which a connection gets on, and what they
  may change.
* `Service.Gets`, `Service.Objection` — a session gets a line, and why it rejects it.
* `Service.TurnsAway`, `Service.Rebuffed` — what has happened from the move that gets the line to
  some later one.
* `Service.rejected_changes_only_own` — this holds of every run from there, as long as the session
  is at the line.
-/

namespace Reckoner

namespace Service

variable {s s' s'' : Service} {m : Move} {i : Nat} {c : Connection} {session : Session}
  {next : SessionStep} {line name : String} {entry : LogEntry} {r : Response} {run : List Move}
  {rest : Input} {logged : List LogEntry} {tried said : List Response}

/-! ### Runs, move by move -/

/-- Every move of a run, and the state in which it comes, are so. -/
def Throughout (P : Service → Move → Prop) (s : Service) : List Move → Prop
  | [] => True
  | m :: moves => P s m ∧ (s.apply m).Throughout P moves

instance decidableThroughout (P : Service → Move → Prop) [decides : ∀ s m, Decidable (P s m)] :
    (s : Service) → (run : List Move) → Decidable (s.Throughout P run)
  | _, [] => .isTrue trivial
  | s, m :: run => @instDecidableAnd _ _ (decides s m) (decidableThroughout P (s.apply m) run)

theorem throughout_concat {P : Service → Move → Prop} :
    s.Throughout P (run ++ [m]) ↔ s.Throughout P run ∧ P (s.applyAll run) m := by
  induction run generalizing s with
  | nil => simp [Throughout]
  | cons first run ih => rw [List.cons_append, Throughout, Throughout, ih, and_assoc, applyAll_cons]

/-! ### A registry that is gone -/

/-- Nobody but handlers and the registry itself has anything to do with it. -/
theorem registry_of_other (hhandler : ∀ k, m ≠ .handler k) (hregistry : m ≠ .registry)
    (hkill : m ≠ .killRegistry) : (s.apply m).registry = s.registry := by
  cases m with
  | handler k => exact absurd rfl (hhandler k)
  | registry => exact absurd rfl hregistry
  | killRegistry => exact absurd rfl hkill
  | worker =>
    rcases s.apply_worker with ⟨heq, -⟩ | ⟨s', heq, hworker⟩ <;> rw [heq]
    exact hworker.registry
  | connect =>
    simp only [apply]
    split <;> rfl
  | submit request => rcases s.apply_submit request with heq | ⟨-, -, heq⟩ <;> rw [heq]
  | killWorker =>
    show s.killWorker.registry = _
    rcases s.killWorker_cases with ⟨heq, -⟩ | ⟨-, before, hbefore, heq⟩ <;> rw [heq]
    rcases hbefore with ⟨rfl, -⟩ | ⟨request, outcome, ticket, -, rfl⟩ <;> rfl
  | refuse | attach | detach | arrive | finish | read | deafen | wait | age | cancel
  | release => rfl

/-- A registry that is gone is not asked for anything. -/
theorem afterSession_of_gone (hgone : s.registry.runs = false)
    (hstep : session.Transition s.outlook c.output next) :
    (s.afterSession i c.id next).registry = s.registry := by
  have hgone : s.outlook.registryRuns = false := hgone
  cases hstep with
  | ask _ hruns | giveBack _ _ hruns => cases hgone.symm.trans hruns
  | _ => rfl

/-- **A registry that is gone has nothing to do.** -/
theorem mailbox_of_gone {limits : SessionLimits} {queueCapacity : Nat}
    (h : Reachable limits queueCapacity s) (hgone : s.registry.runs = false) :
    s.registry.mailbox = [] := by
  induction h with
  | start => rfl
  | @move s m _ ih =>
    by_cases hkill : m = .killRegistry
    · rw [hkill]
      rfl
    have hbefore : s.registry.runs = false := ((s.frame_apply m).runs hkill).symm.trans hgone
    have hempty := ih hbefore
    by_cases hregistry : m = .registry
    · have hnothing : s.stepRegistry = none := by rw [stepRegistry, hempty]
      rw [hregistry, apply, hnothing]
      exact hempty
    by_cases hhandler : ∃ k, m = .handler k
    · obtain ⟨k, rfl⟩ := hhandler
      rcases s.apply_handler k with heq | ⟨effort, hstep⟩
      · rwa [heq]
      rcases stepHandler_cases hstep with
        ⟨c, session, next, -, -, htransition, heq⟩ | ⟨c, r, next, -, -, -, heq⟩ <;> rw [heq]
      · rwa [afterSession_of_gone hbefore htransition]
      · exact hempty
    · rwa [registry_of_other (fun k hk => hhandler ⟨k, hk⟩) hregistry hkill]

/-- A command is there only while the registry runs. -/
theorem runs_of_mailbox {limits : SessionLimits} {queueCapacity : Nat}
    (h : Reachable limits queueCapacity s) {command : Nat × RegistryCommand}
    {mailbox : List (Nat × RegistryCommand)} (hmailbox : s.registry.mailbox = command :: mailbox) :
    s.registry.runs = true := by
  by_contra hgone
  rw [mailbox_of_gone h (by simpa using hgone)] at hmailbox
  cases hmailbox

/-! ### What a connection does for itself -/

/-- The connection gets on in the move: its handler takes a step, or the registry carries out its
    command. -/
def IsStepFor (i : Nat) (s : Service) (m : Move) : Prop :=
  m = .handler i ∨ m = .registry ∧ ∃ command mailbox, s.registry.mailbox = (i, command) :: mailbox

/-- **Nothing else changes.** Apart from the output of a connection, what its session is doing, and
    commands of its own that the registry has not carried out, the one service differs from the
    other in what is logged in the name of the connection only. -/
structure OnlyOwn (i : Nat) (entries : List LogEntry) (s s' : Service) : Prop where
  limits : s'.limits = s.limits
  clock : s'.clock = s.clock
  wall : s'.wall = s.wall
  cancelled : s'.cancelled = s.cancelled
  queueHeld : s'.queueHeld = s.queueHeld
  table : s'.registry.table = s.registry.table
  runs : s'.registry.runs = s.registry.runs
  mailbox : (s'.registry.mailbox.filter fun command => command.1 ≠ i)
    = s.registry.mailbox.filter fun command => command.1 ≠ i
  queue : s'.queue = s.queue
  worker : s'.worker = s.worker
  others : ∀ k, k ≠ i → s'.connections[k]? = s.connections[k]?
  joined : (s'.session? i).map Session.joined = (s.session? i).map Session.joined
  log : s'.log = s.log ++ entries.map fun entry => (.connection i, entry)

theorem OnlyOwn.refl (i : Nat) (s : Service) : OnlyOwn i [] s s :=
  ⟨rfl, rfl, rfl, rfl, rfl, rfl, rfl, rfl, rfl, rfl, fun _ _ => rfl, rfl, (List.append_nil _).symm⟩

theorem OnlyOwn.trans {entries entries' : List LogEntry} (h : OnlyOwn i entries s s')
    (h' : OnlyOwn i entries' s' s'') : OnlyOwn i (entries ++ entries') s s'' where
  limits := h'.limits.trans h.limits
  clock := h'.clock.trans h.clock
  wall := h'.wall.trans h.wall
  cancelled := h'.cancelled.trans h.cancelled
  queueHeld := h'.queueHeld.trans h.queueHeld
  table := h'.table.trans h.table
  runs := h'.runs.trans h.runs
  mailbox := h'.mailbox.trans h.mailbox
  queue := h'.queue.trans h.queue
  worker := h'.worker.trans h.worker
  others k hk := (h'.others k hk).trans (h.others k hk)
  joined := h'.joined.trans h.joined
  log := by rw [h'.log, h.log, List.append_assoc, List.map_append]

/-- A step of a session that keeps to itself, but for asking for a name. -/
theorem onlyOwn_afterSession (hc : s.connections[i]? = some c)
    (hhandler : c.handler = .session session) (hjoined : next.session.joined = session.joined)
    (herrand : next.errand = none ∨ ∃ name, next.errand = some (.register name)) :
    OnlyOwn i next.log s (s.afterSession i c.id next) := by
  have hothers (k : Nat) (hk : k ≠ i) :
      (s.afterSession i c.id next).connections[k]? = s.connections[k]? := by
    rw [afterSession_connections, getElem?_modifyConnection, if_neg (Ne.symm hk)]
  have hsame : ((s.afterSession i c.id next).session? i).map Session.joined
      = (s.session? i).map Session.joined := by
    rw [session?_afterSession hc, if_pos rfl, session?_of_handler hc hhandler, Option.map_some,
      Option.map_some, hjoined]
  have hlog := s.log_afterSession i c.id next
  unfold afterSession at hothers hsame hlog ⊢
  rcases herrand with herrand | ⟨name, herrand⟩ <;> rw [herrand] at hothers hsame hlog ⊢
  · exact ⟨rfl, rfl, rfl, rfl, rfl, rfl, rfl, rfl, rfl, rfl, hothers, hsame, hlog⟩
  · -- The command that it posts is its own.
    refine ⟨rfl, rfl, rfl, rfl, rfl, rfl, rfl, ?_, rfl, rfl, hothers, hsame, hlog⟩
    show (s.registry.mailbox ++ [(i, _)]).filter _ = _
    rw [List.filter_append, List.filter_cons_of_neg (by simp), List.filter_nil, List.append_nil]

/-- The registry refuses a command of the connection. -/
theorem onlyOwn_answer {command : RegistryCommand} {mailbox : List (Nat × RegistryCommand)}
    {reply : RegistryReply} (hmailbox : s.registry.mailbox = (i, command) :: mailbox)
    (hjoined : ∀ session : Session, (session.hear reply).joined = session.joined) :
    OnlyOwn i [] s (s.answer i s.registry.table mailbox reply) := by
  refine ⟨rfl, rfl, rfl, rfl, rfl, rfl, rfl, ?_, rfl, rfl, ?_, ?_, (List.append_nil _).symm⟩
  · rw [hmailbox, List.filter_cons_of_neg (by simp)]
    rfl
  · intro k hk
    rw [answer, modifySession, getElem?_modifyConnection, if_neg (Ne.symm hk)]
  · rw [answer, session?_modifySession, if_pos rfl, Option.map_map]
    exact congrArg (Option.map · _) (funext hjoined)

/-- If the connection gets on in the move, it changes nothing else. -/
def ChangesOnlyOwn (i : Nat) (s : Service) (m : Move) : Prop :=
  IsStepFor i s m → ∃ entries, OnlyOwn i entries s (s.apply m)

/-- What a run changes in which nobody else does anything, not even the client. -/
theorem undisturbed_concat {entries : List LogEntry} {session' after : Session}
    (h : s.Throughout (IsStepFor i) run →
      OnlyOwn i logged s (s.applyAll run) ∧ session'.input = rest)
    (hm : OnlyOwn i entries (s.applyAll run) ((s.applyAll run).apply m))
    (hinput : after.input = session'.input) (hown : s.Throughout (IsStepFor i) (run ++ [m])) :
    OnlyOwn i (logged ++ entries) s (s.applyAll (run ++ [m])) ∧ after.input = rest := by
  obtain ⟨honly, hrest⟩ := h (throughout_concat.mp hown).1
  rw [applyAll_concat]
  exact ⟨honly.trans hm, hinput.trans hrest⟩

/-! ### Lines and objections -/

/-- The session of a connection gets a line if its handler takes a step now, and this is what it
    has to read after that. -/
inductive Gets (s : Service) (i : Nat) (session : Session) (line : String) (rest : Input) :
    Prop where
  /-- There is a line in what it reads. -/
  | intro {out : Channel} {since : Nat} {pulled : Pulled} (hhas : s.Has i session out)
      (hphase : session.phase = .reading since)
      (hreads : session.Reads s.outlook out rest (some pulled))
      (hline : Session.lineOfPulled s.limits.longestLine pulled = some line) :
      Gets s i session line rest

/-- The session of the connection is at a line. -/
def IsAtLine (i : Nat) (s : Service) : Prop := (s.session? i).any Session.isAtLine = true

instance (i : Nat) (s : Service) : Decidable (IsAtLine i s) := inferInstanceAs (Decidable (_ = _))

/-- If the registry carries out the wish of the connection for a name, the name is taken. -/
def Denies (i : Nat) (name : String) (s : Service) (m : Move) : Prop :=
  m = .registry → ∀ owner mailbox, s.registry.mailbox = (i, .register name owner) :: mailbox →
    s.registry.table.contains name = true

/-- **Why a session rejects a line**, with what it logs of it and what it answers.  A name may be
    given back until the registry looks, so it has to be taken when the registry does. -/
inductive Objection (s : Service) (i : Nat) (session : Session) (line : String) (run : List Move) :
    LogEntry → Response → Prop where
  /-- The line is malformed. -/
  | malformed {reason : Malformed} (hline : Command.ofLine line = .malformed reason) :
      Objection s i session line run ⟨.err, session.label, reason.message⟩
        (.error "Invalid Expression Format")
  /-- A stranger asks for a calculation. -/
  | calculatesEarly {given expression : String} (hstranger : session.joined = none)
      (hline : Command.ofLine line = .calculate given expression) :
      Objection s i session line run ⟨.err, unknownLabel, "CALC before JOIN"⟩
        (.error "Invalid Expression Format")
  /-- A stranger wants to leave. -/
  | leavesEarly {given : String} (hstranger : session.joined = none)
      (hline : Command.ofLine line = .leave given) :
      Objection s i session line run ⟨.err, unknownLabel, "LEAVE before JOIN"⟩
        (.error "Invalid Expression Format")
  /-- A client who has joined wants to join. -/
  | joinsAgain {name : String} {j : Joined} (hjoined : session.joined = some j)
      (hline : Command.ofLine line = .join name) :
      Objection s i session line run ⟨.err, j.name, "Already joined"⟩
        (.error "Invalid Expression Format")
  /-- A stranger wants to join under a name that is taken. -/
  | taken {name : String} (hstranger : session.joined = none)
      (hline : Command.ofLine line = .join name) (htaken : s.Throughout (Denies i name) run) :
      Objection s i session line run
        ⟨.err, unknownLabel, "Client name already in use: " ++ name⟩
        (.error "Client name already in use")
  /-- A client who has joined asks for a calculation while the queue is full. -/
  | full {given expression : String} {j : Joined} (hjoined : session.joined = some j)
      (hline : Command.ofLine line = .calculate given expression)
      (hopen : s.queue.closed = false) (hfull : s.queue.slots ≤ s.queue.waiting.length) :
      Objection s i session line run
        ⟨.err, j.name, "Request queue full (capacity: " ++ toString s.queue.capacity ++ ")"⟩
        (.error "Server busy")

/-- Where the line is the wish of a stranger for a name, the objection is that it is taken. -/
theorem Objection.of_wants (h : s.Objection i session line run entry r)
    (hwants : session.Wants line name) :
    entry = Session.takenEntry name ∧ r = .nameTaken ∧ s.Throughout (Denies i name) run := by
  obtain ⟨hstranger, hasks⟩ := hwants
  cases h with
  | taken _ hline htaken =>
    cases hasks.symm.trans hline
    exact ⟨rfl, rfl, htaken⟩
  | malformed hline => cases hasks.symm.trans hline
  | calculatesEarly _ hline => cases hasks.symm.trans hline
  | leavesEarly _ hline => cases hasks.symm.trans hline
  | joinsAgain hjoined => cases hstranger.symm.trans hjoined
  | full hjoined => cases hstranger.symm.trans hjoined

/-- Every other objection is raised at once. -/
theorem Objection.rejection (h : s.Objection i session line run entry r) :
    (∃ name, session.Wants line name) ∨ ∃ detail,
      session.rejection? s.outlook (Command.ofLine line) = some (r, detail) ∧
        entry = session.errorEntry detail := by
  cases h with
  | taken hstranger hline => exact .inl ⟨_, hstranger, hline⟩
  | @malformed reason hline =>
    exact .inr ⟨reason.message, by simp only [Session.rejection?, hline]; rfl, rfl⟩
  | calculatesEarly hstranger hline | leavesEarly hstranger hline =>
    refine .inr ⟨_, by simp only [Session.rejection?, hline, hstranger]; rfl, ?_⟩
    simp only [Session.errorEntry, Session.label, hstranger, Command.keyword?]
    rfl
  | joinsAgain hjoined hline =>
    refine .inr ⟨_, by simp only [Session.rejection?, hline, hjoined]; rfl, ?_⟩
    simp only [Session.errorEntry, Session.label, hjoined]
  | full hjoined hline hopen hfull =>
    have hrefusal : s.outlook.refusal? = some (.full s.queue.capacity) := by
      show s.queue.refusal? = _
      rw [RequestQueue.refusal?, hopen, if_neg Bool.false_ne_true, if_pos hfull]
    refine .inr ⟨_, by simp only [Session.rejection?, hline, hjoined, hrefusal]; rfl, ?_⟩
    simp only [Session.errorEntry, Session.label, hjoined]
    rfl

/-! ### What is logged and said -/

/-- **The account of a run**: what the session of a connection has logged in it, what it has tried
    to say, and what it has started to write. -/
structure Account (s : Service) (i : Nat) (run : List Move) (logged : List LogEntry)
    (tried said : List Response) : Prop where
  logs : (s.applyAll run).logBy (.connection i) = s.logBy (.connection i) ++ logged
  tries : s.attemptsIn i run = tried
  speaks : (s.saidIn i run).filterMap Utterance.notice? = said

theorem account_nil (s : Service) (i : Nat) : s.Account i [] [] [] [] :=
  ⟨(List.append_nil _).symm, rfl, rfl⟩

theorem apply_of_step (hc : s.connections[i]? = some c) (hhandler : c.handler = .session session)
    (hstep : session.step s.outlook c.output = some next) :
    s.apply (.handler i) = s.afterSession i c.id next := by
  rw [apply, stepHandler_session hc hhandler, hstep]
  rfl

/-- The session takes a step. -/
theorem Account.step (h : s.Account i run logged tried said)
    (hc : (s.applyAll run).connections[i]? = some c) (hhandler : c.handler = .session session)
    (hstep : session.step (s.applyAll run).outlook c.output = some next) :
    s.Account i (run ++ [.handler i]) (logged ++ next.log) (tried ++ (session.attempt? next).toList)
      (said ++ session.saying?.toList.filterMap Utterance.notice?) := by
  have hnext : (s.applyAll run).sessionStep? i (.handler i) = some (session, next) := by
    rw [sessionStep?_of_session hc hhandler, hstep, Option.map_some]
  refine ⟨?_, ?_, ?_⟩
  · rw [applyAll_concat, logBy_apply, h.logs, hnext, List.append_assoc]
    rfl
  · rw [attemptsIn_concat, h.tries, attempt?, hnext]
    rfl
  · rw [saidIn_concat, List.filterMap_append, h.speaks,
      said?_of_session (session?_of_handler hc hhandler)]

/-- The session neither logs nor says anything in a move. -/
theorem Account.quiet (h : s.Account i run logged tried said)
    (hstep : (s.applyAll run).sessionStep? i m = none)
    (hsaid : ((s.applyAll run).said? i m).toList.filterMap Utterance.notice? = []) :
    s.Account i (run ++ [m]) logged tried said := by
  refine ⟨?_, ?_, ?_⟩
  · rw [applyAll_concat, logBy_apply, h.logs, hstep, Option.map_none, Option.getD_none,
      List.append_nil]
  · rw [attemptsIn_concat, h.tries, attempt?, hstep, Option.bind_none, Option.toList_none,
      List.append_nil]
  · rw [saidIn_concat, List.filterMap_append, h.speaks, hsaid, List.append_nil]

/-- Nobody but the session says anything in its place. -/
theorem notice_of_other (hm : m ≠ .handler i) :
    (s.said? i m).toList.filterMap Utterance.notice? = [] := by
  cases m with
  | handler k =>
    rw [said?, if_neg fun hk => hm (congrArg Move.handler hk)]
    rfl
  | worker =>
    show (((s.reply? .worker).filter _).map Utterance.reply).toList.filterMap _ = []
    cases (s.reply? .worker).filter _ <;> rfl
  | _ => rfl

/-! ### From the move that gets the line -/

/-- **How far the session has got.** It is who it was and has got this line, it has got so far with
    turning it away as the account of the run says, and if nobody else has done anything in the run,
    the rest of its input and all else are as before. -/
structure TurnsAway (s : Service) (i : Nat) (session : Session) (line : String) (rest : Input)
    (entry : LogEntry) (r : Response) (run : List Move) (session' : Session)
    (logged : List LogEntry) (tried said : List Response) : Prop where
  here : (s.applyAll run).session? i = some session'
  joined : session'.joined = session.joined
  peer : session'.peer = session.peer
  handled : session'.handled = session.handled ++ [line]
  stage : session.Rebuff line entry r session'.phase logged tried said
  account : s.Account i run logged tried said
  undisturbed : s.Throughout (IsStepFor i) run →
    OnlyOwn i logged s (s.applyAll run) ∧ session'.input = rest

/-- **A line is turned away.** The moves of the run in which the connection gets on change nothing
    else, and there is an account of how far its session has got. -/
structure Rebuffed (s : Service) (i : Nat) (session : Session) (line : String) (rest : Input)
    (entry : LogEntry) (r : Response) (run : List Move) : Prop where
  alone : s.Throughout (ChangesOnlyOwn i) run
  story : ∃ session' logged tried said,
    s.TurnsAway i session line rest entry r run session' logged tried said

/-- It begins with the move that gets the line. -/
theorem rebuffed_first (hgets : s.Gets i session line rest)
    (hobjects : s.Objection i session line run entry r) :
    s.Rebuffed i session line rest entry r [.handler i] := by
  obtain ⟨⟨c, hc, hhandler, rfl⟩, hphase, hreads, hline⟩ := hgets
  obtain ⟨next, hstep, herrand, hjoined, hpeer, hinput, hhandled, hrebuff⟩ :=
    Session.rebuff_of_line hphase hreads hline hobjects.rejection
  have happly := apply_of_step hc hhandler hstep
  have honly : OnlyOwn i next.log s (s.apply (.handler i)) := by
    rw [happly]
    exact onlyOwn_afterSession hc hhandler hjoined (.inl herrand)
  refine ⟨⟨fun _ => ⟨_, honly⟩, trivial⟩, next.session, next.log, (session.attempt? next).toList,
    [], ?_, hjoined, hpeer, hhandled, hrebuff, ?_, fun _ => ⟨honly, hinput⟩⟩
  · rw [applyAll_cons, applyAll_nil, happly, session?_afterSession hc, if_pos rfl]
  · have haccount := (s.account_nil i).step hc hhandler hstep
    simp only [Session.saying?, hphase] at haccount
    exact haccount

/-- The session takes a step, or has to wait. -/
theorem Rebuffed.handler (h : s.Rebuffed i session line rest entry r run)
    (hat : IsAtLine i (s.applyAll run))
    (hdenied : ∀ name, session.Wants line name →
      entry = Session.takenEntry name ∧ r = .nameTaken) :
    s.Rebuffed i session line rest entry r (run ++ [.handler i]) := by
  obtain ⟨session', logged, tried, said, hsession, hjoined, hpeer, hhandled, hrebuff, haccount,
    hundisturbed⟩ := h.story
  rw [IsAtLine, hsession, Option.any_some] at hat
  obtain ⟨c, hc, hhandler⟩ := session?_eq_some hsession
  cases hstep : session'.step (s.applyAll run).outlook c.output with
  | none =>
    have happly : (s.applyAll run).apply (.handler i) = s.applyAll run := by
      rw [apply, stepHandler_session hc hhandler, hstep]
      rfl
    have honly : OnlyOwn i [] (s.applyAll run) ((s.applyAll run).apply (.handler i)) := by
      rw [happly]
      exact .refl i _
    refine ⟨throughout_concat.mpr ⟨h.alone, fun _ => ⟨_, honly⟩⟩, session', logged, tried, said, ?_,
      hjoined, hpeer, hhandled, hrebuff, haccount.quiet ?_ ?_, ?_⟩
    · rw [applyAll_concat, happly, hsession]
    · rw [sessionStep?_of_session hc hhandler, hstep, Option.map_none]
    · rw [said?_of_session hsession, Session.saying?_of_wait hstep]
      rfl
    · intro hown
      rw [← List.append_nil logged]
      exact undisturbed_concat hundisturbed honly rfl hown
  | some next =>
    have happly := apply_of_step hc hhandler hstep
    obtain ⟨hrebuff', hkeeps⟩ := hrebuff.step hat hdenied hstep
    have honly : OnlyOwn i next.log (s.applyAll run) ((s.applyAll run).apply (.handler i)) := by
      rw [happly]
      exact onlyOwn_afterSession hc hhandler hkeeps.joined hkeeps.errand
    refine ⟨throughout_concat.mpr ⟨h.alone, fun _ => ⟨_, honly⟩⟩, next.session, _, _, _, ?_,
      hkeeps.joined.trans hjoined, hkeeps.peer.trans hpeer, hkeeps.handled.trans hhandled, hrebuff',
      haccount.step hc hhandler hstep, undisturbed_concat hundisturbed honly hkeeps.input⟩
    rw [applyAll_concat, happly, session?_afterSession hc, if_pos rfl]

/-- The registry carries out what the session has asked for, which is to deny it the name. -/
theorem Rebuffed.registry (h : s.Rebuffed i session line rest entry r run) {limits : SessionLimits}
    {queueCapacity : Nat} (hreach : Reachable limits queueCapacity (s.applyAll run))
    (hat : IsAtLine i (s.applyAll run)) {command : RegistryCommand}
    {mailbox : List (Nat × RegistryCommand)}
    (hmailbox : (s.applyAll run).registry.mailbox = (i, command) :: mailbox)
    (hdenies : ∀ name, session.Wants line name → Denies i name (s.applyAll run) .registry) :
    s.Rebuffed i session line rest entry r (run ++ [.registry]) := by
  obtain ⟨session', logged, tried, said, hsession, hjoined, hpeer, hhandled, hrebuff, haccount,
    hundisturbed⟩ := h.story
  rw [IsAtLine, hsession, Option.any_some] at hat
  -- The registry runs, so its command is what the session waits for.
  have hagree := agreement_of_reachable hreach (runs_of_mailbox hreach hmailbox)
  have hpending := hagree.pending (by rw [hmailbox]; exact List.mem_cons_self)
  rw [pending?, hsession, Option.bind_some] at hpending
  obtain ⟨name, owner, rfl⟩ : ∃ name owner, command = .register name owner := by
    rcases Session.pending?_cases hpending with hregister | ⟨name, number, rfl⟩
    · exact hregister
    · obtain ⟨-, -, e, hphase⟩ := Session.pending?_deregister hpending
      simp [Session.isAtLine, hphase] at hat
  obtain ⟨-, hphase⟩ := Session.pending?_register hpending
  have hwants : session.Wants line name := by
    rw [hphase] at hrebuff
    cases hrebuff with
    | waits hwants => exact hwants
  -- So the name is taken, and the registry leaves its table as it is.
  obtain ⟨e, hhandle⟩ : ∃ e, (s.applyAll run).registry.table.handle (.register name owner)
      = ((s.applyAll run).registry.table, .registered (.error e)) := by
    have htaken := hdenies name hwants rfl owner mailbox hmailbox
    rcases (s.applyAll run).registry.table.handle_register name owner with
      ⟨other, e, -, hhandle⟩ | ⟨hfree, -⟩
    · exact ⟨e, hhandle⟩
    · rw [Registry.contains, hfree] at htaken
      cases htaken
  have happly : (s.applyAll run).apply .registry = (s.applyAll run).answer i
      (s.applyAll run).registry.table mailbox (.registered (.error e)) := by
    simp only [apply, stepRegistry, hmailbox, hhandle]
    rfl
  have honly : OnlyOwn i [] (s.applyAll run) ((s.applyAll run).apply .registry) := by
    rw [happly]
    refine onlyOwn_answer hmailbox fun session => ?_
    unfold Session.hear
    split <;> rfl
  have hheard : session'.hear (.registered (.error e))
      = { session' with phase := .joinAnswered name false } := by
    simp only [Session.hear, hphase]
  refine ⟨throughout_concat.mpr ⟨h.alone, fun _ => ⟨_, honly⟩⟩,
    { session' with phase := .joinAnswered name false }, logged, tried, said, ?_, hjoined, hpeer,
    hhandled, ?_, haccount.quiet rfl rfl, ?_⟩
  · rw [applyAll_concat, happly, answer, session?_modifySession, if_pos rfl]
    show ((s.applyAll run).session? i).map _ = _
    rw [hsession, Option.map_some, hheard]
  · rw [← hheard]
    exact hrebuff.hear hphase e
  · intro hown
    rw [← List.append_nil logged]
    exact undisturbed_concat hundisturbed honly rfl hown

/-- What others do leaves the session where it is. -/
theorem same_of_other (h : s.session? i = some session) (hm : ¬ IsStepFor i s m) :
    ∃ session', (s.apply m).session? i = some session' ∧ session'.joined = session.joined ∧
      session'.peer = session.peer ∧ session'.handled = session.handled ∧
      session'.phase = session.phase := by
  by_cases hregistry : m = .registry
  · subst hregistry
    refine ⟨session, ?_, rfl, rfl, rfl, rfl⟩
    rcases s.apply_registry with heq | ⟨effort, hstep⟩
    · rw [heq, h]
    obtain ⟨source, command, mailbox, hmailbox, heq⟩ := stepRegistry_cases hstep
    have hne : source ≠ i := by
      rintro rfl
      exact hm (.inr ⟨rfl, command, mailbox, hmailbox⟩)
    rw [heq, answer, session?_modifySession, if_neg hne]
    exact h
  -- A session is still there, and without a step of its own it can only have got input.
  obtain ⟨session', hafter⟩ := session?_apply_of_some h m
  refine ⟨session', hafter, ?_⟩
  rcases session_of_move hafter with ⟨before, next, hstep, -, -⟩ |
    ⟨-, (hsame | ⟨before, hbefore, htouched⟩) | ⟨peer, _, _, -, hnew, -⟩⟩
  · rw [sessionStep?_of_ne fun hhandler => hm (.inl hhandler)] at hstep
    cases hstep
  · cases hsame.symm.trans h
    exact ⟨rfl, rfl, rfl, rfl⟩
  · cases hbefore.symm.trans h
    cases htouched with
    | hear reply => exact absurd rfl hregistry
    | arrive | finish => exact ⟨rfl, rfl, rfl, rfl⟩
  · obtain ⟨c, hc, -⟩ := session?_eq_some h
    have hlt := (List.getElem?_eq_some_iff.mp hc).1
    omega

/-- Somebody else does something. -/
theorem Rebuffed.other (h : s.Rebuffed i session line rest entry r run)
    (hm : ¬ IsStepFor i (s.applyAll run) m) :
    s.Rebuffed i session line rest entry r (run ++ [m]) := by
  obtain ⟨session', logged, tried, said, hsession, hjoined, hpeer, hhandled, hrebuff, haccount,
    -⟩ := h.story
  have hne : m ≠ .handler i := fun hhandler => hm (.inl hhandler)
  obtain ⟨after, hafter, hjoined', hpeer', hhandled', hphase⟩ := same_of_other hsession hm
  refine ⟨throughout_concat.mpr ⟨h.alone, fun hown => absurd hown hm⟩, after, logged, tried, said,
    ?_, hjoined'.trans hjoined, hpeer'.trans hpeer, hhandled'.trans hhandled, ?_,
    haccount.quiet (sessionStep?_of_ne hne) (notice_of_other hne),
    fun hown => absurd (throughout_concat.mp hown).2 hm⟩
  · rw [applyAll_concat, hafter]
  · rw [hphase]
    exact hrebuff

theorem rebuffed_of_gets {limits : SessionLimits} {queueCapacity : Nat}
    (h : Reachable limits queueCapacity s) (hgets : s.Gets i session line rest) {moves : List Move}
    (hstays : (s.apply (.handler i)).Throughout (fun s _ => IsAtLine i s) moves)
    (hobjects : s.Objection i session line (.handler i :: moves) entry r) :
    s.Rebuffed i session line rest entry r (.handler i :: moves) := by
  -- By induction on the moves from the last.  The objection is about all of them, so what it says
  -- of each is kept for the name that the line may ask for, and the objection itself let go.
  have hdenies (name : String) (hwants : session.Wants line name) := hobjects.of_wants hwants
  have hfirst := rebuffed_first hgets hobjects
  clear hobjects
  induction moves using List.reverseRecOn with
  | nil => exact hfirst
  | append_singleton moves m ih =>
    obtain ⟨hbefore, hat⟩ := throughout_concat.mp hstays
    have hdenies' (name : String) (hwants : session.Wants line name) :
        s.Throughout (Denies i name) (.handler i :: moves) ∧
          Denies i name (s.applyAll (.handler i :: moves)) m :=
      throughout_concat.mp (hdenies name hwants).2.2
    have hrebuffed := ih hbefore fun name hwants =>
      ⟨(hdenies name hwants).1, (hdenies name hwants).2.1, (hdenies' name hwants).1⟩
    by_cases hown : IsStepFor i (s.applyAll (.handler i :: moves)) m
    · rcases hown with rfl | ⟨rfl, command, mailbox, hmailbox⟩
      · exact hrebuffed.handler hat fun name hwants =>
          ⟨(hdenies name hwants).1, (hdenies name hwants).2.1⟩
      · exact hrebuffed.registry (h.applyAll _) hat hmailbox fun name hwants =>
          (hdenies' name hwants).2
    · exact hrebuffed.other hown

/-- A session whose answer is written reads on. -/
theorem session?_of_written {out : Channel} {ticket : Nat} (h : s.Has i session out)
    (hphase : session.phase = .sending ticket .readOn)
    (hready : out.isReady s.clock ticket = true)
    (hprogress : (out.poll s.clock ticket).progress = some (.ok ())) :
    (s.apply (.handler i)).session? i = some { session with phase := .reading s.clock } := by
  obtain ⟨c, hc, hhandler, rfl⟩ := h
  have hstep : session.step s.outlook c.output
      = some (session.send s.outlook ticket .readOn c.output) := by
    have hready : c.output.isReady s.outlook.clock ticket = true := hready
    simp only [Session.step, hphase, hready, if_true]
  have hprogress : (c.output.poll s.outlook.clock ticket).progress = some (.ok ()) := hprogress
  rw [apply_of_step hc hhandler hstep, session?_afterSession hc, if_pos rfl]
  simp only [Session.send, hprogress]
  rfl

/-- **Rejected lines leave everything else alone.** In every state that a service can get into let a
    session get a line, and let it object to it.  Whatever happens then, as long as the session is
    at the line:
    the moves in which its connection gets on change nothing but its own, and the line costs it one
    entry and one answer;
    and if the answer is written, the session reads on. -/
theorem rejected_changes_only_own {limits : SessionLimits} {queueCapacity : Nat}
    (h : Reachable limits queueCapacity s) (hgets : s.Gets i session line rest) {moves : List Move}
    (hstays : (s.apply (.handler i)).Throughout (fun s _ => IsAtLine i s) moves)
    (hobjects : s.Objection i session line (.handler i :: moves) entry r) :
    s.Rebuffed i session line rest entry r (.handler i :: moves) ∧
      ∀ session' out ticket, (s.applyAll (.handler i :: moves)).Has i session' out →
        session'.phase = .sending ticket .readOn →
        out.isReady (s.applyAll (.handler i :: moves)).clock ticket = true →
        (out.poll (s.applyAll (.handler i :: moves)).clock ticket).progress = some (.ok ()) →
          ((s.applyAll (.handler i :: moves)).apply (.handler i)).session? i
            = some { session' with
                phase := .reading (s.applyAll (.handler i :: moves)).clock } :=
  ⟨rebuffed_of_gets h hgets hstays hobjects, fun _ _ _ => session?_of_written⟩

/-- A client is about to be told that it has joined, and another one asks for the same name. -/
def ownedRun : List Move :=
  [.connect "peer" 64 1000, .connect "other" 64 1000, .arrive 0 (utf8 "JOIN:a\n"), .handler 0,
    .handler 0, .registry, .arrive 1 (utf8 "JOIN:a\n")]

/-- The other one is turned away, and reads on. -/
def deniedRun : List Move :=
  [.handler 1, .handler 0, .handler 1, .registry, .handler 0, .handler 1, .handler 1, .handler 1,
    .handler 1]

theorem rejected_changes_only_own_deniedRun :
    ∃ session, ((start ⟨1000, 64⟩ 4).applyAll ownedRun).session? 1 = some session ∧
      ((start ⟨1000, 64⟩ 4).applyAll ownedRun).Rebuffed 1 session "JOIN:a" {}
        ⟨.err, unknownLabel, "Client name already in use: a"⟩ (.error "Client name already in use")
        deniedRun ∧
      ((((start ⟨1000, 64⟩ 4).applyAll ownedRun).applyAll deniedRun).session? 1).map Session.phase
        = some (.reading 0) := by
  let session : Session :=
    { peer := "other", input := { unread := utf8 "JOIN:a\n" }, phase := .reading 0 }
  have hhas : ((start ⟨1000, 64⟩ 4).applyAll ownedRun).Has 1 session (.create 64 1000) :=
    has_iff.mpr ⟨by decide +kernel, by decide +kernel⟩
  have hreads : session.Reads ((start ⟨1000, 64⟩ 4).applyAll ownedRun).outlook (.create 64 1000) {}
      (some (.piece (utf8 "JOIN:a\n"))) :=
    ⟨by decide +kernel, rfl, rfl, by decide +kernel⟩
  -- The registry carries out the wish in the fourth move.
  have htaken : ((start ⟨1000, 64⟩ 4).applyAll ownedRun).Throughout (Denies 1 "a") deniedRun := by
    refine ⟨nofun, nofun, nofun, fun _ _ _ _ => ?_, nofun, nofun, nofun, nofun, nofun, trivial⟩
    decide +kernel
  have hgets : ((start ⟨1000, 64⟩ 4).applyAll ownedRun).Gets 1 session "JOIN:a" {} :=
    .intro hhas rfl hreads (by decide +kernel)
  have hresult := rejected_changes_only_own (Reachable.start.applyAll ownedRun) hgets
    (by decide +kernel) (.taken rfl (by decide +kernel) htaken)
  exact ⟨session, (has_iff.mp hhas).1, hresult.1, by decide +kernel⟩

end Service

end Reckoner
