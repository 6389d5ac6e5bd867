import Reckoner.Proofs.Channel.Headway
import Reckoner.Proofs.Service.Befalls
import Reckoner.Proofs.Service.Farewell

/-!
# Sessions on broken outputs

The output of a session may break while the session reads, waits for the registry, or writes, and
by a line of its own as well as by a reply of the worker.  From then on the session selects no line
any more, and comes to an end for one of very few reasons.

* `Channel.progress_of_broken` — lines fail at once on a broken output.
* `Session.Transition.ends_of_broken` — what a session on a broken output can go on to.
* `Service.Stranded`, `Service.Stranded.apply` — a session on a broken output, whatever happens.
* `Service.Stranded.notices` — what it does when it selects its next line.
* `Service.freed_of_givenBack` — once it has given back its name it owns none.
* `Service.SparesOthers`, `Service.sparesOthers_of_isStepFor` — what it does spares everybody else.
-/

namespace Reckoner

/-! ### Broken outputs -/

namespace Channel

variable {c : Channel}

/-- A line that has its turn on a broken output fails because of the line before it. -/
theorem progress_of_broken (h : c.Orderly) (hbroken : c.broken = true)
    (hlines : ∀ job ∈ c.jobs, job.work.closes = false) {clock ticket : Nat}
    (hready : c.isReady clock ticket = true) :
    (c.poll clock ticket).progress = some (.error .broken) := by
  obtain ⟨first, others, hjobs, hticket, -⟩ := poll_of_ready hready
  have hfirst : first ∈ c.jobs := by rw [hjobs]; exact List.mem_cons_self
  have hline := hlines first hfirst
  have hstart := h.halted hbroken first hfirst hline
  simp only [poll, hjobs, hticket, hstart, takeHold]
  cases hwork : first.work with
  | line bytes => simp [hbroken, conclude]
  | close => simp [hwork, Work.closes] at hline

/-- An output breaks by a line that fails for a reason of its own. -/
theorem error_of_breaking {clock ticket : Nat} (hsound : c.broken = false)
    (hbroken : (c.poll clock ticket).channel.broken = true) :
    ∃ e, (c.poll clock ticket).progress = some (.error e) ∧ e ≠ .broken := by
  rcases c.operation_poll clock ticket with ⟨job, others, -, -, hop⟩ | ⟨-, hpoll⟩
  · exact (hop.broken.mp hbroken).resolve_left (by simp [hsound])
  · rw [hpoll] at hbroken
    cases hsound.symm.trans hbroken

end Channel

/-! ### Their sessions -/

namespace Session

variable {o : Outlook} {s : Session} {out : Channel} {next : SessionStep}

/-- **No more lines.** On a broken output no line is handled. -/
theorem Transition.handled_of_broken (h : Transition o s out next) (hbroken : out.broken = true) :
    next.session.handled = s.handled := by
  cases h with
  | gather _ hreads | runOut _ hreads | reject _ hreads | want _ hreads | request _ hreads
  | requestLost _ hreads | leave _ hreads => cases hbroken.symm.trans hreads.broken
  | _ => rfl

/-- **Why a session ends on a broken output**, unless it has ended already. -/
inductive BreakEnd (o : Outlook) : SessionEnd → Prop where
  /-- It finds that the service shuts down. -/
  | shutdown (hcancelled : o.cancelled = true) : BreakEnd o .shutdown
  /-- It finds that the output is broken. -/
  | broken : BreakEnd o (.failed (.write .broken))
  /-- It waits for the registry, which is gone. -/
  | registryClosed (hgone : o.registryRuns = false) : BreakEnd o (.failed .registryClosed)

/-- **What a session on a broken output goes on to** that has not ended: it has not ended yet, or
    ends now for one of these reasons. -/
theorem Transition.ends_of_broken (h : Transition o s out next) (hbroken : out.broken = true)
    (horderly : out.Orderly) (hlines : ∀ job ∈ out.jobs, job.work.closes = false)
    (hloop : s.end? = none) :
    next.session.end? = none ∨ ∃ e, next.session.phase = .ending e ∧ BreakEnd o e := by
  have hreply (r : Response) (after : AfterReply) :
      ∃ e, phaseOfReply r after out = .ending e ∧ BreakEnd o e :=
    ⟨_, by rw [phaseOfReply, if_pos hbroken], .broken⟩
  cases h with
  | cancel _ hcancelled => exact .inr ⟨_, rfl, .shutdown hcancelled⟩
  | notice => exact .inr ⟨_, rfl, .broken⟩
  | expire _ _ hsound => cases hbroken.symm.trans hsound
  | gather _ hreads | runOut _ hreads | reject _ hreads | want _ hreads | request _ hreads
  | requestLost _ hreads | leave _ hreads => cases hbroken.symm.trans hreads.broken
  | ask | answer => exact .inl rfl
  | askLost _ hgone => exact .inr ⟨_, rfl, .registryClosed hgone⟩
  | join => exact .inr (hreply _ _)
  | deny => exact .inr (hreply _ _)
  | write _ hready hprogress =>
    cases (Channel.progress_of_broken horderly hbroken hlines hready).symm.trans hprogress
  | writeFail _ hready hprogress =>
    cases (Channel.progress_of_broken horderly hbroken hlines hready).symm.trans hprogress
    exact .inr ⟨_, rfl, .broken⟩
  | readOn _ hready hprogress | bidFarewell _ hready hprogress =>
    cases (Channel.progress_of_broken horderly hbroken hlines hready).symm.trans hprogress
  | giveBackLost hphase =>
    rcases hphase with ⟨hphase, -⟩ | ⟨hphase, -⟩ <;> simp [Session.end?, hphase] at hloop
  | cleanUp hphase | skip hphase | giveBack hphase | signOff hphase | close hphase | shut hphase
  | finish hphase => simp [Session.end?, hphase] at hloop

end Session

namespace Service

variable {s : Service} {m : Move} {i k : Nat} {first session session' : Session}
  {out out' : Channel} {limits : SessionLimits} {queueCapacity : Nat}

/-- **Stranded.** What has become of a session since its output broke, when it was as it was first:
    it has handled no line, and if it has ended, then for the reason that it had then, or for one
    of those why sessions end on broken outputs.  It has not begun to close the output. -/
structure Stranded (s : Service) (i : Nat) (first session : Session) (out : Channel) : Prop where
  has : s.Has i session out
  broken : out.broken = true
  handled : session.handled = first.handled
  kept : ∀ e, first.end? = some e → session.end? = some e
  ends : first.end? = none → ∀ e, session.end? = some e → Session.BreakEnd s.outlook e
  unshut : session.end? ≠ none → session.endsOpen = true

/-- What a session has found out stays so. -/
theorem breakEnd_apply {e : SessionEnd} (h : Session.BreakEnd s.outlook e) (m : Move) :
    Session.BreakEnd (s.apply m).outlook e := by
  cases h with
  | broken => exact .broken
  | shutdown hcancelled => exact .shutdown (cancelled_apply hcancelled m)
  | registryClosed hgone =>
    refine .registryClosed ?_
    by_contra hruns
    cases hgone.symm.trans (runs_of_apply m (by simpa [outlook] using hruns))

/-- All jobs on the output are lines. -/
theorem Stranded.lines (h : s.Stranded i first session out)
    (hreach : Reachable limits queueCapacity s) : ∀ job ∈ out.jobs, job.work.closes = false := by
  intro job hjob
  by_contra hcloses
  obtain ⟨e, hphase⟩ := closesAsShut_of_reachable hreach h.has job hjob (by simpa using hcloses)
  have hopen := h.unshut (by simp [Session.end?, hphase])
  simp [Session.endsOpen, hphase] at hopen

/-- A session that has ended leaves its broken output open. -/
theorem Befalls.endsOpen (h : s.Befalls i session out m session' out') (hbroken : out.broken = true)
    (hopen : session.endsOpen = true) : session'.endsOpen = true := by
  cases h with
  | step hstep => exact (hstep.endsOpen hopen hbroken).1
  | hear reply => exact (session.hears_hear reply).endsOpen_eq.trans hopen
  | reply | carryOn | giveUp | arrive | finish | pipe | none => exact hopen

/-- A session that ends does so for the same reason from then on. -/
theorem Befalls.end? (h : s.Befalls i session out m session' out') {e : SessionEnd}
    (hend : session.end? = some e) : session'.end? = some e := by
  cases h with
  | step hstep => exact hstep.end? hend
  | hear reply => exact (session.hears_hear reply).end?_eq.trans hend
  | reply | carryOn | giveUp | arrive | finish | pipe | none => exact hend

/-- No line is handled, whatever befalls a session on a broken output. -/
theorem Befalls.handled (h : s.Befalls i session out m session' out')
    (hbroken : out.broken = true) : session'.handled = session.handled := by
  cases h with
  | step hstep => exact hstep.handled_of_broken hbroken
  | hear reply => exact (session.hears_hear reply).handled
  | reply | carryOn | giveUp | arrive | finish | pipe | none => rfl

/-- What befalls a stranded session that has not ended can only end it for one of the reasons why
    sessions end on broken outputs. -/
theorem Stranded.ends_next (h : s.Stranded i first session out)
    (hreach : Reachable limits queueCapacity s) (hbefalls : s.Befalls i session out m session' out')
    (hend : session.end? = none) : session'.end? = none ∨
      ∃ e, session'.phase = .ending e ∧ Session.BreakEnd s.outlook e := by
  cases hbefalls with
  | step hstep =>
    have horderly := (sharing_of_reachable hreach).orderly (has_iff.mp h.has).2
    exact hstep.ends_of_broken h.broken horderly (h.lines hreach) hend
  | hear reply => exact .inl ((session.hears_hear reply).end?_eq.trans hend)
  | reply | carryOn | giveUp | arrive | finish | pipe | none => exact .inl hend

/-- **Stranded for good.** Whatever happens, a session that is stranded stays so. -/
theorem Stranded.apply (h : s.Stranded i first session out)
    (hreach : Reachable limits queueCapacity s) (m : Move) :
    ∃ session' out', (s.apply m).Stranded i first session' out' ∧
      s.Befalls i session out m session' out' := by
  obtain ⟨session', out', hafter, hbefalls⟩ := befalls_of_apply h.has m
  refine ⟨session', out', ⟨hafter, hbefalls.broken h.broken,
    (hbefalls.handled h.broken).trans h.handled, fun e he => hbefalls.end? (h.kept e he), ?_, ?_⟩,
    hbefalls⟩
  · intro hfirst e hend'
    refine breakEnd_apply ?_ m
    cases hend : session.end? with
    | some earlier =>
      rw [hbefalls.end? hend] at hend'
      exact h.ends hfirst e (hend.trans hend')
    | none =>
      rcases h.ends_next hreach hbefalls hend with hnone | ⟨reason, hphase, hreason⟩
      · cases hnone.symm.trans hend'
      · simp only [Session.end?, hphase, Option.some.injEq] at hend'
        rwa [← hend']
  · intro hend'
    cases hend : session.end? with
    | some earlier => exact hbefalls.endsOpen h.broken (h.unshut (by simp [hend]))
    | none =>
      rcases h.ends_next hreach hbefalls hend with hnone | ⟨reason, hphase, -⟩
      · exact absurd hnone hend'
      · rw [Session.endsOpen, hphase]

theorem Stranded.applyAll (h : s.Stranded i first session out)
    (hreach : Reachable limits queueCapacity s) (moves : List Move) :
    ∃ session' out', (s.applyAll moves).Stranded i first session' out' := by
  induction moves generalizing s session out with
  | nil => exact ⟨session, out, h⟩
  | cons m moves ih =>
    obtain ⟨session', out', hafter, -⟩ := h.apply hreach m
    exact ih hafter (hreach.move m)

/-- **What it selects.** A session that reads on a broken output ends with its next step. -/
theorem Stranded.notices (h : s.Stranded i first session out) {since : Nat}
    (hphase : session.phase = .reading since) : (s.apply (.handler i)).session? i
      = some { session with
          phase := .ending (if s.cancelled then .shutdown else .failed (.write .broken)) } := by
  obtain ⟨⟨c, hc, hhandler, rfl⟩, hbroken, -⟩ := h
  have hstep : session.step s.outlook c.output = some (session.endWith
      (if s.cancelled then .shutdown else .failed (.write .broken)) c.output) := by
    simp only [Session.step, hphase, Session.read, hbroken, if_true, outlook]
    split <;> rfl
  rw [apply_of_step hc hhandler hstep, session?_afterSession hc, if_pos rfl]
  rfl

/-! ### Its name -/

/-- A registry that is gone stays as it is. -/
theorem registry_of_gone (hreach : Reachable limits queueCapacity s)
    (hgone : s.registry.runs = false) (hkill : m ≠ .killRegistry) :
    (s.apply m).registry = s.registry := by
  by_cases hregistry : m = .registry
  · have hnothing : s.stepRegistry = none := by rw [stepRegistry, mailbox_of_gone hreach hgone]
    rw [hregistry, apply, hnothing]
    rfl
  by_cases hhandler : ∃ k, m = .handler k
  · obtain ⟨k, rfl⟩ := hhandler
    rcases s.apply_handler k with heq | ⟨effort, hstep⟩
    · rw [heq]
    rcases stepHandler_cases hstep with
      ⟨c, session, next, -, -, htransition, heq⟩ | ⟨c, r, next, -, -, -, heq⟩ <;> rw [heq]
    · exact afterSession_of_gone hgone htransition
    · rfl
  · exact registry_of_other (fun k hk => hhandler ⟨k, hk⟩) hregistry hkill

/-- It has lost its names. -/
theorem owners_of_gone (h : Reachable limits queueCapacity s) (hgone : s.registry.runs = false) :
    s.registry.table.owners = [] := by
  induction h with
  | start => rfl
  | @move s m hreach ih =>
    by_cases hkill : m = .killRegistry
    · rw [hkill]
      rfl
    have hbefore : s.registry.runs = false := ((s.frame_apply m).runs hkill).symm.trans hgone
    rw [registry_of_gone hreach hbefore hkill]
    exact ih hbefore

/-- **Its name is free.** A session that has given back its name owns none, whether the registry
    runs or not. -/
theorem freed_of_givenBack (hreach : Reachable limits queueCapacity s)
    (hsession : s.session? i = some session) (hback : session.hasGivenBack = true) :
    s.Freed i := by
  cases hruns : s.registry.runs with
  | true => exact (agreement_of_reachable hreach hruns).freed hsession hback
  | false =>
    have hnobody (name : String) : s.registry.table.owner? name = none := by
      rw [Registry.owner?_eq_none_iff, owners_of_gone hreach hruns]
      exact fun _ => List.not_mem_nil
    refine ⟨?_, ?_⟩
    · intro name owner howner
      cases (hnobody name).symm.trans howner
    · intro name owner e hrefused
      rcases s.registry.table.handle_register name owner with
        ⟨taken, -, howner, -⟩ | ⟨-, table, hgranted, -⟩
      · cases (hnobody name).symm.trans howner
      · rw [hgranted] at hrefused
        cases hrefused

/-! ### Everybody else -/

/-- **Sparing the others.** Every other connection is as before, with what it is doing and its
    output, and so are the names of others and what they have asked of the registry. -/
structure SparesOthers (i : Nat) (s s' : Service) : Prop where
  others : ∀ k, k ≠ i → s'.connections[k]? = s.connections[k]?
  names : ∀ entry : String × Owner, entry.2.session ≠ i + 1 →
    (entry ∈ s'.registry.table.owners ↔ entry ∈ s.registry.table.owners)
  mailbox : (s'.registry.mailbox.filter fun command => command.1 ≠ i)
    = s.registry.mailbox.filter fun command => command.1 ≠ i

/-- A step of the handler of the connection. -/
theorem sparesOthers_handler (s : Service) (i : Nat) : SparesOthers i s (s.apply (.handler i)) := by
  rcases s.apply_handler i with heq | ⟨effort, hstep⟩
  · rw [heq]
    exact ⟨fun _ _ => rfl, fun _ _ => Iff.rfl, rfl⟩
  rcases stepHandler_cases hstep with
    ⟨c, session, next, -, -, -, heq⟩ | ⟨c, r, next, -, -, -, heq⟩
  · have hothers (k : Nat) (hk : k ≠ i) :
        (s.afterSession i c.id next).connections[k]? = s.connections[k]? := by
      rw [afterSession_connections, getElem?_modifyConnection, if_neg (Ne.symm hk)]
    rw [heq]
    unfold afterSession at hothers ⊢
    -- The command that it posts is its own.
    have hpost (command : RegistryCommand) :
        ((s.registry.mailbox ++ [(i, command)]).filter fun command => command.1 ≠ i)
          = s.registry.mailbox.filter fun command => command.1 ≠ i := by
      rw [List.filter_append, List.filter_cons_of_neg (by simp), List.filter_nil, List.append_nil]
    cases herrand : next.errand with
    | none =>
      rw [herrand] at hothers
      exact ⟨hothers, fun _ _ => Iff.rfl, rfl⟩
    | some errand =>
      rw [herrand] at hothers
      cases errand with
      | register | deregister => exact ⟨hothers, fun _ _ => Iff.rfl, hpost _⟩
      | submit => exact ⟨hothers, fun _ _ => Iff.rfl, rfl⟩
  · rw [heq]
    refine ⟨fun k hk => ?_, fun _ _ => Iff.rfl, rfl⟩
    rw [getElem?_modifyConnection, if_neg (Ne.symm hk)]

/-- A step of the worker while it writes to the connection. -/
theorem sparesOthers_worker {ticket : Nat} (hticket : s.worker.ticketOn? i = some ticket) :
    SparesOthers i s (s.apply .worker) := by
  obtain ⟨request, outcome, hphase, rfl⟩ := Worker.replying_of_ticketOn? hticket
  rcases s.apply_worker with ⟨heq, -⟩ | ⟨s', heq, hstep⟩ <;> rw [heq]
  · exact ⟨fun _ _ => rfl, fun _ _ => Iff.rfl, rfl⟩
  cases hstep with
  | take hother | skip hother | stop hother | answer hother => cases hphase.symm.trans hother
  | write hother | deliver hother | fail hother =>
    cases hphase.symm.trans hother
    refine ⟨fun k hk => ?_, fun _ _ => Iff.rfl, rfl⟩
    exact (getElem?_modifyConnection ..).trans (if_neg (Ne.symm hk))

/-- The registry carries out a command of the connection. -/
theorem sparesOthers_registry (hreach : Reachable limits queueCapacity s)
    {command : RegistryCommand} {mailbox : List (Nat × RegistryCommand)}
    (hmailbox : s.registry.mailbox = (i, command) :: mailbox) :
    SparesOthers i s (s.apply .registry) := by
  have happly : s.apply .registry = s.answer i (s.registry.table.handle command).1 mailbox
      (s.registry.table.handle command).2 := by
    simp only [apply, stepRegistry, hmailbox]
    rfl
  have hothers (k : Nat) (hk : k ≠ i) :
      (s.apply .registry).connections[k]? = s.connections[k]? := by
    rw [happly, answer, modifySession, getElem?_modifyConnection, if_neg (Ne.symm hk)]
  -- The registry runs, and its entries are the names that sessions hold.
  have hruns := runs_of_mailbox hreach hmailbox
  have hruns' : (s.apply .registry).registry.runs = true :=
    ((s.frame_apply .registry).runs (by simp)).trans hruns
  have hbefore := agreement_of_reachable hreach hruns
  have hafter := agreement_of_reachable (hreach.move .registry) hruns'
  refine ⟨hothers, ?_, ?_⟩
  · rintro ⟨name, owner⟩ hother
    rw [hbefore.entry_iff, hafter.entry_iff]
    refine exists_congr fun k => ?_
    refine and_congr_left fun howner => ?_
    have hk : k ≠ i := by
      rintro rfl
      rw [howner] at hother
      exact hother rfl
    rw [held?, held?, session?, session?, hothers k hk]
  · rw [happly, hmailbox, List.filter_cons_of_neg (by simp)]
    rfl

/-- **It spares the others.** Whenever a connection gets on, all others are spared. -/
theorem sparesOthers_of_isStepFor (hreach : Reachable limits queueCapacity s)
    (hm : IsStepFor i s m) : SparesOthers i s (s.apply m) := by
  rcases hm with rfl | ⟨rfl, command, mailbox, hmailbox⟩
  · exact s.sparesOthers_handler i
  · exact sparesOthers_registry hreach hmailbox

end Service

end Reckoner
