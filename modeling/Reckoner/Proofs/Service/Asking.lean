import Reckoner.Proofs.Service.Rejection

/-!
# What a session waits for it has asked for

A session that waits for the registry has a command in its mailbox, as long as the registry runs.
The registry carries out one command after the other, so the answer comes.

* `Service.mailbox_of_other` — the others leave the command of a session where it is, or bring it
  nearer to the front.
* `Service.session?_of_carriedOut` — what becomes of the session when it is carried out.
* `Service.Asked`, `Service.asked_of_reachable` — no command is lost.
-/

namespace Reckoner

/-- The session waits for an answer of the registry. -/
def Session.awaitsRegistry (s : Session) : Bool :=
  match s.phase with
  | .joining _ | .deregistering _ => true
  | _ => false

/-- It waits only for what it has asked. -/
theorem Session.Transition.command_of_awaits {o : Outlook} {s : Session} {out : Channel}
    {next : SessionStep} (h : s.Transition o out next)
    (hawaits : next.session.awaitsRegistry = true) (i : Nat) :
    ∃ command, next.errand.bind (Errand.command? i) = some command := by
  cases h with
  | ask | giveBack => exact ⟨_, rfl⟩
  | gather hphase | write hphase | shut hphase => simp [awaitsRegistry, hphase] at hawaits
  | join | deny =>
    cases hbroken : out.broken <;> simp [awaitsRegistry, phaseOfReply, hbroken] at hawaits
  | skip | giveBackLost | signOff =>
    cases hbroken : out.broken <;> simp [awaitsRegistry, phaseOfClose, hbroken] at hawaits
  | _ => cases hawaits

namespace Service

variable {s : Service} {m : Move} {i : Nat} {session : Session} {limits : SessionLimits}
  {queueCapacity : Nat}

/-! ### The mailbox -/

/-- What a handler posts comes behind all other commands. -/
theorem mailbox_of_handler (s : Service) (k : Nat) : ∃ posted,
    (s.apply (.handler k)).registry.mailbox = s.registry.mailbox ++ posted := by
  rcases s.apply_handler k with heq | ⟨effort, hstep⟩
  · exact ⟨[], by rw [heq, List.append_nil]⟩
  rcases stepHandler_cases hstep with
    ⟨c, session, next, -, -, -, heq⟩ | ⟨c, r, next, -, -, -, heq⟩ <;> rw [heq]
  · unfold afterSession
    cases next.errand with
    | none => exact ⟨[], (List.append_nil _).symm⟩
    | some errand =>
      cases errand with
      | register | deregister => exact ⟨[_], rfl⟩
      | submit => exact ⟨[], (List.append_nil _).symm⟩
  · exact ⟨[], (List.append_nil _).symm⟩

/-- Others post their commands behind, and only the first is carried out. -/
theorem mailbox_of_other (hm : ¬ IsStepFor i s m) (hkill : m ≠ .killRegistry) :
    (∃ posted, (s.apply m).registry.mailbox = s.registry.mailbox ++ posted) ∨
      ∃ command, command.1 ≠ i ∧
        s.registry.mailbox = command :: (s.apply m).registry.mailbox := by
  by_cases hhandler : ∃ k, m = .handler k
  · obtain ⟨k, rfl⟩ := hhandler
    exact .inl (s.mailbox_of_handler k)
  by_cases hregistry : m = .registry
  · subst hregistry
    rcases s.apply_registry with heq | ⟨effort, hstep⟩
    · exact .inl ⟨[], by rw [heq, List.append_nil]⟩
    obtain ⟨source, command, mailbox, hmailbox, heq⟩ := stepRegistry_cases hstep
    -- If the first command were its own, this would be a step for it.
    refine .inr ⟨(source, command), ?_, by rw [heq, hmailbox]; rfl⟩
    rintro rfl
    exact hm (.inr ⟨rfl, command, mailbox, hmailbox⟩)
  · rw [registry_of_other (fun k hk => hhandler ⟨k, hk⟩) hregistry hkill]
    exact .inl ⟨[], (List.append_nil _).symm⟩

/-- The answer of the registry is what a session waits for. -/
theorem hear_of_pending {command : RegistryCommand}
    (h : session.pending? i = some command) (table : Registry) :
    ∃ phase, session.hear (table.handle command).2 = { session with phase } ∧
      ((∃ name free, session.phase = .joining name ∧ phase = .joinAnswered name free) ∨
        ∃ e, session.phase = .deregistering e ∧ phase = .deregistered e) := by
  rcases Session.pending?_cases h with ⟨name, owner, rfl⟩ | ⟨name, number, rfl⟩
  · obtain ⟨-, hphase⟩ := Session.pending?_register h
    simp only [Registry.handle]
    cases table.register name owner with
    | ok => exact ⟨_, by simp only [Session.hear, hphase], .inl ⟨name, true, hphase, rfl⟩⟩
    | error => exact ⟨_, by simp only [Session.hear, hphase], .inl ⟨name, false, hphase, rfl⟩⟩
  · obtain ⟨-, -, e, hphase⟩ := Session.pending?_deregister h
    simp only [Registry.handle]
    cases table.deregister name number with
    | none | some => exact ⟨_, by simp only [Session.hear, hphase], .inr ⟨e, hphase, rfl⟩⟩

/-- The registry carries out the command that a session waits for. -/
theorem session?_of_carriedOut (hreach : Reachable limits queueCapacity s)
    (hsession : s.session? i = some session) {command : RegistryCommand}
    {mailbox : List (Nat × RegistryCommand)}
    (hmailbox : s.registry.mailbox = (i, command) :: mailbox) :
    ∃ phase, (s.apply .registry).session? i = some { session with phase } ∧
      ((∃ name free, session.phase = .joining name ∧ phase = .joinAnswered name free) ∨
        ∃ e, session.phase = .deregistering e ∧ phase = .deregistered e) := by
  have hagree := agreement_of_reachable hreach (runs_of_mailbox hreach hmailbox)
  have hpending := hagree.pending (by rw [hmailbox]; exact List.mem_cons_self)
  rw [pending?, hsession, Option.bind_some] at hpending
  obtain ⟨phase, hheard, hcases⟩ := hear_of_pending hpending s.registry.table
  refine ⟨phase, ?_, hcases⟩
  have happly : s.apply .registry = s.answer i (s.registry.table.handle command).1 mailbox
      (s.registry.table.handle command).2 := by
    simp only [apply, stepRegistry, hmailbox]
    rfl
  rw [happly, answer, session?_modifySession, if_pos rfl, ← hheard]
  exact congrArg (Option.map _) hsession

/-- If the session of the connection waits for the registry, it has a command there. -/
def Asked (s : Service) (i : Nat) : Prop :=
  ∀ session, s.session? i = some session → session.awaitsRegistry = true →
    ∃ command, (i, command) ∈ s.registry.mailbox

/-- What it waits for after a step of its own it has just posted. -/
theorem Asked.handler (h : s.Asked i)
    (hnumbered : ∀ {c}, s.connections[i]? = some c → c.id = i + 1) :
    (s.apply (.handler i)).Asked i := by
  intro session hsession hawaits
  rcases s.apply_handler i with heq | ⟨effort, hstep⟩
  · rw [heq] at hsession ⊢
    exact h session hsession hawaits
  rcases stepHandler_cases hstep with
    ⟨c, before, next, hc, hhandler, htransition, heq⟩ | ⟨c, r, next, hc, hhandler, -, heq⟩
  · rw [heq, session?_afterSession hc, if_pos rfl] at hsession
    cases hsession
    obtain ⟨command, hcommand⟩ := htransition.command_of_awaits hawaits i
    rw [heq, hnumbered hc, afterSession_registry, hcommand]
    exact ⟨command, List.mem_append_right _ List.mem_cons_self⟩
  · rw [heq, session?_modifyConnection, if_pos rfl, hc] at hsession
    cases hsession

/-- Once its command is carried out it waits no more. -/
theorem asked_of_carriedOut (hreach : Reachable limits queueCapacity s) {command : RegistryCommand}
    {mailbox : List (Nat × RegistryCommand)}
    (hmailbox : s.registry.mailbox = (i, command) :: mailbox) : (s.apply .registry).Asked i := by
  intro session hsession hawaits
  have hagree := agreement_of_reachable hreach (runs_of_mailbox hreach hmailbox)
  obtain ⟨before, hbefore, -⟩ := Option.bind_eq_some_iff.mp
    (hagree.pending (by rw [hmailbox]; exact List.mem_cons_self))
  obtain ⟨phase, hafter, hcases⟩ := session?_of_carriedOut hreach hbefore hmailbox
  cases hsession.symm.trans hafter
  rcases hcases with ⟨name, free, -, rfl⟩ | ⟨e, -, rfl⟩ <;> cases hawaits

/-- The others leave its command where it is. -/
theorem Asked.other (h : s.Asked i) (hown : ¬ IsStepFor i s m) (hkill : m ≠ .killRegistry) :
    (s.apply m).Asked i := by
  intro session hsession hawaits
  obtain ⟨command, hmem⟩ : ∃ command, (i, command) ∈ s.registry.mailbox := by
    cases hthere : s.session? i with
    | some before =>
      obtain ⟨after, hsame, -, -, -, hphase⟩ := same_of_other hthere hown
      cases hsession.symm.trans hsame
      refine h before hthere ?_
      rwa [Session.awaitsRegistry, ← hphase]
    | none =>
      -- It begins with this move, and has asked for nothing yet.
      obtain ⟨peer, capacity, timeout, rfl, hheld, rfl⟩ := connect_of_session hthere hsession
      rw [apply, if_pos hheld, connect, session?_addConnection, if_pos rfl] at hsession
      cases hsession
      cases hawaits
  refine ⟨command, ?_⟩
  rcases mailbox_of_other hown hkill with ⟨posted, heq⟩ | ⟨other, hother, heq⟩
  · rw [heq]
    exact List.mem_append_left _ hmem
  · rw [heq] at hmem
    refine (List.mem_cons.mp hmem).resolve_left ?_
    rintro rfl
    exact hother rfl

/-- **Commands are not lost.** While the registry runs, a session that waits for it has a command
    there. -/
theorem asked_of_reachable (h : Reachable limits queueCapacity s) (hruns : s.registry.runs = true) :
    s.Asked i := by
  induction h with
  | start => exact fun _ hsession => nomatch hsession
  | @move s m hreach ih =>
    have hbefore := runs_of_apply m hruns
    by_cases hown : IsStepFor i s m
    · rcases hown with rfl | ⟨rfl, carried, mailbox, hmailbox⟩
      · exact (ih hbefore).handler (agreement_of_reachable hreach hbefore).numbered
      · exact asked_of_carriedOut hreach hmailbox
    · refine (ih hbefore).other hown ?_
      rintro rfl
      cases hruns

end Service

end Reckoner
