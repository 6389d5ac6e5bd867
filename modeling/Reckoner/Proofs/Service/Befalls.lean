import Reckoner.Proofs.Service.Carrying
import Reckoner.Proofs.Service.Conversation
import Reckoner.Proofs.Service.Rejection

/-!
# What befalls a session

One move does little to any one session.  Here is all of it, whatever moves there are: the worker
may be ended by force, and requests may come from outside.

* `Service.Befalls` — what a move does to a session and to its output.
* `Service.befalls_of_apply` — it does nothing else.
* `Service.Befalls.broken` — an output that is broken stays so.
* `Service.befalls_induction` — what holds of a session in every state that a service can get into.
* `Service.ClosesAsShut` — only a session that is shutting its output has a job that closes it.
-/

namespace Reckoner

namespace Service

variable {s : Service} {m : Move} {i k : Nat} {session session' : Session} {out out' : Channel}

/-- **What befalls a session.** The last two indices are the session and its output after the
    move. -/
inductive Befalls (s : Service) (i : Nat) (session : Session) (out : Channel) :
    Move → Session → Channel → Prop where
  /-- The session takes a step. -/
  | step {next : SessionStep} (hstep : session.Transition s.outlook out next) :
      Befalls s i session out (.handler i) next.session next.output
  /-- The worker starts a reply to the client. -/
  | reply (line : Bytes) : Befalls s i session out .worker session (out.startLine line).1
  /-- The worker carries on with it. -/
  | carryOn {ticket : Nat} (hticket : s.worker.ticketOn? i = some ticket) :
      Befalls s i session out .worker session (out.poll s.clock ticket).channel
  /-- The worker is ended by force while it writes to the client. -/
  | giveUp {ticket : Nat} (hticket : s.worker.ticketOn? i = some ticket) :
      Befalls s i session out .killWorker session (out.abandon ticket)
  /-- The registry answers the session. -/
  | hear (reply : RegistryReply) : Befalls s i session out .registry (session.hear reply) out
  /-- Bytes come from the client. -/
  | arrive (chunk : Bytes) : Befalls s i session out (.arrive i chunk)
      { session with input := session.input.arrive chunk } out
  /-- The input ends. -/
  | finish (ending : InputEnd) : Befalls s i session out (.finish i ending)
      { session with input := session.input.finish ending } out
  /-- The client reads, or stops to do so. -/
  | pipe {m : Move} (pipe : Pipe) : Befalls s i session out m session { out with pipe }
  /-- Nothing. -/
  | none {m : Move} : Befalls s i session out m session out

/-- The handler of a session takes its step, or has to wait. -/
theorem handler_of_has (h : s.Has i session out) :
    session.step s.outlook out = none ∧ s.apply (.handler i) = s ∨
      ∃ next, session.step s.outlook out = some next ∧
        (s.apply (.handler i)).Has i next.session next.output := by
  obtain ⟨c, hc, hhandler, rfl⟩ := h
  cases hstep : session.step s.outlook c.output with
  | none =>
    refine .inl ⟨rfl, ?_⟩
    rw [apply, stepHandler_session hc hhandler, hstep]
    rfl
  | some next =>
    refine .inr ⟨next, rfl, ?_⟩
    rw [apply_of_step hc hhandler hstep]
    refine ⟨{ c with output := next.output, handler := .session next.session }, ?_, rfl, rfl⟩
    rw [afterSession_connections, getElem?_modifyConnection, if_pos rfl, hc]
    rfl

/-- **Nothing else befalls it.** -/
theorem befalls_of_apply (h : s.Has i session out) (m : Move) : ∃ session' out',
    (s.apply m).Has i session' out' ∧ s.Befalls i session out m session' out' := by
  obtain ⟨c, hc, hhandler, rfl⟩ := h
  obtain ⟨c', hc', hbecomes⟩ := exists_of_apply hc m
  cases hbecomes with
  | same => exact ⟨_, _, ⟨_, hc', hhandler, rfl⟩, .none⟩
  | session hother hstep =>
    cases hhandler.symm.trans hother
    exact ⟨_, _, ⟨_, hc', rfl, rfl⟩, .step hstep⟩
  | refusal hother | release hother => cases hhandler.symm.trans hother
  | hear hother reply =>
    cases hhandler.symm.trans hother
    exact ⟨_, _, ⟨_, hc', rfl, rfl⟩, .hear reply⟩
  | arrive hother chunk =>
    cases hhandler.symm.trans hother
    exact ⟨_, _, ⟨_, hc', rfl, rfl⟩, .arrive chunk⟩
  | finish hother ending =>
    cases hhandler.symm.trans hother
    exact ⟨_, _, ⟨_, hc', rfl, rfl⟩, .finish ending⟩
  | pipe => exact ⟨_, _, ⟨_, hc', hhandler, rfl⟩, .pipe _⟩
  | reply => exact ⟨_, _, ⟨_, hc', hhandler, rfl⟩, .reply _⟩
  | carryOn hticket => exact ⟨_, _, ⟨_, hc', hhandler, rfl⟩, .carryOn hticket⟩
  | giveUp hticket => exact ⟨_, _, ⟨_, hc', hhandler, rfl⟩, .giveUp hticket⟩

/-! ### Broken outputs -/

/-- **Broken for good.** An output that is broken stays so. -/
theorem Befalls.broken (h : s.Befalls i session out m session' out') (hbroken : out.broken = true) :
    out'.broken = true := by
  cases h with
  | step hstep => exact hstep.broken hbroken
  | carryOn => exact Channel.broken_of_poll hbroken _ _
  | reply | giveUp | hear | arrive | finish | pipe | none => exact hbroken

/-! ### Who closes an output -/

/-- A job that closes the output is that of a session that is shutting it. -/
def ClosesAsShut (session : Session) (out : Channel) : Prop :=
  ∀ job ∈ out.jobs, job.work.closes = true → ∃ e, session.phase = .shutting job.ticket e

theorem Befalls.closesAsShut (h : s.Befalls i session out m session' out')
    (horderly : out.Orderly) (hcloses : ClosesAsShut session out) :
    ClosesAsShut session' out' := by
  cases h with
  | step hstep => exact closing_of_writes hstep.writes horderly hcloses
  | reply =>
    intro job hjob hcloser
    rcases List.mem_append.mp hjob with hjob | hjob
    · exact hcloses job hjob hcloser
    · rw [List.mem_singleton.mp hjob] at hcloser
      cases hcloser
  | carryOn =>
    intro job hjob hcloser
    obtain ⟨before, hbefore, hticket, hkind⟩ := Channel.mem_of_poll hjob
    rw [← hticket]
    exact hcloses before hbefore (hkind.trans hcloser)
  | giveUp => exact fun job hjob => hcloses job (List.mem_of_mem_filter hjob)
  | hear reply =>
    intro job hjob hcloser
    obtain ⟨e, hphase⟩ := hcloses job hjob hcloser
    exact ⟨e, by simp [Session.hear, hphase]⟩
  | arrive | finish | pipe | none => exact hcloses

/-- **What a session keeps.** What holds of a session and its output when it begins, and is kept
    by whatever can befall it, holds in every state that a service can get into. -/
theorem befalls_induction {limits : SessionLimits} {queueCapacity : Nat}
    {P : Service → Session → Channel → Prop}
    (hbegins : ∀ {s : Service} {peer : String} (capacity timeout : Nat),
      P (s.apply (.connect peer capacity timeout)) { peer, phase := .reading s.clock }
        (.create capacity timeout))
    (hkept : ∀ {s : Service} {m : Move} {session session' : Session} {out out' : Channel},
      Reachable limits queueCapacity s → s.Has i session out →
      s.Befalls i session out m session' out' → P s session out → P (s.apply m) session' out')
    (h : Reachable limits queueCapacity s) (hhas : s.Has i session out) : P s session out := by
  induction h generalizing session out with
  | start =>
    obtain ⟨c, hc, -⟩ := hhas
    cases hc
  | @move s m hreach ih =>
    -- The session was there before the move, or it begins with it.
    cases hbefore : s.session? i with
    | some before =>
      obtain ⟨out'', hthere⟩ := has_of_session? hbefore
      obtain ⟨session', out', hafter, hbefalls⟩ := befalls_of_apply hthere m
      obtain ⟨rfl, rfl⟩ := hafter.unique hhas
      exact hkept hreach hthere hbefalls (ih hthere)
    | none =>
      obtain ⟨peer, capacity, timeout, rfl, hheld, rfl⟩ :=
        connect_of_session hbefore (has_iff.mp hhas).1
      obtain ⟨c, hc, hhandler, rfl⟩ := hhas
      rw [apply, if_pos hheld, connect, getElem?_addConnection, if_pos rfl] at hc
      cases hc
      cases hhandler
      exact hbegins capacity timeout

theorem closesAsShut_of_reachable {limits : SessionLimits} {queueCapacity : Nat}
    (h : Reachable limits queueCapacity s) (hhas : s.Has i session out) :
    ClosesAsShut session out :=
  befalls_induction (P := fun _ => ClosesAsShut) (fun _ _ => nofun)
    (fun hreach hhas hbefalls => hbefalls.closesAsShut
      ((sharing_of_reachable hreach).orderly (has_iff.mp hhas).2)) h hhas

end Service

end Reckoner
