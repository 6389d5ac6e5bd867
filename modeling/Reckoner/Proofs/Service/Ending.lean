import Reckoner.Proofs.Service.Asking
import Reckoner.Proofs.Service.Drain

/-!
# Handlers come to their end

To refuse a connection takes a few steps, and so does a session that has no line to read any more,
because the service shuts down or its output is broken.  All that such a handler waits for is its
turn on the output, room in the pipe, the time limit of the job that has the turn, and the registry.

* `Service.WindsUp` — a handler that has only to come to its end.
* `Service.toEnd` — how far it has to go.  No move takes it farther from its end.
* `Service.turnFor` — the move that brings it on, and the time from which on it does so.
* `Service.finishes_of_turns` — where these moves come, it comes to its end.
* `Service.finishes_of_fair`, `Service.all_finish_of_fair` — along every fair schedule it does, and
  so do all of them.
-/

namespace Reckoner

/-! ### Steps -/

/-- How far a session that reads no more has to go, by what it is doing. -/
def Session.toEnd (s : Session) : Nat :=
  -- A session that has asked for a name still gets its answer, and tells its client, before it
  -- looks for a line and finds that there is none to read.
  match s.phase with
  | .asking _ => 12
  | .joining _ => 11
  | .joinAnswered _ _ => 10
  | .answering _ _ => 9
  | .sending _ _ => 8
  | .reading _ => 7
  | .ending _ => 6
  | .returning _ => 5
  | .deregistering _ => 4
  | .deregistered _ => 3
  | .closing _ => 2
  | .shutting _ _ => 1
  | .finished _ => 0

/-- How far there is to go until a connection is refused. -/
def Refusal.toEnd : Refusal → Nat
  | fresh => 4
  | telling _ => 3
  | told => 2
  | shutting _ => 1
  | finished => 0

/-- How far whoever looks after a connection has to go. -/
def Handler.toEnd : Handler → Nat
  | session s => s.toEnd
  | refusal r => r.toEnd
  | outside | released => 0

/-- Whoever looks after a connection waits for an answer of the registry. -/
def Handler.awaitsRegistry : Handler → Bool
  | session s => s.awaitsRegistry
  | refusal _ | outside | released => false

/-- A job has its turn, and is not done by the operation that it takes. -/
def Channel.WritesOn (clock : Nat) (ticket? : Option Nat) (c c' : Channel) : Prop :=
  ∃ ticket, ticket? = some ticket ∧ c.isReady clock ticket = true ∧
    (c.poll clock ticket).progress = none ∧ c' = (c.poll clock ticket).channel

/-- **Each step leads nearer to the end** of a session that reads no more, or its job gets on. -/
theorem Session.Transition.toEnd_lt {o : Outlook} {s : Session} {out : Channel} {next : SessionStep}
    (h : s.Transition o out next) (hends : o.cancelled = true ∨ out.broken = true) :
    next.session.toEnd < s.toEnd ∨
      next.session = s ∧ out.WritesOn o.clock s.ticket? next.output := by
  -- Before it reads it looks whether it has to end.
  have hreads {input : Input} {pulled : Option Pulled} : ¬ s.Reads o out input pulled := by
    intro hreads
    rcases hends with hcancelled | hbroken
    · cases hcancelled.symm.trans hreads.cancelled
    · cases hbroken.symm.trans hreads.broken
  cases h with
  | gather _ hline | runOut _ hline | reject _ hline | want _ hline | request _ hline
  | requestLost _ hline | leave _ hline => exact absurd hline hreads
  | write hphase hready hprogress | shut hphase hready hprogress =>
    exact .inr ⟨rfl, ⟨_, by rw [ticket?, hphase], hready, hprogress, rfl⟩⟩
  | askLost hphase => rcases hphase with hphase | hphase <;> simp [toEnd, hphase]
  | join hphase | deny hphase =>
    left
    cases hbroken : out.broken <;> simp [toEnd, hphase, phaseOfReply, hbroken]
  | skip hphase | signOff hphase =>
    left
    cases hbroken : out.broken <;> simp [toEnd, hphase, phaseOfClose, hbroken]
  | giveBackLost hphase =>
    left
    rcases hphase with ⟨hphase, -⟩ | ⟨hphase, -⟩ <;> cases hbroken : out.broken <;>
      simp [toEnd, hphase, phaseOfClose, hbroken]
  | cancel hphase | notice hphase | expire hphase | ask hphase | answer hphase | writeFail hphase
  | readOn hphase | bidFarewell hphase | cleanUp hphase | giveBack hphase | close hphase
  | finish hphase => simp [toEnd, hphase]

namespace Refusal

variable {clock : Nat} {out : Channel} {next : RefusalStep}

theorem toEnd_lt_of_carryOn {ticket : Nat} {now : Refusal} {after : Channel → Refusal}
    (hticket : now.ticket? = some ticket) (hafter : ∀ c, (after c).toEnd < now.toEnd)
    (h : carryOn clock ticket now after out = some next) :
    next.refusal.toEnd < now.toEnd ∨
      next.refusal = now ∧ out.WritesOn clock now.ticket? next.output := by
  unfold carryOn at h
  split at h
  · rename_i hready
    cases h
    cases hprogress : (out.poll clock ticket).progress with
    | none => exact .inr ⟨rfl, ticket, hticket, hready, hprogress, rfl⟩
    | some result => exact .inl (hafter _)
  · cases h

/-- So does each step of refusing a connection. -/
theorem toEnd_lt {r : Refusal} (h : r.step clock out = some next) :
    next.refusal.toEnd < r.toEnd ∨
      next.refusal = r ∧ out.WritesOn clock r.ticket? next.output := by
  cases r with
  | fresh =>
    cases h
    left
    unfold tell
    split <;> simp [toEnd]
  | telling ticket =>
    refine toEnd_lt_of_carryOn rfl (fun c => ?_) h
    unfold afterTelling
    split <;> simp [toEnd]
  | told =>
    cases h
    exact .inl (Nat.lt_succ_self 1)
  | shutting ticket =>
    have h : carryOn clock ticket (.shutting ticket) (fun _ => .finished) out = some next := h
    exact toEnd_lt_of_carryOn rfl (fun _ => by simp [toEnd]) h
  | finished => cases h

end Refusal

namespace Service

variable {s s' : Service} {m : Move} {i : Nat} {c c' : Connection} {limits : SessionLimits}
  {queueCapacity n k : Nat} {schedule : Nat → Move}

/-! ### Who winds up -/

/-- **Winding up.** A handler that has only to come to its end: it refuses the connection, or it is
    a session that will read no more. -/
inductive WindsUp (s : Service) (c : Connection) : Prop where
  /-- The connection is refused. -/
  | refusal {r : Refusal} (hhandler : c.handler = .refusal r) : WindsUp s c
  /-- The session will find that the service shuts down, or that the output is broken. -/
  | session {session : Session} (hhandler : c.handler = .session session)
      (hends : s.cancelled = true ∨ c.output.broken = true) : WindsUp s c

/-- An output that is broken stays so. -/
theorem Becomes.broken (h : s.Becomes i c m c') (hbroken : c.output.broken = true) :
    c'.output.broken = true := by
  cases h with
  | session _ hstep => exact hstep.broken hbroken
  | refusal _ hstep => exact Refusal.broken_of_step hstep hbroken
  | carryOn => exact Channel.broken_of_poll hbroken _ _
  | same | hear | arrive | finish | release | pipe | reply | giveUp => exact hbroken

/-- **Whoever winds up** goes on to do so. -/
theorem Becomes.windsUp (h : s.Becomes i c m c') (hwinds : s.WindsUp c) :
    (s.apply m).WindsUp c' := by
  cases hwinds with
  | refusal hhandler =>
    cases h with
    | refusal => exact .refusal rfl
    | same | pipe | reply | carryOn | giveUp => exact .refusal hhandler
    | session hother | hear hother | arrive hother | finish hother | release hother =>
      cases hhandler.symm.trans hother
  | session hhandler hends =>
    have hends' : (s.apply m).cancelled = true ∨ c'.output.broken = true :=
      hends.imp (fun hcancelled => cancelled_apply hcancelled m) h.broken
    cases h with
    | session | hear | arrive | finish => exact .session rfl hends'
    | same | pipe | reply | carryOn | giveUp => exact .session hhandler hends'
    | refusal hother | release hother => cases hhandler.symm.trans hother

/-- Once the service shuts down, all handlers of its own wind up. -/
theorem windsUp_of_cancelled (hcancelled : s.cancelled = true)
    (hkind : c.handler.session?.isSome = true ∨ c.handler.refusal?.isSome = true) :
    s.WindsUp c := by
  cases hhandler : c.handler with
  | session => exact .session hhandler (.inl hcancelled)
  | refusal => exact .refusal hhandler
  | outside | released => simp [hhandler, Handler.session?, Handler.refusal?] at hkind

/-! ### How far there is to go -/

/-- How many commands are before that of the connection. -/
def place (s : Service) (i : Nat) : Nat :=
  s.registry.mailbox.findIdx fun command => command.1 = i

/-- How many commands there are until the registry answers the handler of the connection. -/
def queueUp (s : Service) (i : Nat) (c : Connection) : Nat :=
  if c.handler.awaitsRegistry && s.registry.runs then s.place i + 1 else 0

/-- What stands between the handler of a connection and its next step. -/
def standing (s : Service) (i : Nat) (c : Connection) : Nat ×ₗ Nat :=
  match c.handler.ticket? with
  | some ticket => c.output.remaining ticket
  | none => toLex (s.queueUp i c, 0)

/-- How far the handler of a connection has to go. -/
def toEnd (i : Nat) (s : Service) : Nat ×ₗ Nat ×ₗ Nat :=
  -- What it is doing counts most.  While it is at the same thing, jobs and commands before its own
  -- become fewer, and the first job has less to write.
  match s.connections[i]? with
  | some c => toLex (c.handler.toEnd, s.standing i c)
  | none => toLex (0, toLex (0, 0))

/-- The move that brings the handler of a connection on, and the time from which on it does so at
    the latest. -/
def turnOf (s : Service) (i : Nat) (c : Connection) : Move × Nat :=
  match c.handler.ticket?, c.output.jobs.head? with
  | some ticket, some job =>
    (if job.ticket = ticket then .handler i else .worker, job.deadline.getD 0)
  | _, _ => (if s.queueUp i c = 0 then .handler i else .registry, 0)

/-- Whose turn it is. -/
def turnFor (i : Nat) (s : Service) : Move × Nat :=
  match s.connections[i]? with
  | some c => s.turnOf i c
  | none => (.handler i, 0)

theorem toEnd_of_connection (hc : s.connections[i]? = some c) :
    s.toEnd i = toLex (c.handler.toEnd, s.standing i c) := by
  rw [toEnd, hc]

theorem turnFor_of_connection (hc : s.connections[i]? = some c) :
    s.turnFor i = s.turnOf i c := by
  rw [turnFor, hc]

theorem standing_of_ticket {ticket : Nat} (hticket : c.handler.ticket? = some ticket) :
    s.standing i c = c.output.remaining ticket := by
  simp only [standing, hticket]

theorem standing_of_none (hticket : c.handler.ticket? = none) :
    s.standing i c = toLex (s.queueUp i c, 0) := by
  simp only [standing, hticket]

theorem turnOf_of_none (hticket : c.handler.ticket? = none) :
    s.turnOf i c = (if s.queueUp i c = 0 then .handler i else .registry, 0) := by
  simp only [turnOf, hticket]

section Nearer

variable (hc : s.connections[i]? = some c) (hc' : s'.connections[i]? = some c')

include hc hc'

theorem toEnd_lt_of_handler (hless : c'.handler.toEnd < c.handler.toEnd) :
    s'.toEnd i < s.toEnd i := by
  rw [toEnd_of_connection hc, toEnd_of_connection hc', Prod.Lex.toLex_lt_toLex]
  exact .inl hless

/-- Nearer to the end by what is to be written. -/
theorem toEnd_lt_of_remaining (hsame : c'.handler.toEnd = c.handler.toEnd) {ticket : Nat}
    (hticket : c.handler.ticket? = some ticket) (hticket' : c'.handler.ticket? = some ticket)
    (hless : c'.output.remaining ticket < c.output.remaining ticket) : s'.toEnd i < s.toEnd i := by
  rw [toEnd_of_connection hc, toEnd_of_connection hc', Prod.Lex.toLex_lt_toLex,
    standing_of_ticket hticket, standing_of_ticket hticket']
  exact .inr ⟨hsame, hless⟩

/-- Nearer to the end by what the registry has to do. -/
theorem toEnd_lt_of_queueUp (hsame : c'.handler.toEnd = c.handler.toEnd)
    (hticket : c.handler.ticket? = none) (hticket' : c'.handler.ticket? = none)
    (hless : s'.queueUp i c' < s.queueUp i c) : s'.toEnd i < s.toEnd i := by
  rw [toEnd_of_connection hc, toEnd_of_connection hc', Prod.Lex.toLex_lt_toLex,
    standing_of_none hticket, standing_of_none hticket', Prod.Lex.toLex_lt_toLex]
  exact .inr ⟨hsame, .inl hless⟩

end Nearer

/-! ### What the handler does -/

/-- **The handler gets on**, whenever it takes a step. -/
theorem toEnd_of_step (hc : s.connections[i]? = some c) (hwinds : s.WindsUp c) {effort : Nat}
    (hstep : s.stepHandler i = some (s', effort)) : s'.toEnd i < s.toEnd i := by
  -- It is at the next thing, or at the same with less to write.
  have hgets {handler : Handler} {output : Channel}
      (hc' : s'.connections[i]? = some { c with output, handler })
      (hgets : handler.toEnd < c.handler.toEnd ∨
        handler = c.handler ∧ c.output.WritesOn s.clock c.handler.ticket? output) :
      s'.toEnd i < s.toEnd i := by
    rcases hgets with hless | ⟨rfl, ticket, hticket, hready, hprogress, rfl⟩
    · exact toEnd_lt_of_handler hc hc' hless
    · exact toEnd_lt_of_remaining hc hc' rfl hticket hticket
        (Channel.remaining_poll_lt hready (.inr hprogress))
  rcases stepHandler_cases hstep with
    ⟨before, session, next, hbefore, hhandler, htransition, rfl⟩ |
      ⟨before, r, next, hbefore, hhandler, hnext, rfl⟩ <;> cases hc.symm.trans hbefore
  · have hends : s.outlook.cancelled = true ∨ c.output.broken = true := by
      cases hwinds with
      | refusal hother => cases hhandler.symm.trans hother
      | session _ hends => exact hends
    have hc' : (s.afterSession i c.id next).connections[i]?
        = some { c with output := next.output, handler := .session next.session } := by
      rw [afterSession_connections, getElem?_modifyConnection, if_pos rfl, hc, Option.map_some]
    refine hgets hc' ?_
    rw [hhandler]
    exact (htransition.toEnd_lt hends).imp_right fun ⟨hsame, hwrites⟩ =>
      ⟨congrArg Handler.session hsame, hwrites⟩
  · refine hgets (by rw [getElem?_modifyConnection, if_pos rfl, hc, Option.map_some]) ?_
    rw [hhandler]
    exact (Refusal.toEnd_lt hnext).imp_right fun ⟨hsame, hwrites⟩ =>
      ⟨congrArg Handler.refusal hsame, hwrites⟩

/-- The registry answers the session. -/
theorem toEnd_of_carriedOut (hreach : Reachable limits queueCapacity s)
    (hc : s.connections[i]? = some c) {command : RegistryCommand}
    {mailbox : List (Nat × RegistryCommand)}
    (hmailbox : s.registry.mailbox = (i, command) :: mailbox) :
    (s.apply .registry).toEnd i < s.toEnd i := by
  have hagree := agreement_of_reachable hreach (runs_of_mailbox hreach hmailbox)
  obtain ⟨session, hsession, -⟩ := Option.bind_eq_some_iff.mp
    (hagree.pending (by rw [hmailbox]; exact List.mem_cons_self))
  obtain ⟨before, hbefore, hhandler⟩ := session?_eq_some hsession
  cases hc.symm.trans hbefore
  obtain ⟨phase, hheard, hcases⟩ := session?_of_carriedOut hreach hsession hmailbox
  obtain ⟨c', hc', hhandler'⟩ := session?_eq_some hheard
  refine toEnd_lt_of_handler hc hc' ?_
  rw [hhandler, hhandler']
  rcases hcases with ⟨name, free, hphase, rfl⟩ | ⟨e, hphase, rfl⟩ <;>
    simp [Handler.toEnd, Session.toEnd, hphase]

/-! ### What the others do -/

/-- What the others do leaves a handler at what it is doing. -/
theorem doing_of_other (hc : s.connections[i]? = some c) (hwinds : s.WindsUp c)
    (hc' : (s.apply m).connections[i]? = some c') (hbecomes : s.Becomes i c m c')
    (hown : ¬ IsStepFor i s m) :
    c'.handler.toEnd = c.handler.toEnd ∧ c'.handler.ticket? = c.handler.ticket? ∧
      c'.handler.awaitsRegistry = c.handler.awaitsRegistry := by
  cases hwinds with
  | refusal hhandler =>
    cases hbecomes with
    | refusal => exact absurd (.inl rfl) hown
    | same | pipe | reply | carryOn | giveUp => exact ⟨rfl, rfl, rfl⟩
    | session hother | hear hother | arrive hother | finish hother | release hother =>
      cases hhandler.symm.trans hother
  | session hhandler =>
    obtain ⟨after, hsame, -, -, -, hphase⟩ := same_of_other (session?_of_handler hc hhandler) hown
    obtain ⟨before, hbefore, hhandler'⟩ := session?_eq_some hsame
    cases hc'.symm.trans hbefore
    rw [hhandler, hhandler']
    simp only [Handler.toEnd, Handler.ticket?, Handler.awaitsRegistry, Session.toEnd,
      Session.ticket?, Session.awaitsRegistry, hphase, and_self]

/-- They do not push in on the output. -/
theorem Becomes.headway (h : s.Becomes i c m c') (hs : s.Sharing)
    (hc : s.connections[i]? = some c) (hown : m ≠ .handler i) {ticket : Nat}
    (hticket : c.handler.ticket? = some ticket) : Channel.Headway ticket c.output c'.output := by
  have hshared := hs.shared hc
  have hother {other : Nat} (hworker : s.worker.ticketOn? i = some other) : other ≠ ticket := by
    rintro rfl
    exact hshared.apart hticket hworker
  cases h with
  | session | refusal => exact absurd rfl hown
  | reply => exact Channel.headway_start (hshared.left hticket) _
  | carryOn hworker hready => exact .inl (Channel.remaining_poll_lt hready (.inl (hother hworker)))
  | giveUp hworker => exact Channel.headway_abandon (hshared.left hticket) (hother hworker)
  | same | hear | arrive | finish | release | pipe => exact Channel.headway_of_same rfl rfl

/-- Nor in the mailbox of the registry. -/
theorem place_le_of_other (hown : ¬ IsStepFor i s m) (hkill : m ≠ .killRegistry)
    (hasked : ∃ command, (i, command) ∈ s.registry.mailbox) : (s.apply m).place i ≤ s.place i := by
  obtain ⟨command, hmem⟩ := hasked
  rcases mailbox_of_other hown hkill with ⟨posted, heq⟩ | ⟨other, hother, heq⟩
  · rw [place, place, heq, List.findIdx_append, if_pos]
    exact List.findIdx_lt_length_of_exists ⟨_, hmem, by simp⟩
  · rw [place, place, heq, List.findIdx_cons, decide_eq_false hother]
    exact Nat.le_succ _

theorem asked_of_awaits (hreach : Reachable limits queueCapacity s)
    (hc : s.connections[i]? = some c) (hawaits : c.handler.awaitsRegistry = true)
    (hruns : s.registry.runs = true) : ∃ command, (i, command) ∈ s.registry.mailbox := by
  cases hhandler : c.handler with
  | session session =>
    rw [hhandler] at hawaits
    exact asked_of_reachable hreach hruns session (session?_of_handler hc hhandler) hawaits
  | refusal | outside | released =>
    rw [hhandler] at hawaits
    cases hawaits

theorem queueUp_le_of_other (hreach : Reachable limits queueCapacity s)
    (hc : s.connections[i]? = some c)
    (hawaits : c'.handler.awaitsRegistry = c.handler.awaitsRegistry) (hown : ¬ IsStepFor i s m) :
    (s.apply m).queueUp i c' ≤ s.queueUp i c := by
  unfold queueUp
  rw [hawaits]
  by_cases hwaits : (c.handler.awaitsRegistry && (s.apply m).registry.runs) = true
  · obtain ⟨hawaits, hruns⟩ := Bool.and_eq_true_iff.mp hwaits
    have hbefore := runs_of_apply m hruns
    have hkill : m ≠ .killRegistry := by
      rintro rfl
      cases hruns
    rw [hawaits, hruns, hbefore]
    exact Nat.succ_le_succ
      (place_le_of_other hown hkill (asked_of_awaits hreach hc hawaits hbefore))
  · rw [if_neg hwaits]
    exact Nat.zero_le _

/-- The others bring it nearer to its end, or leave it where it is. -/
theorem toEnd_of_other (hreach : Reachable limits queueCapacity s)
    (hc : s.connections[i]? = some c) (hwinds : s.WindsUp c) (hown : ¬ IsStepFor i s m) :
    (s.apply m).toEnd i < s.toEnd i ∨
      (s.apply m).toEnd i = s.toEnd i ∧ (s.apply m).turnFor i = s.turnFor i := by
  obtain ⟨c', hc', hbecomes⟩ := exists_of_apply hc m
  obtain ⟨hend, hsame, hawaits⟩ := doing_of_other hc hwinds hc' hbecomes hown
  have hs := sharing_of_reachable hreach
  cases hticket : c.handler.ticket? with
  | some ticket =>
    have hticket' := hsame.trans hticket
    have hhandler : m ≠ .handler i := fun hm => hown (.inl hm)
    rcases hbecomes.headway hs hc hhandler hticket with hless | ⟨hequal, hhead⟩
    · exact .inl (toEnd_lt_of_remaining hc hc' hend hticket hticket' hless)
    · -- The first job is that of before, so it is the same one's turn.
      obtain ⟨mine, hmine, -⟩ := (hs.shared hc).left hticket
      obtain ⟨job, others, hjobs⟩ := List.exists_cons_of_ne_nil (List.ne_nil_of_mem hmine)
      have hfirst : c.output.jobs.head? = some job := by rw [hjobs, List.head?_cons]
      right
      rw [toEnd_of_connection hc, toEnd_of_connection hc', standing_of_ticket hticket,
        standing_of_ticket hticket', hend, hequal, turnFor_of_connection hc,
        turnFor_of_connection hc']
      exact ⟨rfl, by simp only [turnOf, hticket, hticket', hhead, hfirst]⟩
  | none =>
    have hticket' := hsame.trans hticket
    rcases (queueUp_le_of_other hreach hc hawaits hown).lt_or_eq with hless | hequal
    · exact .inl (toEnd_lt_of_queueUp hc hc' hend hticket hticket' hless)
    · right
      rw [toEnd_of_connection hc, toEnd_of_connection hc', standing_of_none hticket,
        standing_of_none hticket', hend, hequal, turnFor_of_connection hc,
        turnFor_of_connection hc', turnOf_of_none hticket, turnOf_of_none hticket', hequal]
      exact ⟨rfl, rfl⟩

/-- **Nothing takes it back.** A move brings the handler of a connection nearer to its end, or it is
    as near as before, and then what brings it on is the same. -/
theorem toEnd_apply (hreach : Reachable limits queueCapacity s) (hc : s.connections[i]? = some c)
    (hwinds : s.WindsUp c) (m : Move) :
    (s.apply m).toEnd i < s.toEnd i ∨
      (s.apply m).toEnd i = s.toEnd i ∧ (s.apply m).turnFor i = s.turnFor i := by
  by_cases hown : IsStepFor i s m
  · rcases hown with rfl | ⟨rfl, command, mailbox, hmailbox⟩
    · rcases s.apply_handler i with heq | ⟨effort, hstep⟩
      · rw [heq]
        exact .inr ⟨rfl, rfl⟩
      · exact .inl (toEnd_of_step hc hwinds hstep)
    · exact .inl (toEnd_of_carriedOut hreach hc hmailbox)
  · exact toEnd_of_other hreach hc hwinds hown

/-! ### What brings it on -/

/-- A session that winds up takes a step where nobody comes before it. -/
theorem step_of_queueUp {session : Session} (hhandler : c.handler = .session session)
    (hends : s.cancelled = true ∨ c.output.broken = true) (hgoes : session.hasFinished = false)
    (hticket : session.ticket? = none) (hqueue : s.queueUp i c = 0) :
    session.step s.outlook c.output ≠ none := by
  cases hphase : session.phase with
  | reading since =>
    simp only [Session.step, hphase, Session.read, outlook]
    rcases hends with hcancelled | hbroken
    · simp [hcancelled]
    · rw [if_pos hbroken]
      split <;> simp
  | joining | deregistering =>
    have hgone : s.registry.runs = false := by
      simpa [queueUp, hhandler, Handler.awaitsRegistry, Session.awaitsRegistry, hphase] using hqueue
    simp [Session.step, hphase, outlook, hgone]
  | sending | shutting => simp [Session.ticket?, hphase] at hticket
  | finished => simp [Session.hasFinished, hphase] at hgoes
  | asking | joinAnswered | answering | ending | returning | deregistered | closing =>
    simp [Session.step, hphase]

/-- A session whose job need not wait takes a step. -/
theorem step_of_ready {session : Session} {out : Channel} {ticket : Nat}
    (hticket : session.ticket? = some ticket) (hready : out.isReady s.clock ticket = true) :
    session.step s.outlook out ≠ none := by
  have hready : out.isReady s.outlook.clock ticket = true := hready
  unfold Session.ticket? at hticket
  split at hticket <;> cases hticket <;> rename_i hphase <;> simp [Session.step, hphase, hready]

/-- **A handler that need not wait** takes a step. -/
theorem stepHandler_of_free (hc : s.connections[i]? = some c) (hwinds : s.WindsUp c)
    (hgoes : c.handler.hasFinished = false)
    (hfree : (∃ ticket, c.handler.ticket? = some ticket ∧ c.output.isReady s.clock ticket = true) ∨
      c.handler.ticket? = none ∧ s.queueUp i c = 0) : s.stepHandler i ≠ none := by
  cases hwinds with
  | @session session hhandler hends =>
    rw [stepHandler_session hc hhandler, Ne, Option.map_eq_none_iff]
    rw [hhandler] at hgoes
    rcases hfree with ⟨ticket, hticket, hready⟩ | ⟨hticket, hqueue⟩ <;> rw [hhandler] at hticket
    · exact step_of_ready hticket hready
    · exact step_of_queueUp hhandler hends hgoes hticket hqueue
  | @refusal r hhandler =>
    rw [stepHandler_refusal hc hhandler, Ne, Option.map_eq_none_iff]
    rw [hhandler] at hgoes
    rcases hfree with ⟨ticket, hticket, hready⟩ | ⟨hticket, -⟩ <;> rw [hhandler] at hticket
    · obtain ⟨next, hnext, -⟩ := Refusal.step_of_ready hticket hready
      simp [hnext]
    · cases r with
      | fresh | told => simp [Refusal.step]
      | telling | shutting => cases hticket
      | finished => simp [Handler.hasFinished] at hgoes

theorem toEnd_of_free (hc : s.connections[i]? = some c) (hwinds : s.WindsUp c)
    (hgoes : c.handler.hasFinished = false)
    (hfree : (∃ ticket, c.handler.ticket? = some ticket ∧ c.output.isReady s.clock ticket = true) ∨
      c.handler.ticket? = none ∧ s.queueUp i c = 0) :
    (s.apply (.handler i)).toEnd i < s.toEnd i := by
  have hstep := stepHandler_of_free hc hwinds hgoes hfree
  obtain ⟨⟨s', effort⟩, hstep⟩ := Option.ne_none_iff_exists'.mp hstep
  have happly : s.apply (.handler i) = s' := by
    simp only [apply, hstep, Option.map_some, Option.getD_some]
  rw [happly]
  exact toEnd_of_step hc hwinds hstep

/-- The worker carries on with its line where it need not wait. -/
theorem connection_of_writes (hc : s.connections[i]? = some c) {ticket : Nat}
    (hworker : s.worker.ticketOn? i = some ticket)
    (hready : c.output.isReady s.clock ticket = true) :
    (s.apply .worker).connections[i]?
      = some { c with output := (c.output.poll s.clock ticket).channel } := by
  obtain ⟨request, outcome, hphase, rfl⟩ := Worker.replying_of_ticketOn? hworker
  have hout : s.output? request.connection = some c.output := by rw [output?, hc, Option.map_some]
  rcases s.apply_worker with ⟨-, hnone⟩ | ⟨s', heq, hstep⟩
  · exact absurd hnone (stepWorker_of_ready hphase hout hready)
  rw [heq]
  cases hstep with
  | take hother | skip hother | stop hother | answer hother => cases hphase.symm.trans hother
  | write hother houtput | deliver hother houtput | fail hother houtput =>
    cases hphase.symm.trans hother
    cases hout.symm.trans houtput
    refine (getElem?_modifyConnection ..).trans ?_
    rw [if_pos rfl, hc, Option.map_some]

/-- The registry gets the command of somebody else out of the way. -/
theorem toEnd_of_advanced (hc : s.connections[i]? = some c) (hwinds : s.WindsUp c)
    (hticket : c.handler.ticket? = none) (hqueue : s.queueUp i c ≠ 0)
    {source : Nat} {command : RegistryCommand} {mailbox : List (Nat × RegistryCommand)}
    (hmailbox : s.registry.mailbox = (source, command) :: mailbox) (hsource : source ≠ i) :
    (s.apply .registry).toEnd i < s.toEnd i := by
  have hown : ¬ IsStepFor i s .registry := by
    rintro (hhandler | ⟨-, command', mailbox', hmailbox'⟩)
    · cases hhandler
    · cases hmailbox.symm.trans hmailbox'
      exact hsource rfl
  obtain ⟨c', hc', hbecomes⟩ := exists_of_apply hc .registry
  obtain ⟨hend, hsame, hawaits⟩ := doing_of_other hc hwinds hc' hbecomes hown
  have hrest : (s.apply .registry).registry.mailbox = mailbox := by
    simp only [apply, stepRegistry, hmailbox]
    rfl
  have hplace : (s.apply .registry).place i < s.place i := by
    rw [place, place, hrest, hmailbox, List.findIdx_cons, decide_eq_false hsource]
    exact Nat.lt_succ_self _
  have hruns := (s.frame_apply .registry).runs (by simp)
  refine toEnd_lt_of_queueUp hc hc' hend hticket (hsame.trans hticket) ?_
  unfold queueUp at hqueue ⊢
  rw [hawaits, hruns]
  split
  · exact Nat.succ_lt_succ hplace
  · rename_i hnot
    rw [if_neg hnot] at hqueue
    exact absurd rfl hqueue

/-- One or the other is what the registry does next. -/
theorem toEnd_of_registry (hreach : Reachable limits queueCapacity s)
    (hc : s.connections[i]? = some c) (hwinds : s.WindsUp c)
    (hticket : c.handler.ticket? = none) (hqueue : s.queueUp i c ≠ 0) :
    (s.apply .registry).toEnd i < s.toEnd i := by
  obtain ⟨hawaits, hruns⟩ : c.handler.awaitsRegistry = true ∧ s.registry.runs = true := by
    simpa [queueUp] using hqueue
  obtain ⟨asked, hmem⟩ := asked_of_awaits hreach hc hawaits hruns
  obtain ⟨⟨source, command⟩, mailbox, hmailbox⟩ :=
    List.exists_cons_of_ne_nil (List.ne_nil_of_mem hmem)
  by_cases hsource : source = i
  · subst hsource
    exact toEnd_of_carriedOut hreach hc hmailbox
  · exact toEnd_of_advanced hc hwinds hticket hqueue hmailbox hsource

/-- **Its turn.** What brings the handler of a connection on does so, once its time has come. -/
theorem toEnd_turn (hreach : Reachable limits queueCapacity s) (hc : s.connections[i]? = some c)
    (hwinds : s.WindsUp c) (hgoes : c.handler.hasFinished = false)
    (htime : (s.turnFor i).2 ≤ s.clock) : (s.apply (s.turnFor i).1).toEnd i < s.toEnd i := by
  rw [turnFor_of_connection hc] at htime ⊢
  cases hticket : c.handler.ticket? with
  | some ticket =>
    -- It has a job on the output, so some job there has the turn.
    have hshared := (sharing_of_reachable hreach).shared hc
    obtain ⟨mine, hmine, -⟩ := hshared.left hticket
    obtain ⟨job, others, hjobs⟩ := List.exists_cons_of_ne_nil (List.ne_nil_of_mem hmine)
    have hturn : s.turnOf i c
        = (if job.ticket = ticket then .handler i else .worker, job.deadline.getD 0) := by
      simp only [turnOf, hticket, hjobs, List.head?_cons]
    have htime : job.deadline.getD 0 ≤ s.clock := by rwa [hturn] at htime
    -- That job need not wait for the pipe now that its time is up.
    have hready : c.output.isReady s.clock job.ticket = true := by
      simp [Channel.isReady, hjobs, htime]
    rw [hturn]
    by_cases hown : job.ticket = ticket
    · rw [if_pos hown]
      rw [hown] at hready
      exact toEnd_of_free hc hwinds hgoes (.inl ⟨ticket, hticket, hready⟩)
    · rw [if_neg hown]
      -- The output has two users, so the job is the worker's.
      have hworker : s.worker.ticketOn? i = some job.ticket := by
        refine (hshared.owner job (by rw [hjobs]; exact List.mem_cons_self)).resolve_left ?_
        rw [hticket]
        exact fun hsame => hown (Option.some.inj hsame).symm
      exact toEnd_lt_of_remaining hc (connection_of_writes hc hworker hready) rfl hticket hticket
        (Channel.remaining_poll_lt hready (.inl hown))
  | none =>
    rw [turnOf_of_none hticket]
    by_cases hqueue : s.queueUp i c = 0
    · rw [if_pos hqueue]
      exact toEnd_of_free hc hwinds hgoes (.inr ⟨hticket, hqueue⟩)
    · rw [if_neg hqueue]
      exact toEnd_of_registry hreach hc hwinds hticket hqueue

/-! ### Its end -/

/-- Whoever is there and winds up does so later on. -/
theorem windsUp_after (hc : s.connections[i]? = some c) (hwinds : s.WindsUp c)
    (schedule : Nat → Move) (n : Nat) :
    ∃ c', (s.after schedule n).connections[i]? = some c' ∧ (s.after schedule n).WindsUp c' := by
  induction n with
  | zero => exact ⟨c, hc, hwinds⟩
  | succ n ih =>
    obtain ⟨before, hbefore, hwinds⟩ := ih
    obtain ⟨c', hc', hbecomes⟩ := exists_of_apply hbefore (schedule n)
    rw [after_succ]
    exact ⟨c', hc', hbecomes.windsUp hwinds⟩

/-- The handler of the connection is done. -/
def Finished (i : Nat) (s : Service) : Prop :=
  ∃ c, s.connections[i]? = some c ∧ c.handler.hasFinished = true

/-- **It comes to its end**, if its turns come, each in its time. -/
theorem finishes_of_turns (hreach : Reachable limits queueCapacity s)
    (hc : s.connections[i]? = some c) (hwinds : s.WindsUp c)
    (hcomes : ∀ n, ∃ k ≥ n, schedule k = ((s.after schedule n).turnFor i).1 ∧
      ((s.after schedule n).turnFor i).2 ≤ (s.after schedule k).clock) (n : Nat) :
    ∃ k ≥ n, Finished i (s.after schedule k) := by
  refine reached_of_turns (toEnd i) (turnFor i) (Finished i) (fun k => ?_)
    (fun k hgoes hmove htime => ?_) hcomes n
  · obtain ⟨c', hc', hwinds'⟩ := windsUp_after hc hwinds schedule k
    rw [after_succ]
    exact toEnd_apply (hreach.after schedule k) hc' hwinds' (schedule k)
  · obtain ⟨c', hc', hwinds'⟩ := windsUp_after hc hwinds schedule k
    rw [after_succ, hmove]
    refine toEnd_turn (hreach.after schedule k) hc' hwinds' ?_ htime
    by_contra hdone
    exact hgoes ⟨c', hc', by simpa using hdone⟩

theorem turnFor_cases (s : Service) (i : Nat) :
    (s.turnFor i).1 = .handler i ∨ (s.turnFor i).1 = .worker ∨ (s.turnFor i).1 = .registry := by
  cases hc : s.connections[i]? with
  | none => exact .inl (by rw [turnFor, hc])
  | some c =>
    rw [turnFor_of_connection hc]
    cases hticket : c.handler.ticket? with
    | none =>
      rw [turnOf_of_none hticket]
      dsimp only
      split <;> simp
    | some ticket =>
      cases hfirst : c.output.jobs.head? <;> simp only [turnOf, hticket, hfirst] <;> split <;> simp

/-- **Along every fair schedule** in which the registry has its turns too it comes to its end. -/
theorem finishes_of_fair (hreach : Reachable limits queueCapacity s)
    (hc : s.connections[i]? = some c) (hwinds : s.WindsUp c) (hfair : Fair s schedule)
    (hregistry : Recurs schedule .registry) (n : Nat) :
    ∃ k ≥ n, Finished i (s.after schedule k) := by
  refine finishes_of_turns hreach hc hwinds (fun n => hfair.comes ?_ _ n) n
  rcases (s.after schedule n).turnFor_cases i with heq | heq | heq <;> rw [heq]
  · exact hfair.handler i
  · exact hfair.worker
  · exact hregistry

/-- Whoever is done stays so. -/
theorem Finished.apply (h : Finished i s) (m : Move) : Finished i (s.apply m) := by
  obtain ⟨c, hc, hdone⟩ := h
  obtain ⟨c', hc', hbecomes⟩ := exists_of_apply hc m
  refine ⟨c', hc', ?_⟩
  cases hbecomes with
  | same | pipe | reply | carryOn | giveUp => exact hdone
  | session hhandler hstep =>
    rw [hhandler] at hdone
    cases hstep.hasFinished_eq_false.symm.trans hdone
  | refusal hhandler hstep =>
    rw [hhandler, Handler.hasFinished, decide_eq_true_eq] at hdone
    rw [hdone] at hstep
    cases hstep
  | hear hhandler reply =>
    rw [hhandler] at hdone
    exact (Session.hasFinished_hear ..).trans hdone
  | arrive hhandler | finish hhandler =>
    rw [hhandler] at hdone
    exact hdone
  | release => rfl

theorem Finished.after (h : Finished i (s.after schedule n)) (hle : n ≤ k) :
    Finished i (s.after schedule k) := by
  induction k, hle using Nat.le_induction with
  | base => exact h
  | succ k _ ih =>
    rw [after_succ]
    exact ih.apply (schedule k)

/-- **All of them come to their end** for good, if no move opens another connection. -/
theorem all_finish_of_fair (hreach : Reachable limits queueCapacity s)
    (hwinds : ∀ {i : Nat} {c : Connection}, s.connections[i]? = some c → s.WindsUp c)
    (hfair : Fair s schedule) (hregistry : Recurs schedule .registry)
    (hlength : ∀ n, (s.after schedule n).connections.length = s.connections.length) :
    ∃ n, ∀ k ≥ n, ∀ c ∈ (s.after schedule k).connections, c.handler.hasFinished = true := by
  -- By induction on how many have finished, since they stay so while the next one gets there.
  have hfirst (count : Nat) (hcount : count ≤ s.connections.length) :
      ∃ n, ∀ i < count, Finished i (s.after schedule n) := by
    induction count with
    | zero => exact ⟨0, nofun⟩
    | succ count ih =>
      obtain ⟨n, hdone⟩ := ih (Nat.le_of_succ_le hcount)
      obtain ⟨k, hk, hlast⟩ := finishes_of_fair hreach (List.getElem?_eq_getElem hcount)
        (hwinds (List.getElem?_eq_getElem hcount)) hfair hregistry n
      refine ⟨k, fun i hi => ?_⟩
      rcases Nat.lt_succ_iff_lt_or_eq.mp hi with hless | rfl
      · exact (hdone i hless).after hk
      · exact hlast
  obtain ⟨n, hdone⟩ := hfirst _ (Nat.le_refl _)
  refine ⟨n, fun k hk c hmem => ?_⟩
  obtain ⟨i, hi⟩ := List.mem_iff_getElem?.mp hmem
  have hlt : i < s.connections.length := by
    rw [← hlength k]
    exact (List.getElem?_eq_some_iff.mp hi).1
  obtain ⟨c', hc', hfinished⟩ := (hdone i hlt).after hk
  cases hi.symm.trans hc'
  exact hfinished

end Service

end Reckoner
