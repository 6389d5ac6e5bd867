import Reckoner.Proofs.Channel.Advance
import Reckoner.Proofs.Service.Connections
import Reckoner.Proofs.Service.Conversation

/-!
# Replies on their way

What is on an output stays there while others take their steps, so a reply gets on only by the steps
of the worker, and one that has failed gets no further.

* `Service.output_of_other` — nobody but handlers and the worker changes more of an output than its
  pipe.
* `Service.Carrying` — every output carries some lines.
* `Service.advances_of_other` — a reply of the worker stays where it is while others take steps.
* `Service.IsClosing` — an output is about to be closed.
* `Service.accepted_of_hushed` — a broken output that is not about to be closed takes no more bytes
  in any run.
-/

namespace Reckoner

/-! ### Broken channels -/

namespace Channel

/-- **Nothing comes any more.** The channel is broken, nobody is to close it, and these are the
    bytes that were put into its pipe. -/
structure Hushed (c : Channel) (bytes : Bytes) : Prop where
  broken : c.broken = true
  writes : ∀ job ∈ c.jobs, job.work.closes = false
  accepted : c.pipe.accepted = bytes

variable {c : Channel} {bytes : Bytes}

theorem Hushed.withPipe (h : c.Hushed bytes) {pipe : Pipe}
    (hpipe : pipe.accepted = c.pipe.accepted) : Hushed { c with pipe } bytes :=
  ⟨h.broken, h.writes, hpipe.trans h.accepted⟩

theorem Hushed.startLine (h : c.Hushed bytes) (line : Bytes) :
    (c.startLine line).1.Hushed bytes := by
  refine ⟨h.broken, fun job hjob => ?_, h.accepted⟩
  rcases List.mem_append.mp hjob with hjob | hjob
  · exact h.writes job hjob
  · rw [List.mem_singleton.mp hjob]
    rfl

theorem Hushed.poll (h : c.Hushed bytes) (horderly : c.Orderly) (clock ticket : Nat) :
    (c.poll clock ticket).channel.Hushed bytes := by
  refine ⟨broken_of_poll h.broken clock ticket, fun job hjob => ?_, ?_⟩
  · obtain ⟨before, hbefore, -, hkind⟩ := mem_of_poll hjob
    rw [← hkind]
    exact h.writes before hbefore
  · rw [accepted_of_poll h.writes horderly h.broken, h.accepted]

theorem Hushed.abandon (h : c.Hushed bytes) (ticket : Nat) : (c.abandon ticket).Hushed bytes :=
  ⟨h.broken, fun job hjob => h.writes job (List.mem_of_mem_filter hjob), h.accepted⟩

end Channel

/-! ### Who is about to close -/

namespace Session

/-- The session is about to close its output. -/
def wantsToClose (s : Session) : Bool :=
  match s.phase with
  | .closing _ => true
  | _ => false

variable {o : Outlook} {s : Session} {out : Channel} {next : SessionStep} {bytes : Bytes}

/-- On a broken output no session begins to want so. -/
theorem Transition.wantsToClose (h : Transition o s out next) (hbroken : out.broken = true)
    (hopen : s.wantsToClose = false) : next.session.wantsToClose = false := by
  cases h with
  | gather | write | shut => exact hopen
  | join | deny =>
    rw [Session.wantsToClose, phaseOfReply, if_pos hbroken]
  | skip | giveBackLost | signOff =>
    rw [Session.wantsToClose, phaseOfClose, if_pos hbroken]
  | _ => rfl

theorem Transition.hushed (h : Transition o s out next) (hushed : out.Hushed bytes)
    (horderly : out.Orderly) (hopen : s.wantsToClose = false) : next.output.Hushed bytes := by
  have hwrites := h.writes
  generalize next.session = session, next.output = after at hwrites ⊢
  cases hwrites with
  | nothing => exact hushed
  | starts => exact hushed.startLine _
  | closes hphase => simp [Session.wantsToClose, hphase] at hopen
  | carriesOn => exact hushed.poll horderly _ _

end Session

namespace Refusal

/-- The output is about to be closed. -/
def wantsToClose (r : Refusal) : Bool := r = .told

theorem hushed_of_step {clock : Nat} {r : Refusal} {out : Channel} {next : RefusalStep}
    {bytes : Bytes} (h : r.step clock out = some next) (hushed : out.Hushed bytes)
    (horderly : out.Orderly) (hopen : r.wantsToClose = false) :
    next.output.Hushed bytes ∧ next.refusal.wantsToClose = false := by
  have hcarryOn (ticket : Nat) (now : Refusal) (after : Channel → Refusal)
      (hnext : carryOn clock ticket now after out = some next) (hnow : now.wantsToClose = false)
      (hafter : ∀ c, c.broken = true → (after c).wantsToClose = false) :
      next.output.Hushed bytes ∧ next.refusal.wantsToClose = false := by
    unfold carryOn at hnext
    split at hnext
    · cases hnext
      have hstill := hushed.poll horderly clock ticket
      refine ⟨hstill, ?_⟩
      show Refusal.wantsToClose (if _ then _ else _) = false
      split
      · exact hafter _ hstill.broken
      · exact hnow
    · cases hnext
  cases r with
  | fresh =>
    cases h
    rw [tell, if_pos hushed.broken]
    exact ⟨hushed, rfl⟩
  | telling ticket =>
    refine hcarryOn ticket _ _ h rfl fun c hbroken => ?_
    rw [afterTelling, if_pos hbroken]
    rfl
  | told => cases hopen
  | shutting ticket =>
    exact hcarryOn ticket (.shutting ticket) (fun _ => .finished) h rfl fun _ _ => rfl
  | finished => cases h

end Refusal

/-- Whoever looks after the connection is about to close its output. -/
def Handler.wantsToClose : Handler → Bool
  | session s => s.wantsToClose
  | refusal r => r.wantsToClose
  | outside | released => false

namespace Service

variable {s : Service} {m : Move} {i : Nat} {c : Connection} {out : Channel}

/-! ### What the others leave alone -/

theorem output?_modifyConnection_of_same (s : Service) (i k : Nat) {f : Connection → Connection}
    (hf : ∀ c, (f c).output = c.output) : (s.modifyConnection k f).output? i = s.output? i := by
  rw [output?_modifyConnection]
  split
  · rw [output?]
    simp only [hf]
  · rfl

theorem output?_modifySession (s : Service) (i k : Nat) (f : Session → Session) :
    (s.modifySession k f).output? i = s.output? i := by
  refine s.output?_modifyConnection_of_same i k fun c => ?_
  split <;> rfl

theorem output?_addConnection (hout : s.output? i = some out) (output : Channel)
    (handler : Handler) : (s.addConnection output handler).output? i = some out := by
  obtain ⟨c, hc, rfl⟩ := output?_eq_some hout
  have hlt : i < s.connections.length := (List.getElem?_eq_some_iff.mp hc).1
  rw [output?, getElem?_addConnection, if_neg (Nat.ne_of_lt hlt), hc]
  rfl

theorem output?_modifyPipe (hout : s.output? i = some out) (k : Nat) {f : Pipe → Pipe}
    (hf : ∀ p, (f p).accepted = p.accepted) :
    ∃ pipe, (s.modifyPipe k f).output? i = some { out with pipe } ∧
      pipe.accepted = out.pipe.accepted := by
  obtain ⟨c, hc, rfl⟩ := output?_eq_some hout
  rw [modifyPipe, modifyOutput, output?_modifyConnection]
  split
  · rw [hc]
    exact ⟨f c.output.pipe, rfl, hf _⟩
  · exact ⟨c.output.pipe, hout, rfl⟩

/-- **Nobody else writes.** Nobody but handlers and the worker changes more of an output than its
    pipe, and puts anything into that. -/
theorem output_of_other (hout : s.output? i = some out) (hhandler : ∀ k, m ≠ .handler k)
    (hworker : m ≠ .worker) (hkill : m ≠ .killWorker) :
    ∃ pipe, (s.apply m).output? i = some { out with pipe } ∧
      pipe.accepted = out.pipe.accepted := by
  have hsame (h : (s.apply m).output? i = s.output? i) :
      ∃ pipe, (s.apply m).output? i = some { out with pipe } ∧
        pipe.accepted = out.pipe.accepted := ⟨out.pipe, h.trans hout, rfl⟩
  cases m with
  | handler k => exact absurd rfl (hhandler k)
  | worker => exact absurd rfl hworker
  | killWorker => exact absurd rfl hkill
  | registry =>
    refine hsame ?_
    rcases s.apply_registry with heq | ⟨effort, hstep⟩
    · rw [heq]
    · obtain ⟨source, command, mailbox, -, heq⟩ := stepRegistry_cases hstep
      rw [heq, answer, output?_modifySession]
      rfl
  | connect =>
    refine hsame ?_
    simp only [apply]
    split
    · rw [connect, output?_addConnection hout, hout]
    · rfl
  | refuse | attach => exact hsame ((output?_addConnection hout _ _).trans hout.symm)
  | detach k =>
    refine hsame (s.output?_modifyConnection_of_same i k fun c => ?_)
    split <;> rfl
  | submit request =>
    refine hsame ?_
    rcases s.apply_submit request with heq | ⟨-, -, heq⟩ <;> rw [heq]
    rfl
  | arrive k | finish k => exact hsame (s.output?_modifySession i k _)
  | read k limit =>
    refine output?_modifyPipe hout k fun p => ?_
    unfold Pipe.read
    split <;> rfl
  | deafen k => exact output?_modifyPipe hout k fun _ => rfl
  | wait | age | cancel | release | killRegistry => exact hsame rfl

/-- Nobody begins to close an output but whoever looks after its connection. -/
theorem Becomes.wantsToClose {c' : Connection} (h : s.Becomes i c m c') (hm : m ≠ .handler i) :
    c'.handler.wantsToClose = c.handler.wantsToClose := by
  cases h with
  | same | pipe | reply | carryOn | giveUp => rfl
  | session | refusal => exact absurd rfl hm
  | @hear session hsession reply =>
    rw [hsession]
    show (session.hear reply).wantsToClose = session.wantsToClose
    unfold Session.hear
    split <;> simp_all [Session.wantsToClose]
  | arrive hsession | finish hsession | release hsession =>
    rw [hsession]
    rfl

/-! ### What outputs carry -/

/-- **Carrying.** Every output carries some lines. -/
def Carrying (s : Service) : Prop :=
  ∀ {i : Nat} {out : Channel}, s.output? i = some out → ∃ lines, out.Carries out.jobs lines

theorem carrying_start (limits : SessionLimits) (queueCapacity : Nat) :
    (start limits queueCapacity).Carrying := nofun

/-- What a handler starts comes behind the lines that are there. -/
theorem carries_of_starts {handler : Handler} {work : Work} (h : handler.Starts work)
    {lines : List Bytes} (hcarries : out.Carries out.jobs lines) :
    ∃ lines, (out.start work).1.Carries (out.start work).1.jobs lines := by
  have hline (r : Response) : ∃ lines, (out.start (.line r.line)).1.Carries
      (out.start (.line r.line)).1.jobs lines :=
    ⟨_, hcarries.startLine (Response.line_ne_nil r)⟩
  have hclose : ∃ lines, (out.start .close).1.Carries (out.start .close).1.jobs lines :=
    ⟨_, hcarries.startClose⟩
  cases handler with
  | session session =>
    rcases h with rfl | ⟨r, next, -, rfl⟩
    · exact hclose
    · exact hline r
  | refusal r =>
    rcases h with rfl | rfl
    · exact hline .busy
    · exact hclose
  | outside | released => exact h.elim

theorem Sharing.orderly (h : s.Sharing) (hout : s.output? i = some out) : out.Orderly := by
  obtain ⟨c, hc, rfl⟩ := output?_eq_some hout
  exact (h.shared hc).orderly

/-- Every move keeps it so, unless it ends the worker by force in the middle of a line. -/
theorem Carrying.apply (h : s.Carrying) (hs : s.Sharing)
    (halive : (s.apply m).worker.phase ≠ .killed) : (s.apply m).Carrying := by
  intro i after hafter
  by_cases hhandler : ∃ k, m = .handler k
  · obtain ⟨k, rfl⟩ := hhandler
    obtain ⟨before, hbefore, hcases⟩ := output_of_handler hafter
    obtain ⟨lines, hlines⟩ := h hbefore
    rcases hcases with rfl | ⟨-, c, -, ⟨work, hstarts, rfl⟩ | ⟨ticket, -, rfl⟩⟩
    · exact ⟨lines, hlines⟩
    · exact carries_of_starts hstarts hlines
    · exact ⟨lines, carries_poll hlines (hs.orderly hbefore) _ _⟩
  by_cases hworker : m = .worker
  · subst hworker
    obtain ⟨before, hbefore, hcases⟩ := output_of_worker hafter
    obtain ⟨lines, hlines⟩ := h hbefore
    rcases hcases with rfl | ⟨r, outcome, -, ⟨-, rfl⟩ | ⟨ticket, -, rfl⟩⟩
    · exact ⟨lines, hlines⟩
    · exact ⟨_, hlines.startLine (Response.line_ne_nil _)⟩
    · exact ⟨lines, carries_poll hlines (hs.orderly hbefore) _ _⟩
  by_cases hkill : m = .killWorker
  · subst hkill
    rw [killWorker_of_alive halive] at hafter
    exact h hafter
  have hnone : ∀ k, m ≠ .handler k := fun k hk => hhandler ⟨k, hk⟩
  cases hout : s.output? i with
  | none =>
    obtain ⟨capacity, timeout, rfl⟩ := (untouched_apply hnone hworker hkill).fresh hout hafter
    exact ⟨[], Channel.carries_create capacity timeout⟩
  | some out =>
    obtain ⟨pipe, hpipe, haccepted⟩ := output_of_other hout hnone hworker hkill
    cases hafter.symm.trans hpipe
    obtain ⟨lines, hlines⟩ := h hout
    exact ⟨lines, hlines.congr rfl rfl haccepted⟩

theorem Carrying.applyAll (h : s.Carrying) (hs : s.Sharing) (moves : List Move)
    (halive : (s.applyAll moves).worker.phase ≠ .killed) : (s.applyAll moves).Carrying := by
  induction moves generalizing s with
  | nil => exact h
  | cons m moves ih => exact ih (h.apply hs (alive_of_applyAll halive)) (hs.apply m) halive

/-- **The reply stays where it is** while others take their steps. -/
theorem advances_of_other (hs : s.Sharing) {r : Request} {outcome : Outcome} {ticket : Nat}
    {line written : Bytes} (hphase : s.worker.phase = .replying r outcome ticket)
    (hout : s.output? r.connection = some out) (h : out.Advances ticket line written)
    (hworker : m ≠ .worker) (hkill : m ≠ .killWorker) :
    ∃ out', (s.apply m).output? r.connection = some out' ∧ out'.Advances ticket line written := by
  by_cases hhandler : ∃ k, m = .handler k
  · obtain ⟨k, rfl⟩ := hhandler
    obtain ⟨c, hc, rfl⟩ := output?_eq_some hout
    obtain ⟨c', hc', -⟩ := exists_of_apply hc (.handler k)
    have hafter : (s.apply (.handler k)).output? r.connection = some c'.output := by
      rw [output?, hc']; rfl
    refine ⟨c'.output, hafter, ?_⟩
    obtain ⟨before, hbefore, hcases⟩ := output_of_handler hafter
    cases hbefore.symm.trans hout
    rcases hcases with hsame | ⟨rfl, own, hown, ⟨work, -, hstart⟩ | ⟨first, hfirst, hpoll⟩⟩
    · rwa [hsame]
    · rw [hstart]
      exact h.startWork work
    · -- The job that gets on is the handler's, and the worker's is another one.
      cases hown.symm.trans hc
      have hshared := hs.shared hc
      rw [(Worker.ticketOn?_replying hphase).1] at hshared
      rw [hpoll]
      refine h.poll_other ?_
      rintro rfl
      exact hshared.apart hfirst rfl
  · obtain ⟨pipe, hpipe, -⟩ := output_of_other hout (fun k hk => hhandler ⟨k, hk⟩) hworker hkill
    exact ⟨_, hpipe, h.congr rfl rfl⟩

/-! ### Broken outputs -/

/-- **An output is being closed.** Whoever looks after the connection is about to close its output,
    or a job to do so waits or is under way. -/
def IsClosing (s : Service) (i : Nat) : Prop :=
  ∃ c, s.connections[i]? = some c ∧
    (c.handler.wantsToClose = true ∨ ∃ job ∈ c.output.jobs, job.work.closes = true)

/-- The bytes that were put into the pipe of a connection. -/
def acceptedAt (s : Service) (i : Nat) : Bytes :=
  match s.output? i with
  | some out => out.pipe.accepted
  | none => []

/-- A broken output that nobody is about to close. -/
def Hushed (s : Service) (i : Nat) (bytes : Bytes) : Prop :=
  ∃ c, s.connections[i]? = some c ∧ c.output.Hushed bytes ∧ c.handler.wantsToClose = false

theorem hushed_of_broken (hout : s.output? i = some out) (hbroken : out.broken = true)
    (hopen : ¬ s.IsClosing i) : s.Hushed i (s.acceptedAt i) := by
  obtain ⟨c, hc, rfl⟩ := output?_eq_some hout
  refine ⟨c, hc, ⟨hbroken, ?_, by rw [acceptedAt, hout]⟩, ?_⟩
  · intro job hjob
    by_contra hcloses
    exact hopen ⟨c, hc, .inr ⟨job, hjob, by simpa using hcloses⟩⟩
  · by_contra hwants
    exact hopen ⟨c, hc, .inl (by simpa using hwants)⟩

theorem Hushed.acceptedAt {bytes : Bytes} (h : s.Hushed i bytes) : s.acceptedAt i = bytes := by
  obtain ⟨c, hc, hushed, -⟩ := h
  rw [Service.acceptedAt, output?, hc]
  exact hushed.accepted

/-- Whatever happens, nothing comes into its pipe, and nobody begins to close it. -/
theorem Hushed.apply {bytes : Bytes} (h : s.Hushed i bytes) (hs : s.Sharing) (m : Move) :
    (s.apply m).Hushed i bytes := by
  obtain ⟨c, hc, hushed, hopen⟩ := h
  have hout : s.output? i = some c.output := by rw [output?, hc]; rfl
  have horderly := hs.orderly hout
  by_cases hhandler : m = .handler i
  · subst hhandler
    rcases s.apply_handler i with heq | ⟨effort, hstep⟩
    · exact ⟨c, by rwa [heq], hushed, hopen⟩
    rcases stepHandler_cases hstep with
      ⟨own, session, next, hown, hsession, htransition, heq⟩ |
      ⟨own, r, next, hown, hrefusal, hnext, heq⟩ <;> cases hown.symm.trans hc
    · rw [hsession] at hopen
      refine ⟨{ c with output := next.output, handler := .session next.session }, ?_,
        htransition.hushed hushed horderly hopen,
        htransition.wantsToClose hushed.broken hopen⟩
      rw [heq, afterSession_connections, getElem?_modifyConnection, if_pos rfl, hc]
      rfl
    · rw [hrefusal] at hopen
      obtain ⟨hushed', hopen'⟩ := Refusal.hushed_of_step hnext hushed horderly hopen
      refine ⟨{ c with output := next.output, handler := .refusal next.refusal }, ?_, hushed',
        hopen'⟩
      rw [heq, getElem?_modifyConnection, if_pos rfl, hc]
      rfl
  -- Nobody else begins to close it, so what matters is what is done to the output.
  obtain ⟨c', hc', hbecomes⟩ := exists_of_apply hc m
  have hafter : (s.apply m).output? i = some c'.output := by rw [output?, hc']; rfl
  refine ⟨c', hc', ?_, (hbecomes.wantsToClose hhandler).trans hopen⟩
  by_cases hworker : m = .worker
  · subst hworker
    obtain ⟨before, hbefore, hcases⟩ := output_of_worker hafter
    cases hbefore.symm.trans hout
    rcases hcases with hsame | ⟨r, outcome, -, ⟨-, hstart⟩ | ⟨ticket, -, hpoll⟩⟩
    · rwa [hsame]
    · rw [hstart]
      exact hushed.startLine _
    · rw [hpoll]
      exact hushed.poll horderly _ _
  by_cases hkill : m = .killWorker
  · subst hkill
    have hkilled := (s.output?_killWorker i).symm.trans hafter
    rw [hout, Option.map_some, Option.some.injEq] at hkilled
    rw [← hkilled]
    split
    · exact hushed.abandon _
    · exact hushed
  by_cases hother : ∃ k, m = .handler k
  · obtain ⟨k, rfl⟩ := hother
    obtain ⟨before, hbefore, hcases⟩ := output_of_handler hafter
    cases hbefore.symm.trans hout
    rcases hcases with hsame | ⟨hk, -⟩
    · rwa [hsame]
    · exact absurd (congrArg Move.handler hk) hhandler
  · obtain ⟨pipe, hpipe, haccepted⟩ :=
      output_of_other hout (fun k hk => hother ⟨k, hk⟩) hworker hkill
    rw [Option.some.inj (hafter.symm.trans hpipe)]
    exact hushed.withPipe haccepted

/-- **A broken output stays silent** in every run, unless it was about to be closed. -/
theorem accepted_of_hushed {bytes : Bytes} (h : s.Hushed i bytes) (hs : s.Sharing)
    (moves : List Move) : (s.applyAll moves).acceptedAt i = bytes := by
  induction moves generalizing s with
  | nil => exact h.acceptedAt
  | cons m moves ih => exact ih (h.apply hs m) (hs.apply m)

end Service

end Reckoner
