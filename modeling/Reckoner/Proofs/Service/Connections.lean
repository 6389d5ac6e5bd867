import Reckoner.Proofs.Service.Effect
import Reckoner.Proofs.Session.Refusing

/-!
# What becomes of a connection

Whoever looks after a connection does so for good: a session does not become a refusal, nor the
other way round.

* `Service.Becomes` — all that a move can make of a connection, whoever looks after it.
* `Service.connection_of_apply` — a connection comes from one of before in this way, or is opened.
* `Service.served` — which connections have a session that has not ended; only a step of its own
  ends a session.
* `Service.Refusals` — who asks for something has a session, and so nobody but its own handler
  writes to the output of a refused connection.
* `Service.refusals_applyAll` — this holds after every run without requests from outside.
-/

namespace Reckoner

/-- What is being done about a refused connection. -/
def Handler.refusal? : Handler → Option Refusal
  | refusal r => some r
  | session _ | outside | released => none

namespace Service

variable {s : Service} {m : Move} {i k : Nat} {c c' : Connection}

/-- What is being done about a connection that was refused. -/
def refusal? (s : Service) (i : Nat) : Option Refusal :=
  s.connections[i]?.bind fun c => c.handler.refusal?

/-! ### One connection -/

/-- **What a move makes of a connection.** The last index is the connection after it. -/
inductive Becomes (s : Service) (i : Nat) (c : Connection) : Move → Connection → Prop where
  /-- Nothing happens to it. -/
  | same {m : Move} : Becomes s i c m c
  /-- Its session takes a step. -/
  | session {session : Session} {next : SessionStep} (hhandler : c.handler = .session session)
      (hstep : session.Transition s.outlook c.output next) :
      Becomes s i c (.handler i) { c with output := next.output, handler := .session next.session }
  /-- To refuse it gets a step further. -/
  | refusal {r : Refusal} {next : RefusalStep} (hhandler : c.handler = .refusal r)
      (hstep : r.step s.clock c.output = some next) :
      Becomes s i c (.handler i) { c with output := next.output, handler := .refusal next.refusal }
  /-- Its session hears an answer of the registry. -/
  | hear {session : Session} (hhandler : c.handler = .session session) (reply : RegistryReply) :
      Becomes s i c .registry { c with handler := .session (session.hear reply) }
  /-- Its client sends something. -/
  | arrive {session : Session} (hhandler : c.handler = .session session) (chunk : Bytes) :
      Becomes s i c (.arrive i chunk)
        { c with handler := .session { session with input := session.input.arrive chunk } }
  /-- Its client will send nothing more. -/
  | finish {session : Session} (hhandler : c.handler = .session session) (ending : InputEnd) :
      Becomes s i c (.finish i ending)
        { c with handler := .session { session with input := session.input.finish ending } }
  /-- Somebody outside gives it up. -/
  | release (hhandler : c.handler = .outside) :
      Becomes s i c (.detach i) { c with handler := .released }
  /-- Its client reads, or stops to do so. -/
  | pipe {m : Move} {pipe : Pipe} (haccepted : pipe.accepted = c.output.pipe.accepted)
      (hclosed : pipe.closed = c.output.pipe.closed) :
      Becomes s i c m { c with output := { c.output with pipe } }
  /-- The worker starts the reply to a request that names it. -/
  | reply {request : Request} {outcome : Outcome}
      (hphase : s.worker.phase = .answering request outcome) (hi : request.connection = i) :
      Becomes s i c .worker
        { c with output := (c.output.startLine (request.reply outcome).line).1 }
  /-- The worker carries on with it. -/
  | carryOn {ticket : Nat} (hticket : s.worker.ticketOn? i = some ticket)
      (hready : c.output.isReady s.clock ticket = true) :
      Becomes s i c .worker { c with output := (c.output.poll s.clock ticket).channel }
  /-- The worker is ended by force while it does. -/
  | giveUp {ticket : Nat} (hticket : s.worker.ticketOn? i = some ticket) :
      Becomes s i c .killWorker { c with output := c.output.abandon ticket }

/-- A move opens a connection. -/
inductive Opens (s : Service) : Move → Connection → Prop where
  /-- A client connects and gets a session. -/
  | connect (peer : String) (capacity timeout : Nat) (hheld : s.queueHeld = true) :
      Opens s (.connect peer capacity timeout) ⟨s.connections.length + 1,
        .create capacity timeout, .session { peer, phase := .reading s.clock }⟩
  /-- A client connects and is refused. -/
  | refuse (capacity timeout : Nat) :
      Opens s (.refuse capacity timeout)
        ⟨s.connections.length + 1, .create capacity timeout, .refusal .fresh⟩
  /-- Somebody outside the service gets it. -/
  | attach (capacity timeout : Nat) :
      Opens s (.attach capacity timeout)
        ⟨s.connections.length + 1, .create capacity timeout, .outside⟩

/-- Where a connection comes from that is there after a move. -/
def ComesFrom (s : Service) (i : Nat) (m : Move) (c' : Connection) : Prop :=
  (∃ c, s.connections[i]? = some c ∧ s.Becomes i c m c') ∨ i = s.connections.length ∧ s.Opens m c'

theorem comesFrom_of_same (h : s.connections[i]? = some c') : s.ComesFrom i m c' :=
  .inl ⟨c', h, .same⟩

theorem comesFrom_of_modify {f : Connection → Connection}
    (hf : ∀ c, s.connections[k]? = some c → s.Becomes k c m (f c))
    (h : (s.modifyConnection k f).connections[i]? = some c') : s.ComesFrom i m c' := by
  rw [getElem?_modifyConnection] at h
  split at h
  · rename_i hk
    subst hk
    obtain ⟨c, hc, rfl⟩ := Option.map_eq_some_iff.mp h
    exact .inl ⟨c, hc, hf c hc⟩
  · exact comesFrom_of_same h

theorem comesFrom_of_add {output : Channel} {handler : Handler}
    (hopens : s.Opens m ⟨s.connections.length + 1, output, handler⟩)
    (h : (s.addConnection output handler).connections[i]? = some c') : s.ComesFrom i m c' := by
  rw [getElem?_addConnection] at h
  split at h
  · rename_i hi
    cases h
    exact .inr ⟨hi, hopens⟩
  · exact comesFrom_of_same h

theorem comesFrom_of_modifySession {f : Session → Session}
    (hf : ∀ c session, c.handler = .session session →
      s.Becomes k c m { c with handler := .session (f session) })
    (h : (s.modifySession k f).connections[i]? = some c') : s.ComesFrom i m c' := by
  refine comesFrom_of_modify (fun c _ => ?_) h
  cases hhandler : c.handler with
  | session session => exact hf c session hhandler
  | refusal | outside | released => exact .same

theorem comesFrom_of_pipe {f : Pipe → Pipe} (haccepted : ∀ p, (f p).accepted = p.accepted)
    (hclosed : ∀ p, (f p).closed = p.closed)
    (h : (s.modifyPipe k f).connections[i]? = some c') : s.ComesFrom i m c' :=
  comesFrom_of_modify (fun _ _ => .pipe (haccepted _) (hclosed _)) h

theorem comesFrom_of_handler (h : (s.apply (.handler k)).connections[i]? = some c') :
    s.ComesFrom i (.handler k) c' := by
  rcases s.apply_handler k with heq | ⟨effort, hstep⟩
  · rw [heq] at h
    exact comesFrom_of_same h
  rcases stepHandler_cases hstep with
    ⟨before, session, next, hbefore, hhandler, htransition, heq⟩ |
    ⟨before, r, next, hbefore, hhandler, hnext, heq⟩
  · rw [heq, afterSession_connections] at h
    refine comesFrom_of_modify (fun c hc => ?_) h
    rw [hbefore] at hc
    cases hc
    exact .session hhandler htransition
  · rw [heq] at h
    refine comesFrom_of_modify (fun c hc => ?_) h
    rw [hbefore] at hc
    cases hc
    exact .refusal hhandler hnext

theorem comesFrom_of_worker (h : (s.apply .worker).connections[i]? = some c') :
    s.ComesFrom i .worker c' := by
  rcases s.apply_worker with ⟨heq, -⟩ | ⟨s', heq, hstep⟩ <;> rw [heq] at h
  · exact comesFrom_of_same h
  cases hstep with
  | stop => exact comesFrom_of_same h
  | @take request waiting output _ _ _ houtput | @skip request waiting output _ _ _ houtput =>
    -- The output is put back as it was.
    have hafter : (s.modifyOutput request.connection fun _ => output).connections[i]? = some c' := h
    refine comesFrom_of_modify (fun c hc => ?_) hafter
    rw [output?, hc] at houtput
    cases houtput
    exact .same
  | @answer request outcome output _ hphase houtput =>
    refine comesFrom_of_modify (fun c hc => ?_) h
    rw [output?, hc] at houtput
    cases houtput
    exact .reply hphase rfl
  | @write request outcome ticket _ output hphase houtput hready
  | @deliver request outcome ticket _ output hphase houtput hready
  | @fail request outcome ticket _ output e hphase houtput hready =>
    refine comesFrom_of_modify (fun c hc => ?_) h
    rw [output?, hc] at houtput
    cases houtput
    exact .carryOn (Worker.ticketOn?_replying hphase).1 hready

/-- **Where a connection comes from.** It was there before and a move has made it what it is, or the
    move has opened it. -/
theorem connection_of_apply (h : (s.apply m).connections[i]? = some c') : s.ComesFrom i m c' := by
  cases m with
  | handler => exact comesFrom_of_handler h
  | worker => exact comesFrom_of_worker h
  | registry =>
    rcases s.apply_registry with heq | ⟨effort, hstep⟩
    · rw [heq] at h
      exact comesFrom_of_same h
    · obtain ⟨source, command, mailbox, -, heq⟩ := stepRegistry_cases hstep
      rw [heq] at h
      have hafter : (s.modifySession source fun session =>
          session.hear (s.registry.table.handle command).2).connections[i]? = some c' := h
      exact comesFrom_of_modifySession (fun _ _ hhandler => .hear hhandler _) hafter
  | connect peer capacity timeout =>
    simp only [apply] at h
    split at h
    · rename_i hheld
      exact comesFrom_of_add (.connect peer capacity timeout hheld) h
    · exact comesFrom_of_same h
  | refuse capacity timeout => exact comesFrom_of_add (.refuse capacity timeout) h
  | attach capacity timeout => exact comesFrom_of_add (.attach capacity timeout) h
  | detach k =>
    refine comesFrom_of_modify (fun c _ => ?_) h
    cases hhandler : c.handler with
    | outside => exact .release hhandler
    | session | refusal | released => exact .same
  | submit request =>
    rcases s.apply_submit request with heq | ⟨-, -, heq⟩ <;> rw [heq] at h <;>
      exact comesFrom_of_same h
  | arrive => exact comesFrom_of_modifySession (fun _ _ hhandler => .arrive hhandler _) h
  | finish => exact comesFrom_of_modifySession (fun _ _ hhandler => .finish hhandler _) h
  | read k limit =>
    have hread (p : Pipe) :
        (p.read limit).1.accepted = p.accepted ∧ (p.read limit).1.closed = p.closed := by
      unfold Pipe.read
      split <;> exact ⟨rfl, rfl⟩
    exact comesFrom_of_pipe (fun p => (hread p).1) (fun p => (hread p).2) h
  | deafen => exact comesFrom_of_pipe (f := Pipe.deafen) (fun _ => rfl) (fun _ => rfl) h
  | wait | age | cancel | release | killRegistry => exact comesFrom_of_same h
  | killWorker =>
    rcases s.killWorker_cases with ⟨heq, -⟩ | ⟨-, before, hbefore, heq⟩
    · have hafter : s.killWorker.connections[i]? = some c' := h
      rw [heq] at hafter
      exact comesFrom_of_same hafter
    · have hafter : before.connections[i]? = some c' := by
        have hkilled : s.killWorker.connections[i]? = some c' := h
        rwa [heq] at hkilled
      rcases hbefore with ⟨rfl, -⟩ | ⟨request, outcome, ticket, hphase, rfl⟩
      · exact comesFrom_of_same hafter
      · exact comesFrom_of_modify (fun _ _ => .giveUp (Worker.ticketOn?_replying hphase).1) hafter

/-! ### What stays -/

/-- A session does not become a refusal, nor the other way round. -/
theorem Becomes.keeps (h : s.Becomes i c m c') :
    c'.handler.session?.isSome = c.handler.session?.isSome ∧
      c'.handler.refusal?.isSome = c.handler.refusal?.isSome := by
  cases h with
  | same | pipe | reply | carryOn | giveUp => exact ⟨rfl, rfl⟩
  | session hhandler | refusal hhandler | hear hhandler | arrive hhandler | finish hhandler
  | release hhandler =>
    rw [hhandler]
    exact ⟨rfl, rfl⟩

/-- A connection that is there before a move is there after it. -/
theorem exists_of_apply (hc : s.connections[i]? = some c) (m : Move) :
    ∃ c', (s.apply m).connections[i]? = some c' ∧ s.Becomes i c m c' := by
  have hlt : i < s.connections.length := (List.getElem?_eq_some_iff.mp hc).1
  obtain ⟨c', hc'⟩ : ∃ c', (s.apply m).connections[i]? = some c' :=
    ⟨_, List.getElem?_eq_getElem (Nat.lt_of_lt_of_le hlt (s.frame_apply m).length)⟩
  rcases connection_of_apply hc' with ⟨before, hbefore, hbecomes⟩ | ⟨hi, -⟩
  · rw [hc] at hbefore
    cases hbefore
    exact ⟨c', hc', hbecomes⟩
  · omega

/-- Nor does it in any run. -/
theorem kept_applyAll (hc : s.connections[i]? = some c) (moves : List Move) :
    ∃ c', (s.applyAll moves).connections[i]? = some c' ∧
      c'.handler.session?.isSome = c.handler.session?.isSome ∧
      c'.handler.refusal?.isSome = c.handler.refusal?.isSome := by
  induction moves generalizing s c with
  | nil => exact ⟨c, hc, rfl, rfl⟩
  | cons m moves ih =>
    obtain ⟨next, hnext, hbecomes⟩ := exists_of_apply hc m
    obtain ⟨c', hc', hsession, hrefusal⟩ := ih hnext
    obtain ⟨hsession', hrefusal'⟩ := hbecomes.keeps
    exact ⟨c', hc', hsession.trans hsession', hrefusal.trans hrefusal'⟩

/-- Unless a move opens a connection, there are as many as before. -/
theorem length_apply (hm : ∀ c, ¬ s.Opens m c) :
    (s.apply m).connections.length = s.connections.length := by
  refine Nat.le_antisymm ?_ (s.frame_apply m).length
  -- Else there is one in the place behind the last, which the move has opened.
  by_contra hmore
  have hnew : s.connections.length < (s.apply m).connections.length := by omega
  rcases connection_of_apply (List.getElem?_eq_getElem hnew) with ⟨c, hc, -⟩ | ⟨-, hopens⟩
  · rw [List.getElem?_eq_none (Nat.le_refl _)] at hc
    cases hc
  · exact hm _ hopens

/-! ### Sessions that have not ended -/

/-- Which connections have a session that has not ended. -/
def served (s : Service) : List Bool := s.connections.map fun c => c.handler.mayRequest

theorem getElem?_served (s : Service) (i : Nat) :
    s.served[i]? = s.connections[i]?.map fun c => c.handler.mayRequest := List.getElem?_map ..

theorem count_served (s : Service) :
    s.served.count true = s.connections.countP fun c => c.handler.mayRequest := by
  rw [served, List.count, List.countP_map]
  exact List.countP_congr fun c _ => by simp

theorem served_addConnection (s : Service) (output : Channel) (handler : Handler) :
    (s.addConnection output handler).served = s.served ++ [handler.mayRequest] := by
  show (s.connections ++ [_]).map _ = _
  rw [List.map_append]
  rfl

/-- Only a step of its own ends a session. -/
theorem Becomes.mayRequest (h : s.Becomes i c m c') (hm : m ≠ .handler i) :
    c'.handler.mayRequest = c.handler.mayRequest := by
  cases h with
  | same | pipe | reply | carryOn | giveUp => rfl
  | session | refusal => exact absurd rfl hm
  | hear hhandler =>
    rw [hhandler]
    exact congrArg (!·) (Session.hasFinished_hear ..)
  | arrive hhandler | finish hhandler | release hhandler =>
    rw [hhandler]
    rfl

/-- Whoever has ended does not begin again. -/
theorem Becomes.of_ended (h : s.Becomes i c m c') (hc : c.handler.mayRequest = false) :
    c'.handler.mayRequest = false := by
  by_cases hm : m = .handler i
  · subst hm
    cases h with
    | session hhandler hstep =>
      rw [hhandler, Handler.mayRequest, hstep.hasFinished_eq_false] at hc
      cases hc
    | refusal => rfl
    | same | pipe => exact hc
  · rw [h.mayRequest hm, hc]

theorem served_of_none (h : s.connections[i]? = none) (hopens : ∀ c, ¬ s.Opens m c) :
    (s.apply m).served[i]? = none := by
  rw [List.getElem?_eq_none_iff] at h
  rw [getElem?_served, List.getElem?_eq_none (by rwa [length_apply hopens]), Option.map_none]

/-- A move that opens no connection changes nothing for the client of a connection, unless it is a
    step of its handler. -/
theorem getElem?_served_apply (hopens : ∀ c, ¬ s.Opens m c) (hm : m ≠ .handler i) :
    (s.apply m).served[i]? = s.served[i]? := by
  cases hc : s.connections[i]? with
  | none => rw [served_of_none hc hopens, getElem?_served, hc, Option.map_none]
  | some c =>
    obtain ⟨c', hc', hbecomes⟩ := exists_of_apply hc m
    rw [getElem?_served, getElem?_served, hc, hc', Option.map_some, Option.map_some,
      hbecomes.mayRequest hm]

theorem served_apply (hopens : ∀ c, ¬ s.Opens m c) (hm : ∀ k, m ≠ .handler k) :
    (s.apply m).served = s.served :=
  List.ext_getElem? fun i => getElem?_served_apply hopens (hm i)

/-- A step of a handler ends its session, if it has one that has not ended, or changes nothing for
    its client. -/
theorem getElem?_served_handler (s : Service) (k : Nat) :
    (s.apply (.handler k)).served[k]? = s.served[k]? ∨
      s.served[k]? = some true ∧ (s.apply (.handler k)).served[k]? = some false := by
  have hopens : ∀ c, ¬ s.Opens (.handler k) c := fun _ hnew => nomatch hnew
  cases hc : s.connections[k]? with
  | none =>
    left
    rw [served_of_none hc hopens, getElem?_served, hc, Option.map_none]
  | some c =>
    obtain ⟨c', hc', hbecomes⟩ := exists_of_apply hc (.handler k)
    rw [getElem?_served, getElem?_served, hc, hc', Option.map_some, Option.map_some]
    cases hserved : c.handler.mayRequest with
    | false => exact .inl (by rw [hbecomes.of_ended hserved])
    | true =>
      cases c'.handler.mayRequest with
      | true => exact .inl rfl
      | false => exact .inr ⟨rfl, rfl⟩

theorem served_apply_handler (s : Service) (k : Nat) :
    (s.apply (.handler k)).served = s.served ∨
      s.served[k]? = some true ∧ (s.apply (.handler k)).served = s.served.set k false := by
  have hother {i : Nat} (hi : k ≠ i) : (s.apply (.handler k)).served[i]? = s.served[i]? :=
    getElem?_served_apply (fun _ hnew => nomatch hnew) fun heq => hi (Move.handler.inj heq)
  rcases s.getElem?_served_handler k with hsame | ⟨hserved, hended⟩
  · refine .inl (List.ext_getElem? fun i => ?_)
    by_cases hi : k = i
    · rwa [← hi]
    · exact hother hi
  · refine .inr ⟨hserved, List.ext_getElem? fun i => ?_⟩
    rw [List.getElem?_set]
    split
    · rename_i hi
      rw [← hi, hended, if_pos (List.getElem?_eq_some_iff.mp hserved).1]
    · rename_i hi
      exact hother hi

/-! ### Refused connections -/

/-- **Refused connections.** Whoever has asked for something has a session.  So the worker has
    nothing to write to the output of a refused connection, and its client is told what the refusal
    tells it. -/
structure Refusals (s : Service) : Prop where
  asked : ∀ r ∈ s.queue.accepted, ∃ session, s.session? r.connection = some session
  tells : ∀ {i : Nat} {c : Connection} {r : Refusal}, s.connections[i]? = some c →
    c.handler = .refusal r → r.Tells c.output

theorem refusals_start (limits : SessionLimits) (queueCapacity : Nat) :
    (start limits queueCapacity).Refusals := by
  constructor <;> simp [start]

/-- Nothing was ever asked for in the name of a refused client. -/
theorem Refusals.connection_ne (h : s.Refusals) (hc : s.connections[i]? = some c)
    {r : Refusal} (hhandler : c.handler = .refusal r) {request : Request}
    (hrequest : request ∈ s.queue.accepted) : request.connection ≠ i := by
  rintro rfl
  obtain ⟨session, hsession⟩ := h.asked request hrequest
  rw [session?, hc, Option.bind_some, hhandler] at hsession
  cases hsession

/-- A session is there after every move. -/
theorem session?_apply_of_some {session : Session} (h : s.session? i = some session) (m : Move) :
    ∃ session', (s.apply m).session? i = some session' := by
  obtain ⟨c, hc, hhandler⟩ := session?_eq_some h
  obtain ⟨c', hc', hbecomes⟩ := exists_of_apply hc m
  rw [session?, hc', Option.bind_some]
  refine Option.isSome_iff_exists.mp ?_
  rw [hbecomes.keeps.1, hhandler]
  rfl

/-- What a session asks for it asks for in its own name. -/
theorem session?_of_submission {request : Request} (h : s.submission? m = some request)
    (hm : ∀ r, m ≠ .submit r) : ∃ session, s.session? request.connection = some session := by
  cases m with
  | handler k =>
    obtain ⟨c, hc, h⟩ := Option.bind_eq_some_iff.mp h
    obtain ⟨session, hsession, h⟩ := Option.bind_eq_some_iff.mp h
    obtain ⟨_, -, heq⟩ := Option.bind_eq_some_iff.mp h
    cases heq
    exact ⟨session, by rw [session?, hc, Option.bind_some, hsession]⟩
  | submit r => exact absurd rfl (hm r)
  | _ => cases h

/-- **Every move** keeps it so, unless a request comes from outside. -/
theorem Refusals.apply (h : s.Refusals) (htaken : s.Taken) (hm : ∀ r, m ≠ .submit r) :
    (s.apply m).Refusals := by
  constructor
  · -- A request was taken in before, or the session has just submitted it.
    intro request hrequest
    rw [accepted_apply] at hrequest
    obtain ⟨session, hsession⟩ : ∃ session, s.session? request.connection = some session := by
      rcases List.mem_append.mp hrequest with hbefore | hnew
      · exact h.asked request hbefore
      · split at hnew
        · exact session?_of_submission (Option.mem_toList.mp hnew) hm
        · cases hnew
    exact session?_apply_of_some hsession m
  · intro i c' r' hc' hhandler'
    -- The worker is at no request of this client.
    have hother {c : Connection} (hc : s.connections[i]? = some c)
        (hhandler : c.handler = .refusal r') {request : Request}
        (hrequest : s.worker.request? = some request) :
        request.connection ≠ i := h.connection_ne hc hhandler (htaken.answered request hrequest)
    rcases connection_of_apply hc' with ⟨c, hc, hbecomes⟩ | ⟨-, hopens⟩
    · cases hbecomes with
      | same => exact h.tells hc hhandler'
      | refusal hhandler hstep =>
        cases hhandler'
        exact (h.tells hc hhandler).step hstep
      | pipe haccepted hclosed => exact (h.tells hc hhandler').congr haccepted hclosed
      | reply hphase hi =>
        refine absurd hi (hother hc hhandler' ?_)
        rw [Worker.request?, hphase]
      | carryOn hticket | giveUp hticket =>
        obtain ⟨request, outcome, hphase, hi⟩ := Worker.replying_of_ticketOn? hticket
        refine absurd hi (hother hc hhandler' ?_)
        rw [Worker.request?, hphase]
      | session | hear | arrive | finish | release => cases hhandler'
    · cases hopens with
      | refuse capacity timeout =>
        cases hhandler'
        exact Refusal.tells_create capacity timeout
      | connect | attach => cases hhandler'

/-- **Every run** without requests from outside keeps it so. -/
theorem refusals_applyAll (limits : SessionLimits) (queueCapacity : Nat) {moves : List Move}
    (hmoves : ∀ r, .submit r ∉ moves) : ((start limits queueCapacity).applyAll moves).Refusals := by
  induction moves using List.reverseRecOn with
  | nil => exact refusals_start limits queueCapacity
  | append_singleton moves m ih =>
    rw [applyAll_concat]
    refine (ih fun r hr => hmoves r (List.mem_append_left _ hr)).apply
      (taken_of_reachable (Reachable.start.applyAll moves)) fun r hm => hmoves r ?_
    simp [hm]

end Service

end Reckoner
