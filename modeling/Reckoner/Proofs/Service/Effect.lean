import Reckoner.Proofs.Channel.Carriage
import Reckoner.Proofs.Service.Confinement
import Reckoner.Proofs.Service.Order
import Reckoner.Proofs.Session.Framing
import Reckoner.Proofs.Session.Stage

/-!
# One session in a run

Whatever a service does, to a single session few things can happen, and few of them say anything to
its client.

* `Service.said?`, `Service.saidIn` — what a move, or a run, says to the client of a connection.
* `Service.Effect` — all that a move can do to a session and its output.
* `Service.effect_of_apply` — a move does one of these.
* `Service.run_induction` — what holds of a session at its beginning, and is kept by whatever can
  happen to it, holds after every run.
-/

namespace Reckoner

/-- The request that the session of a connection submits by an errand. -/
def Errand.request? (i : Nat) : Errand → Option Request
  | submit client expression => some ⟨client, expression, i⟩
  | register _ | deregister _ => none

namespace Service

variable {s : Service} {m : Move} {i k : Nat} {session : Session} {out : Channel}

/-! ### What is said -/

/-- What a move says to the client of a connection, by starting a line on its output. -/
def said? (s : Service) (i : Nat) : Move → Option Utterance
  | .handler k => if k = i then (s.session? i).bind Session.saying? else none
  | m => ((s.reply? m).filter fun r => r.connection = i).map .reply

/-- What moves say to it, one after the other. -/
def saidIn (s : Service) (i : Nat) : List Move → List Utterance
  | [] => []
  | m :: moves => (s.said? i m).toList ++ (s.apply m).saidIn i moves

theorem saidIn_append (s : Service) (i : Nat) (moves later : List Move) :
    s.saidIn i (moves ++ later) = s.saidIn i moves ++ (s.applyAll moves).saidIn i later := by
  induction moves generalizing s with
  | nil => rfl
  | cons m moves ih => rw [List.cons_append, saidIn, ih, saidIn, List.append_assoc, applyAll_cons]

theorem saidIn_concat (s : Service) (i : Nat) (moves : List Move) (m : Move) :
    s.saidIn i (moves ++ [m]) = s.saidIn i moves ++ ((s.applyAll moves).said? i m).toList := by
  rw [saidIn_append, saidIn, saidIn, List.append_nil]

theorem said?_of_session (h : s.session? i = some session) :
    s.said? i (.handler i) = session.saying? := by
  rw [said?, if_pos rfl, h, Option.bind_some]

theorem said?_of_ne_handler (hworker : m ≠ .worker) (hhandler : m ≠ .handler i) :
    s.said? i m = none := by
  cases m with
  | handler k =>
    refine if_neg ?_
    rintro rfl
    exact hhandler rfl
  | worker => exact absurd rfl hworker
  | _ => rfl

/-- The worker says something when it starts a reply. -/
theorem said?_worker {r : Request} {outcome : Outcome} (h : s.worker.phase = .answering r outcome)
    (hout : s.output? r.connection = some out) :
    s.said? i .worker = if r.connection = i then some (.reply r) else none := by
  show ((s.reply? .worker).filter fun r => r.connection = i).map Utterance.reply = _
  rw [reply?, h]
  simp only [hout, Option.isSome_some, if_true, Option.filter_some, decide_eq_true_eq]
  split <;> rfl

theorem said?_of_not_answering (h : ∀ r outcome, s.worker.phase ≠ .answering r outcome) :
    s.said? i .worker = none := by
  have hnone : s.reply? .worker = none := by
    unfold reply?
    cases hphase : s.worker.phase with
    | answering r outcome => exact absurd hphase (h r outcome)
    | idle | replying | stopped | killed => rfl
  show ((s.reply? .worker).filter fun r => r.connection = i).map Utterance.reply = none
  rw [hnone]
  rfl

/-- The worker replies to the request that it is at. -/
theorem request?_of_reply {r : Request} (h : s.reply? m = some r) : s.worker.request? = some r := by
  cases m with
  | worker =>
    cases hphase : s.worker.phase with
    | answering request outcome =>
      simp only [reply?, hphase] at h
      split at h
      · cases h
        rw [Worker.request?, hphase]
      · cases h
    | idle | replying | stopped | killed => simp [reply?, hphase] at h
  | _ => cases h

/-! ### What can happen to a session -/

/-- The move says nothing to the client of a connection, and asks for nothing in its name. -/
structure Aside (s : Service) (i : Nat) (m : Move) : Prop where
  quiet : s.said? i m = none
  others : ∀ r, s.submission? m = some r → r.connection ≠ i

/-- The requests for a connection that were taken in. -/
def requestsFor (s : Service) (i : Nat) : List Request :=
  s.queue.accepted.filter fun r => r.connection = i

/-- **What can happen to a session.** A move does no more to a session and its output than one of
    these; the last two indices are both of them after the move. -/
inductive Effect (s : Service) (i : Nat) (session : Session) (out : Channel) :
    Move → Session → Channel → Prop where
  /-- The session takes a step. -/
  | step {next : SessionStep} (hstep : session.Transition s.outlook out next)
      (hsaid : s.said? i (.handler i) = session.saying?)
      (hrequests : (s.apply (.handler i)).requestsFor i
        = s.requestsFor i ++ (next.errand.bind (Errand.request? i)).toList) :
      Effect s i session out (.handler i) next.session next.output
  /-- The worker starts a reply to the client. -/
  | reply {r : Request} {outcome : Outcome} (hphase : s.worker.phase = .answering r outcome)
      (hi : r.connection = i) (hsaid : s.said? i .worker = some (.reply r)) :
      Effect s i session out .worker session (out.startLine (r.reply outcome).line).1
  /-- The worker carries on with it. -/
  | carryOn {r : Request} {outcome : Outcome} {ticket : Nat}
      (hphase : s.worker.phase = .replying r outcome ticket) (hi : r.connection = i)
      (hsaid : s.said? i .worker = none) :
      Effect s i session out .worker session (out.poll s.clock ticket).channel
  /-- The registry answers the session. -/
  | hear (answer : RegistryReply) : Effect s i session out .registry (session.hear answer) out
  /-- The client sends something, or will send nothing more. -/
  | input {m : Move} {input : Input} (haside : s.Aside i m)
      (hframed : ∀ {limit : Nat}, session.input.Framed limit → input.Framed limit) :
      Effect s i session out m { session with input } out
  /-- The client reads, or stops to do so. -/
  | pipe {m : Move} {pipe : Pipe} (haside : s.Aside i m)
      (hpipe : pipe.accepted = out.pipe.accepted) (hclosed : pipe.closed = out.pipe.closed) :
      Effect s i session out m session { out with pipe }
  /-- Nothing. -/
  | none {m : Move} (haside : s.Aside i m) : Effect s i session out m session out

theorem aside_of_ne (hworker : m ≠ .worker) (hhandler : ∀ k, m ≠ .handler k)
    (hsubmit : ∀ r, m = .submit r → r.connection ≠ i) : s.Aside i m := by
  refine ⟨said?_of_ne_handler hworker (hhandler i), ?_⟩
  intro r hr
  cases m with
  | handler k => exact absurd rfl (hhandler k)
  | submit request =>
    rw [submission?] at hr
    split at hr
    · cases hr
      exact hsubmit r rfl
    · cases hr
  | _ => cases hr

theorem aside_of_other (hm : m ≠ .worker ∧ (∀ k, m ≠ .handler k) ∧ ∀ r, m ≠ .submit r) :
    s.Aside i m :=
  aside_of_ne hm.1 hm.2.1 fun r hr => absurd hr (hm.2.2 r)

theorem aside_of_handler (hk : k ≠ i) : s.Aside i (.handler k) := by
  refine ⟨if_neg hk, ?_⟩
  intro r hr
  obtain ⟨c, -, hr⟩ := Option.bind_eq_some_iff.mp hr
  obtain ⟨session, -, hr⟩ := Option.bind_eq_some_iff.mp hr
  obtain ⟨⟨client, expression⟩, -, hr⟩ := Option.bind_eq_some_iff.mp hr
  cases hr
  exact hk

theorem aside_of_worker (h : s.said? i .worker = none) : s.Aside i .worker := ⟨h, nofun⟩

theorem mem_requestsFor {r : Request} :
    r ∈ s.requestsFor i ↔ r ∈ s.queue.accepted ∧ r.connection = i := by
  rw [requestsFor, List.mem_filter, decide_eq_true_eq]

/-- They are as before after a move that asks for nothing. -/
theorem Aside.requestsFor (h : s.Aside i m) : (s.apply m).requestsFor i = s.requestsFor i := by
  unfold Service.requestsFor
  rw [accepted_apply, List.filter_append, List.append_right_eq_self, List.filter_eq_nil_iff]
  intro r hr
  split at hr
  · simpa using h.others r (Option.mem_toList.mp hr)
  · cases hr

theorem requestsFor_worker (s : Service) (i : Nat) :
    (s.apply .worker).requestsFor i = s.requestsFor i := by
  rw [requestsFor, accepted_apply]
  simp [submission?, requestsFor]

/-- An output that is broken stays so. -/
theorem Effect.sound {session' : Session} {out' : Channel}
    (h : s.Effect i session out m session' out') (hsound : out'.broken = false) :
    out.broken = false := by
  by_contra hbroken
  have hbroken : out.broken = true := by simpa using hbroken
  have hpoll (clock ticket : Nat) := Channel.broken_of_poll hbroken clock ticket
  cases h with
  | step hstep =>
    rcases hstep.output with hout | ⟨r, after, -, hout⟩ | hout | ⟨ticket, -, hout⟩ <;>
      rw [hout] at hsound
    · simp [hbroken] at hsound
    · exact absurd (hbroken.symm.trans hsound) nofun
    · exact absurd (hbroken.symm.trans hsound) nofun
    · simp [hpoll] at hsound
  | carryOn => simp [hpoll] at hsound
  | _ => exact absurd (hbroken.symm.trans hsound) nofun

/-! ### Which of these a move does -/

section Apply

/-- The session and the output of a connection. -/
def Has (s : Service) (i : Nat) (session : Session) (out : Channel) : Prop :=
  ∃ c, s.connections[i]? = some c ∧ c.handler = .session session ∧ c.output = out

theorem has_iff : s.Has i session out ↔ s.session? i = some session ∧ s.output? i = some out := by
  constructor
  · rintro ⟨c, hc, hhandler, rfl⟩
    exact ⟨session?_of_handler hc hhandler, by rw [output?, hc]; rfl⟩
  · rintro ⟨hsession, hout⟩
    obtain ⟨c, hc, hhandler⟩ := session?_eq_some hsession
    rw [output?, hc] at hout
    exact ⟨c, hc, hhandler, Option.some.inj hout⟩

/-- A session has an output. -/
theorem has_of_session? (h : s.session? i = some session) : ∃ out, s.Has i session out := by
  obtain ⟨c, hc, hhandler⟩ := session?_eq_some h
  exact ⟨c.output, c, hc, hhandler, rfl⟩

/-- It has only one. -/
theorem Has.unique (h : s.Has i session out) {session' : Session} {out' : Channel}
    (h' : s.Has i session' out') : session = session' ∧ out = out' := by
  obtain ⟨hsession, hout⟩ := has_iff.mp h
  obtain ⟨hsession', hout'⟩ := has_iff.mp h'
  exact ⟨Option.some.inj (hsession.symm.trans hsession'), Option.some.inj (hout.symm.trans hout')⟩

/-- One connection is changed. -/
theorem Has.modifyConnection (h : s.Has i session out) (k : Nat) {f : Connection → Connection}
    {session' : Session} {out' : Channel}
    (hf : ∀ c, c.handler = .session session → c.output = out →
      (f c).handler = .session session' ∧ (f c).output = out') :
    (s.modifyConnection k f).Has i (if k = i then session' else session)
      (if k = i then out' else out) := by
  obtain ⟨c, hc, hhandler, hout⟩ := h
  have hafter := s.getElem?_modifyConnection k i f
  by_cases hk : k = i
  · obtain ⟨hhandler', hout'⟩ := hf c hhandler hout
    rw [if_pos hk, hc] at hafter
    rw [if_pos hk, if_pos hk]
    exact ⟨f c, hafter, hhandler', hout'⟩
  · rw [if_neg hk, hc] at hafter
    rw [if_neg hk, if_neg hk]
    exact ⟨c, hafter, hhandler, hout⟩

theorem Has.modifyOutput (h : s.Has i session out) (k : Nat) (f : Channel → Channel) :
    (s.modifyOutput k f).Has i session (if k = i then f out else out) := by
  have hafter : (s.modifyOutput k f).Has i (if k = i then session else session)
      (if k = i then f out else out) :=
    h.modifyConnection k fun c hhandler hout => ⟨hhandler, congrArg f hout⟩
  rwa [ite_self] at hafter

theorem Has.modifySession (h : s.Has i session out) (k : Nat) (f : Session → Session) :
    (s.modifySession k f).Has i (if k = i then f session else session) out := by
  have hafter : (s.modifySession k f).Has i (if k = i then f session else session)
      (if k = i then out else out) :=
    h.modifyConnection k fun c hhandler hout => by simp [hhandler, hout]
  rwa [ite_self] at hafter

theorem Has.detach (h : s.Has i session out) (k : Nat) : (s.detach k).Has i session out := by
  have hafter : (s.detach k).Has i (if k = i then session else session)
      (if k = i then out else out) :=
    h.modifyConnection k fun c hhandler hout => by simp [hhandler, hout]
  rwa [ite_self, ite_self] at hafter

theorem Has.addConnection (h : s.Has i session out) (output : Channel) (handler : Handler) :
    (s.addConnection output handler).Has i session out := by
  obtain ⟨c, hc, hhandler, rfl⟩ := h
  have hlt : i < s.connections.length := (List.getElem?_eq_some_iff.mp hc).1
  exact ⟨c, by rw [getElem?_addConnection, if_neg (Nat.ne_of_lt hlt), hc], hhandler, rfl⟩

/-- The step of the session is the step of its handler. -/
theorem effect_of_handler (h : s.Has i session out) :
    ∃ session' out', (s.apply (.handler i)).Has i session' out' ∧
      s.Effect i session out (.handler i) session' out' := by
  obtain ⟨c, hc, hhandler, rfl⟩ := h
  have hsession : s.session? i = some session := session?_of_handler hc hhandler
  have hsaid := said?_of_session hsession
  have hstep := stepHandler_session hc hhandler
  cases hnext : session.step s.outlook c.output with
  | none =>
    -- A session that has to wait neither says nor asks anything.
    have hsame : s.apply (.handler i) = s := by
      show ((s.stepHandler i).map Prod.fst).getD s = s
      rw [hstep, hnext]
      rfl
    refine ⟨session, c.output, ?_, .none ⟨?_, ?_⟩⟩
    · rw [hsame]
      exact ⟨c, hc, hhandler, rfl⟩
    · rw [hsaid]
      unfold Session.saying?
      split
      · rename_i hphase
        simp [Session.step, hphase] at hnext
      · rfl
    · intro r hr
      simp only [submission?, hc, hhandler, Handler.session?, Option.bind_eq_bind,
        Option.bind_some] at hr
      obtain ⟨request, hrequest, -⟩ := Option.bind_eq_some_iff.mp hr
      obtain ⟨next, hsome⟩ := Session.step_of_request hrequest
      rw [hnext] at hsome
      cases hsome
  | some next =>
    have hafter : s.apply (.handler i) = s.afterSession i c.id next := by
      show ((s.stepHandler i).map Prod.fst).getD s = _
      rw [hstep, hnext]
      rfl
    refine ⟨next.session, next.output, ?_, .step (Session.transition_of_step hnext) hsaid ?_⟩
    · rw [hafter]
      refine ⟨{ c with output := next.output, handler := .session next.session }, ?_, rfl, rfl⟩
      rw [afterSession_connections, getElem?_modifyConnection, if_pos rfl, hc]
      rfl
    · rw [hafter, requestsFor, (s.afterSession_queue i c.id next).2.2]
      cases next.errand with
      | none => exact (List.append_nil _).symm
      | some errand =>
        cases errand with
        | register | deregister => exact (List.append_nil _).symm
        | submit client expression =>
          show (s.queue.accepted ++ [_]).filter _ = _
          rw [List.filter_append]
          simp [Errand.request?, requestsFor]

theorem Has.other_handler (h : s.Has i session out) (hk : k ≠ i) :
    (s.apply (.handler k)).Has i session out := by
  obtain ⟨c, hc, hhandler, rfl⟩ := h
  rcases s.apply_handler k with heq | ⟨effort, hstep⟩
  · rw [heq]
    exact ⟨c, hc, hhandler, rfl⟩
  refine ⟨c, ?_, hhandler, rfl⟩
  rcases stepHandler_cases hstep with
    ⟨c', session', next, -, -, -, heq⟩ | ⟨c', r, next, -, -, -, heq⟩
  · rw [heq, afterSession_connections, getElem?_modifyConnection, if_neg hk, hc]
  · rw [heq, getElem?_modifyConnection, if_neg hk, hc]

theorem effect_of_registry (h : s.Has i session out) :
    ∃ session', (s.apply .registry).Has i session' out ∧
      s.Effect i session out .registry session' out := by
  have hnothing : s.Effect i session out .registry session out :=
    .none (aside_of_other (by simp))
  rcases s.apply_registry with heq | ⟨effort, hstep⟩
  · rw [heq]
    exact ⟨session, h, hnothing⟩
  obtain ⟨source, command, mailbox, -, heq⟩ := stepRegistry_cases hstep
  rw [heq]
  have hbefore : { s with registry := { s.registry with
      table := (s.registry.table.handle command).1, mailbox } }.Has i session out := h
  refine ⟨_, hbefore.modifySession source fun session =>
    session.hear (s.registry.table.handle command).2, ?_⟩
  split
  · exact .hear _
  · exact hnothing

/-- What the worker does to the output that a request names. -/
theorem Has.afterWorker (h : s.Has i session out) (k : Nat) (next : WorkerStep) :
    (s.afterWorker k next).1.Has i session (if k = i then next.output else out) :=
  h.modifyOutput k fun _ => next.output

/-- The output is the same as before. -/
theorem Has.afterWorker_same (h : s.Has i session out) (next : WorkerStep)
    (hsame : s.output? k = some next.output) : (s.afterWorker k next).1.Has i session out := by
  have hafter := h.afterWorker k next
  split at hafter
  · rename_i hk
    rw [hk, (has_iff.mp h).2] at hsame
    rwa [Option.some.inj hsame]
  · exact hafter

theorem effect_of_worker (h : s.Has i session out) :
    ∃ out', (s.apply .worker).Has i session out' ∧
      s.Effect i session out .worker session out' := by
  have hhere : s.output? i = some out := (has_iff.mp h).2
  rcases s.apply_worker with ⟨heq, hnone⟩ | ⟨s', heq, hstep⟩ <;> rw [heq]
  · refine ⟨out, h, .none (aside_of_worker ?_)⟩
    show ((s.reply? .worker).filter _).map _ = _
    rw [reply?_of_waiting hnone]
    rfl
  cases hstep with
  | @take _ waiting _ _ hphase _ houtput | @skip _ waiting _ _ hphase _ houtput =>
    have hbefore : Has { s with queue := { s.queue with waiting } } i session out := h
    exact ⟨out, hbefore.afterWorker_same _ houtput,
      .none (aside_of_worker (said?_of_not_answering (by simp [hphase])))⟩
  | stop hphase =>
    exact ⟨out, h, .none (aside_of_worker (said?_of_not_answering (by simp [hphase])))⟩
  | @answer request outcome output _ hphase houtput =>
    have hsaid := said?_worker (i := i) hphase houtput
    refine ⟨_, h.afterWorker _ _, ?_⟩
    split
    · rename_i hi
      rw [hi, hhere] at houtput
      cases houtput
      exact .reply hphase hi (by rw [hsaid, if_pos hi])
    · rename_i hi
      exact .none (aside_of_worker (by rw [hsaid, if_neg hi]))
  | @write request outcome ticket _ output hphase houtput
  | @deliver request outcome ticket _ output hphase houtput
  | @fail request outcome ticket _ output e hphase houtput =>
    have hsaid : s.said? i .worker = none := said?_of_not_answering (by simp [hphase])
    refine ⟨_, h.afterWorker _ _, ?_⟩
    split
    · rename_i hi
      rw [hi, hhere] at houtput
      cases houtput
      exact .carryOn hphase hi hsaid
    · exact .none (aside_of_worker hsaid)

theorem effect_of_input (h : s.Has i session out) {f : Input → Input} (haside : s.Aside i m)
    (happly : s.apply m = s.modifyInput k f)
    (hframed : ∀ {limit : Nat}, session.input.Framed limit → (f session.input).Framed limit) :
    ∃ session', (s.apply m).Has i session' out ∧ s.Effect i session out m session' out := by
  rw [happly]
  refine ⟨_, h.modifySession k fun session => { session with input := f session.input }, ?_⟩
  split
  · exact .input haside hframed
  · exact .none haside

theorem effect_of_pipe (h : s.Has i session out) {f : Pipe → Pipe} (haside : s.Aside i m)
    (happly : s.apply m = s.modifyPipe k f) (hf : (f out.pipe).accepted = out.pipe.accepted)
    (hclosed : (f out.pipe).closed = out.pipe.closed) :
    ∃ out', (s.apply m).Has i session out' ∧ s.Effect i session out m session out' := by
  rw [happly]
  refine ⟨_, h.modifyOutput k fun c => { c with pipe := f c.pipe }, ?_⟩
  split
  · exact .pipe haside hf hclosed
  · exact .none haside

/-- **Nothing else happens.** A move that does not end the worker by force, and is no request from
    outside that names the connection, has one of these effects. -/
theorem effect_of_apply (h : s.Has i session out)
    (halive : (s.apply m).worker.phase ≠ .killed)
    (hsubmit : ∀ r, m = .submit r → r.connection ≠ i) :
    ∃ session' out', (s.apply m).Has i session' out' ∧
      s.Effect i session out m session' out' := by
  have hnothing (haside : s.Aside i m) (hafter : (s.apply m).Has i session out) :
      ∃ session' out', (s.apply m).Has i session' out' ∧ s.Effect i session out m session' out' :=
    ⟨session, out, hafter, .none haside⟩
  -- First the three parties, which come with their own lemmas, then what comes from outside.
  cases m with
  | handler k =>
    by_cases hk : k = i
    · subst hk
      exact effect_of_handler h
    · exact hnothing (aside_of_handler hk) (h.other_handler hk)
  | worker =>
    obtain ⟨out', hafter, heffect⟩ := effect_of_worker h
    exact ⟨session, out', hafter, heffect⟩
  | registry =>
    obtain ⟨session', hafter, heffect⟩ := effect_of_registry h
    exact ⟨session', out, hafter, heffect⟩
  | connect =>
    refine hnothing (aside_of_other (by simp)) ?_
    simp only [apply]
    split
    · exact h.addConnection _ _
    · exact h
  | refuse | attach => exact hnothing (aside_of_other (by simp)) (h.addConnection _ _)
  | detach k => exact hnothing (aside_of_other (by simp)) (h.detach k)
  | submit request =>
    refine hnothing (aside_of_ne (by simp) (by simp) hsubmit) ?_
    rcases s.apply_submit request with heq | ⟨-, -, heq⟩ <;> rw [heq] <;> exact h
  | arrive k chunk =>
    obtain ⟨session', hafter, heffect⟩ := effect_of_input (m := .arrive k chunk)
      (f := (·.arrive chunk)) h (aside_of_other (by simp)) rfl
      fun hframed => hframed.arrive chunk
    exact ⟨session', out, hafter, heffect⟩
  | finish k ending =>
    obtain ⟨session', hafter, heffect⟩ := effect_of_input (m := .finish k ending)
      (f := (·.finish ending)) h (aside_of_other (by simp)) rfl
      fun hframed => hframed.finish ending
    exact ⟨session', out, hafter, heffect⟩
  | read k limit =>
    obtain ⟨out', hafter, heffect⟩ := effect_of_pipe (m := .read k limit)
      (f := fun p => (p.read limit).1) h (aside_of_other (by simp)) rfl
      (by unfold Pipe.read; split <;> rfl)
      (by unfold Pipe.read; split <;> rfl)
    exact ⟨session, out', hafter, heffect⟩
  | deafen k =>
    obtain ⟨out', hafter, heffect⟩ := effect_of_pipe (m := .deafen k) (f := Pipe.deafen) h
      (aside_of_other (by simp)) rfl rfl rfl
    exact ⟨session, out', hafter, heffect⟩
  | wait | age | cancel | release | killRegistry =>
    exact hnothing (aside_of_other (by simp)) h
  | killWorker =>
    refine hnothing (aside_of_other (by simp)) ?_
    rwa [killWorker_of_alive halive]

end Apply

/-! ### Runs -/

/-- Limits are given once and for all. -/
theorem limits_apply (s : Service) (m : Move) : (s.apply m).limits = s.limits :=
  (s.frame_apply m).limits

/-- A session begins when its client connects, on a new connection. -/
theorem connect_of_session (hnone : s.session? i = none)
    (h : (s.apply m).session? i = some session) :
    ∃ peer capacity timeout, m = .connect peer capacity timeout ∧ s.queueHeld = true ∧
      i = s.connections.length := by
  have hnever {session' : Session} : s.session? i ≠ some session' := by simp [hnone]
  -- All other moves only change sessions that are there already.
  by_cases hm : ∃ k, m = .handler k
  · obtain ⟨k, rfl⟩ := hm
    rcases session_of_handler h with hsame | ⟨before, hbefore, -⟩
    · exact absurd hsame hnever
    · exact absurd hbefore hnever
  · rcases session_of_other (fun k hk => hm ⟨k, hk⟩) h with
      (hsame | ⟨before, hbefore, -⟩) | ⟨peer, capacity, timeout, rfl, hi, -⟩
    · exact absurd hsame hnever
    · exact absurd hbefore hnever
    · refine ⟨peer, capacity, timeout, rfl, ?_, hi⟩
      by_contra hheld
      rw [apply, if_neg hheld] at h
      exact hnever h

/-- Where there is no session, and nothing was asked for it, nothing is said or asked. -/
theorem aside_of_no_session (htaken : s.Taken) (hnone : s.session? i = none)
    (hrequests : s.requestsFor i = []) (hsubmit : ∀ r, m = .submit r → r.connection ≠ i) :
    s.Aside i m := by
  by_cases hworker : m = .worker
  · subst hworker
    refine aside_of_worker ?_
    by_contra hsome
    obtain ⟨u, hu⟩ := Option.ne_none_iff_exists'.mp hsome
    obtain ⟨r, hr, -⟩ := Option.map_eq_some_iff.mp hu
    obtain ⟨hr, hi⟩ := Option.filter_eq_some_iff.mp hr
    -- The worker would reply to a request that was taken in.
    have hmem : r ∈ s.requestsFor i :=
      mem_requestsFor.mpr ⟨htaken.answered r (request?_of_reply hr), by simpa using hi⟩
    rw [hrequests] at hmem
    cases hmem
  by_cases hhandler : ∃ k, m = .handler k
  · obtain ⟨k, rfl⟩ := hhandler
    by_cases hk : k = i
    · subst hk
      refine ⟨by rw [said?, if_pos rfl, hnone]; rfl, ?_⟩
      intro r hr
      obtain ⟨c, hc, hr⟩ := Option.bind_eq_some_iff.mp hr
      obtain ⟨session, hsession, -⟩ := Option.bind_eq_some_iff.mp hr
      rw [session?, hc, Option.bind_some, hsession] at hnone
      cases hnone
    · exact aside_of_handler hk
  · exact aside_of_ne hworker (fun k hk => hhandler ⟨k, hk⟩) hsubmit

section Run

variable {limits : SessionLimits} {queueCapacity : Nat} {moves : List Move}

/-- Before its session begins, nothing is said to a client, and nothing asked for it. -/
theorem silent_before (hsubmit : ∀ r, Move.submit r ∈ moves → r.connection ≠ i)
    (halive : ((start limits queueCapacity).applyAll moves).worker.phase ≠ .killed)
    (hnone : ((start limits queueCapacity).applyAll moves).session? i = none) :
    (start limits queueCapacity).saidIn i moves = [] ∧
      ((start limits queueCapacity).applyAll moves).requestsFor i = [] := by
  induction moves using List.reverseRecOn with
  | nil => exact ⟨rfl, rfl⟩
  | append_singleton moves m ih =>
    rw [applyAll_concat] at halive hnone
    -- A session does not go away, so there was none before the last move either.
    have hbefore : ((start limits queueCapacity).applyAll moves).session? i = none := by
      by_contra hsome
      obtain ⟨session, hsession⟩ := Option.ne_none_iff_exists'.mp hsome
      obtain ⟨out, hhas⟩ := has_of_session? hsession
      obtain ⟨session', out', hafter, -⟩ := effect_of_apply (m := m) hhas halive
        fun r hr => hsubmit r (by rw [hr]; simp)
      rw [(has_iff.mp hafter).1] at hnone
      cases hnone
    obtain ⟨hsaid, hrequests⟩ := ih (fun r hr => hsubmit r (List.mem_append_left _ hr))
      (alive_of_apply halive) hbefore
    have haside : ((start limits queueCapacity).applyAll moves).Aside i m :=
      aside_of_no_session (taken_of_reachable (Reachable.start.applyAll moves)) hbefore hrequests
        fun r hr => hsubmit r (by rw [hr]; simp)
    rw [saidIn_concat, hsaid, haside.quiet, applyAll_concat, haside.requestsFor, hrequests]
    exact ⟨rfl, rfl⟩

/-- **What a session keeps.** A property of the moves so far, a session and its output that holds
    when a session begins, and that is kept whatever happens to it, holds of it after every run. -/
theorem run_induction {P : List Move → Session → Channel → Prop}
    (hbegins : ∀ {moves : List Move} {peer : String} {capacity timeout : Nat},
      ((start limits queueCapacity).applyAll
        (moves ++ [.connect peer capacity timeout])).worker.phase ≠ .killed →
      (start limits queueCapacity).saidIn i (moves ++ [.connect peer capacity timeout]) = [] →
      ((start limits queueCapacity).applyAll
        (moves ++ [.connect peer capacity timeout])).requestsFor i = [] →
      P (moves ++ [.connect peer capacity timeout])
        { peer, phase := .reading ((start limits queueCapacity).applyAll moves).clock }
        (.create capacity timeout))
    (hkept : ∀ {moves : List Move} {m : Move} {session session' : Session} {out out' : Channel},
      ((start limits queueCapacity).applyAll (moves ++ [m])).worker.phase ≠ .killed →
      ((start limits queueCapacity).applyAll moves).Has i session out →
      ((start limits queueCapacity).applyAll moves).Effect i session out m session' out' →
      P moves session out → P (moves ++ [m]) session' out')
    (hsubmit : ∀ r, Move.submit r ∈ moves → r.connection ≠ i)
    (halive : ((start limits queueCapacity).applyAll moves).worker.phase ≠ .killed)
    (h : ((start limits queueCapacity).applyAll moves).Has i session out) :
    P moves session out := by
  induction moves using List.reverseRecOn generalizing session out with
  | nil =>
    obtain ⟨c, hc, -⟩ := h
    cases hc
  | append_singleton moves m ih =>
    have hsubmit' : ∀ r, Move.submit r ∈ moves → r.connection ≠ i :=
      fun r hr => hsubmit r (List.mem_append_left _ hr)
    have hm : ∀ r, m = .submit r → r.connection ≠ i :=
      fun r hr => hsubmit r (by rw [hr]; simp)
    have halive' := halive
    rw [applyAll_concat] at h halive'
    -- The session was there before the last move, or it begins with it.
    cases hbefore : ((start limits queueCapacity).applyAll moves).session? i with
    | some before =>
      obtain ⟨before', hhas⟩ := has_of_session? hbefore
      obtain ⟨session', out', hafter, heffect⟩ := effect_of_apply hhas halive' hm
      -- What the effect leads to is what is there after the move.
      obtain ⟨rfl, rfl⟩ := hafter.unique h
      exact hkept halive hhas heffect (ih hsubmit' (alive_of_apply halive') hhas)
    | none =>
      obtain ⟨peer, capacity, timeout, rfl, hheld, rfl⟩ :=
        connect_of_session hbefore (has_iff.mp h).1
      obtain ⟨hsaid, hrequests⟩ := silent_before hsubmit' (alive_of_apply halive') hbefore
      have haside := aside_of_no_session (taken_of_reachable (Reachable.start.applyAll moves))
        hbefore hrequests hm
      obtain ⟨c, hc, hhandler, rfl⟩ := h
      rw [apply, if_pos hheld, connect, getElem?_addConnection, if_pos rfl] at hc
      cases hc
      cases hhandler
      refine hbegins halive ?_ ?_
      · rw [saidIn_concat, hsaid, haside.quiet]
        rfl
      · rw [applyAll_concat, haside.requestsFor, hrequests]

end Run

end Service

end Reckoner
