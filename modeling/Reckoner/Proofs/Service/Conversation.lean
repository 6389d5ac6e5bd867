import Reckoner.Proofs.Service.Effect
import Reckoner.Proofs.Session.Wording

/-!
# Sessions converse

A session and the worker write to the output of a client, each in its own time.  What the two of
them have said is always a conversation, and the session is at the stage that it has led to.

* `Service.Converses` — how the stage of a conversation fits to what its session is doing, which
  requests were taken in for it, and which lines its output carries.
* `Service.Converses.step`, `Service.Converses.reply` — what the session and the worker say next.
* `Service.Converses.effect` — whatever can happen to a session keeps it so.
-/

namespace Reckoner

namespace Service

variable {s : Service} {m : Move} {i : Nat} {session session' : Session} {out out' : Channel}
  {stage : TalkStage} {said : List Utterance}

/-- The lines of what was said. -/
def linesOf (said : List Utterance) : List Bytes := said.map fun u => u.response.line

@[simp] theorem linesOf_append (said others : List Utterance) :
    linesOf (said ++ others) = linesOf said ++ linesOf others := List.map_append

/-! ### Sessions and what was said -/

/-- **Conversing.** What was said to a client has led to the stage, at which the session does what
    it is doing.  Each line of it is one line, and all of them are in the output, but for what its
    jobs have still to write.  Requests were taken in under the client's name, and none but these
    were replied to.  No job is to close the output but that of a session that has ended. -/
structure Converses (s : Service) (i : Nat) (stage : TalkStage) (said : List Utterance)
    (session : Session) (out : Channel) : Prop where
  follows : TalkStage.before.follow? said = some stage
  standing : session.AtStage stage
  plain : session.Plain (lineLimit s.limits.longestLine)
  lines : ∀ u ∈ said, u.response.IsLine
  requests : ∀ r ∈ s.requestsFor i, stage.name? = some r.client
  replied : ∀ r, Utterance.reply r ∈ said → r ∈ s.requestsFor i
  carries : out.Carries out.jobs (linesOf said)
  closing : ∀ job ∈ out.jobs, job.work.closes = true → ∃ e, session.phase = .shutting job.ticket e

/-- Whatever job gets on, the output carries the same lines. -/
theorem carries_poll {lines : List Bytes} (h : out.Carries out.jobs lines) (horderly : out.Orderly)
    (clock ticket : Nat) : (out.poll clock ticket).channel.Carries
      (out.poll clock ticket).channel.jobs lines := by
  obtain ⟨queue, hjobs, hcarries, -⟩ :=
    h.poll horderly (List.append_nil _).symm (fun _ => rfl) clock ticket
  rw [List.append_nil] at hjobs
  rwa [hjobs]

/-- A name that was given to a client stays with it. -/
theorem name?_of_follow {u? : Option Utterance} {stage' : TalkStage} {name : String}
    (h : stage.follow? u?.toList = some stage') (hname : stage.name? = some name) :
    stage'.name? = some name := by
  cases u? with
  | none =>
    cases h
    exact hname
  | some u => exact TalkStage.name?_of_next ((stage.follow?_singleton u).symm.trans h) hname

/-- What a session submits it submits while it reads, under the name that it has joined under. -/
theorem reading_of_request {o : Outlook} {next : SessionStep} {r : Request}
    (h : session.Transition o out next) (hr : next.errand.bind (Errand.request? i) = some r) :
    (∃ since, session.phase = .reading since) ∧ r.connection = i ∧
      ∃ j, session.joined = some j ∧ r.client = j.name := by
  obtain ⟨errand, herrand, hr⟩ := Option.bind_eq_some_iff.mp hr
  cases errand with
  | register | deregister => cases hr
  | submit client expression =>
    cases hr
    obtain ⟨since, j, -, -, -, -, hphase, hjoined, hclient, -⟩ :=
      reads_of_request ((h.submits client expression).mp herrand).1
    exact ⟨⟨since, hphase⟩, rfl, j, hjoined, hclient⟩

/-- What the session says is in the output then. -/
theorem carries_of_writes {clock : Nat} {lines : List Bytes}
    (h : session.Writes clock out session' out') (horderly : out.Orderly)
    (hcarries : out.Carries out.jobs lines) :
    out'.Carries out'.jobs (lines ++ linesOf session.saying?.toList) := by
  have hquiet (hnone : session.saying? = none) :
      lines ++ linesOf session.saying?.toList = lines := by
    rw [hnone]
    exact List.append_nil _
  cases h with
  | nothing hnone =>
    rw [hquiet hnone]
    exact hcarries
  | starts hphase =>
    rw [Session.saying?, hphase]
    exact hcarries.startLine (Response.line_ne_nil _)
  | closes hphase =>
    rw [hquiet (by rw [Session.saying?, hphase])]
    exact hcarries.startClose
  | carriesOn hnone =>
    rw [hquiet hnone]
    exact carries_poll hcarries horderly _ _

/-- A job to close the output is that of a session that has ended. -/
theorem closing_of_writes {clock : Nat} (h : session.Writes clock out session' out')
    (horderly : out.Orderly) (hclosing : ∀ job ∈ out.jobs, job.work.closes = true →
      ∃ e, session.phase = .shutting job.ticket e) :
    ∀ job ∈ out'.jobs, job.work.closes = true → ∃ e, session'.phase = .shutting job.ticket e := by
  intro job hjob hcloses
  cases h with
  | nothing _ hticket =>
    obtain ⟨e, hphase⟩ := hclosing job hjob hcloses
    rw [Session.ticket?, hphase] at hticket
    cases hticket
  | starts hphase =>
    rcases List.mem_append.mp hjob with hjob | hjob
    · obtain ⟨e, hshuts⟩ := hclosing job hjob hcloses
      rw [hphase] at hshuts
      cases hshuts
    · rw [List.mem_singleton.mp hjob] at hcloses
      cases hcloses
  | closes hphase hnext =>
    rcases List.mem_append.mp hjob with hjob | hjob
    · obtain ⟨e, hshuts⟩ := hclosing job hjob hcloses
      rw [hphase] at hshuts
      cases hshuts
    · rw [List.mem_singleton.mp hjob]
      exact ⟨_, hnext⟩
  | carriesOn _ hticket hstays =>
    -- It was its job before, and is left only if it has no result.
    obtain ⟨before, hbefore, hsame, hkind⟩ := Channel.mem_of_poll hjob
    obtain ⟨e, hphase⟩ := hclosing before hbefore (hkind.trans hcloses)
    rw [Session.ticket?, hphase, hsame] at hticket
    cases hticket
    exact ⟨e, by rw [hstays (horderly.progress_of_mem_poll hjob), hphase, hsame]⟩

/-- The session takes a step. -/
theorem Converses.step (h : s.Converses i stage said session out) (horderly : out.Orderly)
    {next : SessionStep} (hstep : session.Transition s.outlook out next)
    (hsaid : s.said? i (.handler i) = session.saying?)
    (hrequests : (s.apply (.handler i)).requestsFor i
      = s.requestsFor i ++ (next.errand.bind (Errand.request? i)).toList) :
    ∃ stage', (s.apply (.handler i)).Converses i stage'
      (said ++ (s.said? i (.handler i)).toList) next.session next.output := by
  obtain ⟨stage', hfollow, hstanding⟩ := hstep.atStage h.standing
  rw [hsaid]
  refine ⟨stage', ?_, hstanding, ?_, ?_, ?_, ?_, ?_, ?_⟩
  · rw [TalkStage.follow?_append, h.follows, Option.bind_some, hfollow]
  · rw [limits_apply]
    exact hstep.plain h.plain
  · intro u hu
    rcases List.mem_append.mp hu with hu | hu
    · exact h.lines u hu
    · rw [Option.mem_toList] at hu
      unfold Session.saying? at hu
      split at hu
      · rename_i hphase
        cases hu
        exact h.plain.spoken hphase
      · cases hu
  · intro r hr
    rw [hrequests, List.mem_append, Option.mem_toList] at hr
    rcases hr with hr | hr
    · exact name?_of_follow hfollow (h.requests r hr)
    · -- It is submitted while the session reads, and then the stage is that of its name.
      obtain ⟨⟨since, hphase⟩, -, j, hjoined, hclient⟩ := reading_of_request hstep hr
      refine name?_of_follow hfollow ?_
      rw [h.standing.of_reading hphase, Session.home_of_joined hjoined, hclient]
      rfl
  · intro r hr
    rw [hrequests]
    refine List.mem_append_left _ (h.replied r ?_)
    refine (List.mem_append.mp hr).resolve_right fun hnew => ?_
    -- What a session says is no reply.
    rw [Option.mem_toList] at hnew
    unfold Session.saying? at hnew
    split at hnew <;> cases hnew
  · rw [linesOf_append]
    exact carries_of_writes hstep.writes horderly h.carries
  · exact closing_of_writes hstep.writes horderly h.closing

/-- The worker starts a reply. -/
theorem Converses.reply (h : s.Converses i stage said session out) (htaken : s.Taken)
    {r : Request} {outcome : Outcome} (hphase : s.worker.phase = .answering r outcome)
    (hi : r.connection = i) : (s.apply .worker).Converses i stage (said ++ [.reply r]) session
      (out.startLine (r.reply outcome).line).1 := by
  obtain rfl : outcome = r.outcome := htaken.outcome (.inl hphase)
  have haccepted : r ∈ s.queue.accepted :=
    htaken.answered r (by rw [Worker.request?, hphase]; rfl)
  have hmem : r ∈ s.requestsFor i := mem_requestsFor.mpr ⟨haccepted, hi⟩
  -- Since the request was taken in, its client is welcome, at whatever stage it is by now.
  have hname := h.requests r hmem
  have hrequests := s.requestsFor_worker i
  refine ⟨?_, h.standing, ?_, ?_, ?_, ?_, ?_, ?_⟩
  · exact TalkStage.follow?_concat h.follows (TalkStage.next?_reply hname)
  · rw [limits_apply]
    exact h.plain
  · intro u hu
    rcases List.mem_append.mp hu with hu | hu
    · exact h.lines u hu
    · obtain ⟨j, hjoined, hclient⟩ := h.standing.joined hname
      rw [List.mem_singleton.mp hu]
      exact Request.isLine_reply (hclient ▸ h.plain.joined hjoined)
  · rw [hrequests]
    exact h.requests
  · intro r' hr'
    rw [hrequests]
    rcases List.mem_append.mp hr' with hr' | hr'
    · exact h.replied r' hr'
    · cases List.mem_singleton.mp hr'
      exact hmem
  · rw [linesOf_append]
    exact h.carries.startLine (Response.line_ne_nil _)
  · intro job hjob hcloses
    rcases List.mem_append.mp hjob with hjob | hjob
    · exact h.closing job hjob hcloses
    · rw [List.mem_singleton.mp hjob] at hcloses
      cases hcloses

/-- Nothing is said, and nothing asked for. -/
theorem Converses.still (h : s.Converses i stage said session out)
    (hrequests : (s.apply m).requestsFor i = s.requestsFor i)
    (hstanding : session'.AtStage stage) (hplain : session'.Plain (lineLimit s.limits.longestLine))
    (hcarries : out'.Carries out'.jobs (linesOf said))
    (hclosing : ∀ job ∈ out'.jobs, job.work.closes = true →
      ∃ e, session'.phase = .shutting job.ticket e) :
    (s.apply m).Converses i stage said session' out' := by
  refine ⟨h.follows, hstanding, ?_, h.lines, ?_, ?_, hcarries, hclosing⟩
  · rw [limits_apply]
    exact hplain
  · rw [hrequests]
    exact h.requests
  · rw [hrequests]
    exact h.replied

/-- **The conversation goes on.** Whatever happens to the session, what was said to its client then
    has led to the stage that it is at. -/
theorem Converses.effect (h : s.Converses i stage said session out) (htaken : s.Taken)
    (horderly : out.Orderly) (heffect : s.Effect i session out m session' out') :
    ∃ stage', (s.apply m).Converses i stage' (said ++ (s.said? i m).toList) session' out' := by
  cases heffect with
  | step hstep hsaid hrequests => exact h.step horderly hstep hsaid hrequests
  | reply hphase hi hsaid =>
    rw [hsaid]
    exact ⟨stage, h.reply htaken hphase hi⟩
  | carryOn hphase hi hsaid =>
    rw [hsaid, Option.toList_none, List.append_nil]
    refine ⟨stage, h.still (aside_of_worker hsaid).requestsFor h.standing h.plain
      (carries_poll h.carries horderly _ _) ?_⟩
    intro job hjob hcloses
    obtain ⟨before, hbefore, hticket, hkind⟩ := Channel.mem_of_poll hjob
    rw [← hticket]
    exact h.closing before hbefore (hkind.trans hcloses)
  | hear answer =>
    have haside : s.Aside i .registry := aside_of_other (by simp)
    have hhears := session.hears_hear answer
    rw [haside.quiet, Option.toList_none, List.append_nil]
    refine ⟨stage, h.still haside.requestsFor (h.standing.hear hhears) (h.plain.hear hhears)
      h.carries ?_⟩
    intro job hjob hcloses
    obtain ⟨e, hphase⟩ := h.closing job hjob hcloses
    exact ⟨e, by simp [Session.hear, hphase]⟩
  | input haside hframed =>
    rw [haside.quiet, Option.toList_none, List.append_nil]
    exact ⟨stage, h.still haside.requestsFor (h.standing.congr rfl)
      ⟨hframed h.plain.framed, h.plain.joined, h.plain.wanted, h.plain.spoken⟩ h.carries h.closing⟩
  | pipe haside hpipe =>
    rw [haside.quiet, Option.toList_none, List.append_nil]
    exact ⟨stage, h.still haside.requestsFor h.standing h.plain (h.carries.congr rfl rfl hpipe)
      h.closing⟩
  | none haside =>
    rw [haside.quiet, Option.toList_none, List.append_nil]
    exact ⟨stage, h.still haside.requestsFor h.standing h.plain h.carries h.closing⟩

end Service

end Reckoner
