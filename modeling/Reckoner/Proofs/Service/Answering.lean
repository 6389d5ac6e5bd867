import Reckoner.Proofs.Service.Transcript

/-!
# Every line gets one answer

A line that a session handles is answered by the session, or it becomes a request, which the worker
replies to.  No line is answered twice, and none is passed over.

* `Service.Suits` — what can be an answer to a line.
* `Service.Balanced` — each line has its answer, and there are no others.
* `Service.Answering` — the lines of a session are balanced, but for the one that it is at.
* `Service.Answering.step` — a step of the session keeps it so.
* `Service.Settled`, `Service.settled_of_idle` — what that comes to when a session waits for a line.
-/

namespace Reckoner

/-- The session takes no more lines: its client has left, or it ends. -/
def Session.takesNoMore (s : Session) : Bool :=
  match s.phase with
  | .reading _ | .asking _ | .joining _ | .joinAnswered _ _ | .answering _ .readOn
  | .sending _ .readOn => false
  | _ => true

namespace Service

variable {s s' : Service} {m : Move} {i : Nat} {session session' : Session} {out out' : Channel}
  {said : List Utterance} {requests : List Request} {lines : List String} {line : String}

/-! ### Answers -/

/-- **Answers.** A line is turned down, lets its client in, or becomes a request that is replied
    to. -/
inductive Suits (i : Nat) (line : String) : Utterance → Prop where
  /-- Any line may be turned down. -/
  | refused {text : String} : Suits i line (.notice (.error text))
  /-- The client is welcome. -/
  | welcome {name : String} (hcommand : Command.ofLine line = .join name) :
      Suits i line (.notice (.welcome name))
  /-- The worker replies. -/
  | reply {r : Request} {given : String} (hi : r.connection = i)
      (hcommand : Command.ofLine line = .calculate given r.expression) : Suits i line (.reply r)

/-- **Balance.** Each line has an answer.  The notices among the answers are those that were given,
    and the replies are those to the requests, both in the order of the lines. -/
def Balanced (i : Nat) (requests : List Request) (said : List Utterance) (lines : List String) :
    Prop :=
  ∃ answers, List.Forall₂ (Suits i) lines answers ∧
    answers.filterMap Utterance.notice? = said.filterMap Utterance.notice? ∧
    answers.filterMap Utterance.reply? = requests

theorem balanced_nil (i : Nat) : Balanced i [] [] [] := ⟨[], .nil, rfl, rfl⟩

theorem Balanced.notice (h : Balanced i requests said lines) {r : Response}
    (hsuits : Suits i line (.notice r)) :
    Balanced i requests (said ++ [.notice r]) (lines ++ [line]) := by
  obtain ⟨answers, hpairs, hnotices, hreplies⟩ := h
  refine ⟨answers ++ [.notice r], List.rel_append hpairs (.cons hsuits .nil), ?_, ?_⟩
  · rw [List.filterMap_append, List.filterMap_append, hnotices]
  · rw [List.filterMap_append, hreplies]
    exact List.append_nil _

theorem Balanced.request (h : Balanced i requests said lines) {r : Request}
    (hsuits : Suits i line (.reply r)) : Balanced i (requests ++ [r]) said (lines ++ [line]) := by
  obtain ⟨answers, hpairs, hnotices, hreplies⟩ := h
  refine ⟨answers ++ [.reply r], List.rel_append hpairs (.cons hsuits .nil), ?_, ?_⟩
  · rw [List.filterMap_append, hnotices]
    exact List.append_nil _
  · rw [List.filterMap_append, hreplies]
    rfl

/-- The replies themselves are given by the worker, in its own time. -/
theorem Balanced.reply (h : Balanced i requests said lines) (r : Request) :
    Balanced i requests (said ++ [.reply r]) lines := by
  obtain ⟨answers, hpairs, hnotices, hreplies⟩ := h
  refine ⟨answers, hpairs, ?_, hreplies⟩
  rw [List.filterMap_append, hnotices]
  exact (List.append_nil _).symm

theorem length_eq_notices_add_replies (said : List Utterance) :
    said.length = (said.filterMap Utterance.notice?).length
      + (said.filterMap Utterance.reply?).length := by
  induction said with
  | nil => rfl
  | cons u said ih =>
    cases u with
    | notice r =>
      simp only [List.filterMap_cons, Utterance.notice?, Utterance.reply?, List.length_cons, ih]
      omega
    | reply r =>
      simp only [List.filterMap_cons, Utterance.notice?, Utterance.reply?, List.length_cons, ih]
      omega

theorem Balanced.length (h : Balanced i requests said lines) :
    lines.length = (said.filterMap Utterance.notice?).length + requests.length := by
  obtain ⟨answers, hpairs, hnotices, hreplies⟩ := h
  rw [hpairs.length_eq, length_eq_notices_add_replies, hnotices, hreplies]

/-! ### Sessions -/

/-- **Answering.** All lines that a session has handled are balanced, but for the one that it is
    about to answer.  What becomes of a session that takes no more lines does not matter. -/
inductive Answering (i : Nat) (requests : List Request) (said : List Utterance)
    (session : Session) : Prop where
  /-- It is at no line. -/
  | reads (hphase : (∃ since, session.phase = .reading since) ∨
        ∃ ticket, session.phase = .sending ticket .readOn)
      (hbalanced : Balanced i requests said session.handled) : Answering i requests said session
  /-- The client wants to join. -/
  | joins {earlier : List String} {line name : String} (hwanted : session.wanted? = some name)
      (hhandled : session.handled = earlier ++ [line]) (hcommand : Command.ofLine line = .join name)
      (hbalanced : Balanced i requests said earlier) : Answering i requests said session
  /-- There is an answer. -/
  | speaks {earlier : List String} {line : String} {r : Response}
      (hphase : session.phase = .answering r .readOn)
      (hhandled : session.handled = earlier ++ [line]) (hsuits : Suits i line (.notice r))
      (hbalanced : Balanced i requests said earlier) : Answering i requests said session
  /-- It takes no more lines. -/
  | done (hdone : session.takesNoMore = true) : Answering i requests said session

/-- It is a matter of what the session is doing, and of the lines that it has handled. -/
theorem Answering.congr (h : Answering i requests said session)
    (hphase : session'.phase = session.phase) (hhandled : session'.handled = session.handled) :
    Answering i requests said session' := by
  cases h with
  | reads hreads hbalanced => exact .reads (by rwa [hphase]) (by rwa [hhandled])
  | joins hwanted hlines hcommand hbalanced =>
    exact .joins (by rwa [Session.wanted?, hphase]) (hhandled.trans hlines) hcommand hbalanced
  | speaks hspeaks hlines hsuits hbalanced =>
    exact .speaks (hphase.trans hspeaks) (hhandled.trans hlines) hsuits hbalanced
  | done hdone => exact .done (by rwa [Session.takesNoMore, hphase])

/-! The phase tells which of these it is. -/

theorem Answering.balanced (h : Answering i requests said session)
    (hphase : (∃ since, session.phase = .reading since) ∨
      ∃ ticket, session.phase = .sending ticket .readOn) :
    Balanced i requests said session.handled := by
  cases h with
  | reads _ hbalanced => exact hbalanced
  | joins hwanted =>
    rcases hphase with ⟨since, hphase⟩ | ⟨ticket, hphase⟩ <;>
      simp [Session.wanted?, hphase] at hwanted
  | speaks hspeaks =>
    rcases hphase with ⟨since, hphase⟩ | ⟨ticket, hphase⟩ <;> cases hphase.symm.trans hspeaks
  | done hdone =>
    rcases hphase with ⟨since, hphase⟩ | ⟨ticket, hphase⟩ <;>
      simp [Session.takesNoMore, hphase] at hdone

theorem Answering.of_wanted (h : Answering i requests said session) {name : String}
    (hwanted : session.wanted? = some name) : ∃ earlier line,
      session.handled = earlier ++ [line] ∧ Command.ofLine line = .join name ∧
        Balanced i requests said earlier := by
  unfold Session.wanted? at hwanted
  cases h with
  | reads hreads =>
    rcases hreads with ⟨since, hphase⟩ | ⟨ticket, hphase⟩ <;> simp [hphase] at hwanted
  | joins hsame hlines hcommand hbalanced =>
    rw [Session.wanted?, hwanted] at hsame
    cases hsame
    exact ⟨_, _, hlines, hcommand, hbalanced⟩
  | speaks hspeaks => simp [hspeaks] at hwanted
  | done hdone =>
    unfold Session.takesNoMore at hdone
    split at hwanted <;> simp_all

theorem Answering.of_answering (h : Answering i requests said session) {r : Response}
    (hphase : session.phase = .answering r .readOn) : ∃ earlier line,
      session.handled = earlier ++ [line] ∧ Suits i line (.notice r) ∧
        Balanced i requests said earlier := by
  cases h with
  | reads hreads =>
    rcases hreads with ⟨since, hreads⟩ | ⟨ticket, hreads⟩ <;> cases hphase.symm.trans hreads
  | joins hwanted => simp [Session.wanted?, hphase] at hwanted
  | speaks hspeaks hlines hsuits hbalanced =>
    cases hphase.symm.trans hspeaks
    exact ⟨_, _, hlines, hsuits, hbalanced⟩
  | done hdone => simp [Session.takesNoMore, hphase] at hdone

/-- **One answer each.** A step handles a line only when all others are balanced, and answers it, or
    makes it a request, or has an answer ready. -/
theorem Answering.step {o : Outlook} {next : SessionStep} (h : Answering i requests said session)
    (hstep : session.Transition o out next) :
    Answering i (requests ++ (next.errand.bind (Errand.request? i)).toList)
      (said ++ session.saying?.toList) next.session := by
  -- Most steps say nothing.
  have hquiet {requests' : List Request} {session' : Session} (hnone : session.saying? = none)
      (hnext : Answering i requests' said session') :
      Answering i requests' (said ++ session.saying?.toList) session' := by
    rwa [hnone, Option.toList_none, List.append_nil]
  have hnothing : requests ++ (none : Option Request).toList = requests := List.append_nil _
  cases hstep with
  | cancel | notice | expire | runOut | requestLost | askLost | writeFail | bidFarewell | cleanUp
  | giveBack | close | finish | leave => exact .done rfl
  | skip | giveBackLost | signOff =>
    refine .done ?_
    unfold Session.phaseOfClose
    split <;> rfl
  | gather hphase =>
    refine hquiet (by rw [Session.saying?, hphase]) (hnothing.symm ▸ ?_)
    exact .reads (.inl ⟨_, hphase⟩) (h.balanced (.inl ⟨_, hphase⟩))
  | reject hphase hreads hline hreject =>
    refine hquiet (by rw [Session.saying?, hphase]) (hnothing.symm ▸ ?_)
    obtain ⟨text, rfl⟩ := Session.isError_of_rejection hreject
    exact .speaks rfl rfl .refused (h.balanced (.inl ⟨_, hphase⟩))
  | want hphase hreads hline hcommand =>
    refine hquiet (by rw [Session.saying?, hphase]) (hnothing.symm ▸ ?_)
    exact .joins rfl rfl hcommand (h.balanced (.inl ⟨_, hphase⟩))
  | @request _ _ input _ line given expression j hphase hreads hline hcommand =>
    refine hquiet (by rw [Session.saying?, hphase]) ?_
    exact .reads (.inl ⟨_, rfl⟩)
      ((h.balanced (.inl ⟨_, hphase⟩)).request (.reply (r := ⟨j.name, expression, i⟩) rfl hcommand))
  | ask hphase =>
    refine hquiet (by rw [Session.saying?, hphase]) (hnothing.symm ▸ ?_)
    obtain ⟨earlier, line, hlines, hcommand, hbalanced⟩ :=
      h.of_wanted (by rw [Session.wanted?, hphase])
    exact .joins rfl hlines hcommand hbalanced
  | join hphase =>
    refine hquiet (by rw [Session.saying?, hphase]) (hnothing.symm ▸ ?_)
    obtain ⟨earlier, line, hlines, hcommand, hbalanced⟩ :=
      h.of_wanted (by rw [Session.wanted?, hphase])
    unfold Session.phaseOfReply
    split
    · exact .done rfl
    · exact .speaks rfl hlines (.welcome hcommand) hbalanced
  | deny hphase =>
    refine hquiet (by rw [Session.saying?, hphase]) (hnothing.symm ▸ ?_)
    obtain ⟨earlier, line, hlines, hcommand, hbalanced⟩ :=
      h.of_wanted (by rw [Session.wanted?, hphase])
    unfold Session.phaseOfReply
    split
    · exact .done rfl
    · exact .speaks rfl hlines .refused hbalanced
  | @answer r after _ hphase =>
    cases after with
    | leave => exact .done rfl
    | readOn =>
      obtain ⟨earlier, line, hlines, hsuits, hbalanced⟩ := h.of_answering hphase
      rw [Session.saying?, hphase]
      refine .reads (.inr ⟨_, rfl⟩) (hnothing.symm ▸ ?_)
      rw [hlines]
      exact hbalanced.notice hsuits
  | write hphase | shut hphase =>
    exact hquiet (by rw [Session.saying?, hphase]) (hnothing.symm ▸ h)
  | readOn hphase =>
    refine hquiet (by rw [Session.saying?, hphase]) (hnothing.symm ▸ ?_)
    exact .reads (.inl ⟨_, rfl⟩) (h.balanced (.inr ⟨_, hphase⟩))

/-- The worker replies. -/
theorem Answering.reply (h : Answering i requests said session) (r : Request) :
    Answering i requests (said ++ [.reply r]) session := by
  cases h with
  | reads hphase hbalanced => exact .reads hphase (hbalanced.reply r)
  | joins hwanted hlines hcommand hbalanced =>
    exact .joins hwanted hlines hcommand (hbalanced.reply r)
  | speaks hphase hlines hsuits hbalanced => exact .speaks hphase hlines hsuits (hbalanced.reply r)
  | done hdone => exact .done hdone

/-- The registry answers. -/
theorem Answering.hear (h : Answering i requests said session) (hhears : session.Hears session') :
    Answering i requests said session' := by
  cases hhears with
  | joining free hphase =>
    obtain ⟨earlier, line, hlines, hcommand, hbalanced⟩ :=
      h.of_wanted (by rw [Session.wanted?, hphase])
    exact .joins rfl hlines hcommand hbalanced
  | deregistering => exact .done rfl
  | nothing => exact h

/-- Whatever happens to a session, its lines stay balanced. -/
theorem Answering.effect (h : Answering i (s.requestsFor i) said session)
    (heffect : s.Effect i session out m session' out') :
    Answering i ((s.apply m).requestsFor i) (said ++ (s.said? i m).toList) session' := by
  have hstill {m : Move} {session' : Session} (haside : s.Aside i m)
      (hnext : Answering i (s.requestsFor i) said session') :
      Answering i ((s.apply m).requestsFor i) (said ++ (s.said? i m).toList) session' := by
    rwa [haside.requestsFor, haside.quiet, Option.toList_none, List.append_nil]
  cases heffect with
  | step hstep hsaid hrequests =>
    rw [hsaid, hrequests]
    exact h.step hstep
  | reply hphase hi hsaid =>
    rw [hsaid, s.requestsFor_worker]
    exact h.reply _
  | carryOn hphase hi hsaid => exact hstill (aside_of_worker hsaid) h
  | hear answer => exact hstill (aside_of_other (by simp)) (h.hear (session.hears_hear answer))
  | input haside => exact hstill haside (h.congr rfl rfl)
  | pipe haside | none haside => exact hstill haside h

/-! ### Replies -/

/-- The requests that the worker has started to answer: those that it is done with, and the one
    whose reply it writes. -/
def attempted (s : Service) : List Request :=
  s.worker.completions.map Completion.request ++ s.replying?.toList

/-- The requests for a connection among them. -/
def attemptedFor (s : Service) (i : Nat) : List Request :=
  s.attempted.filter fun r => r.connection = i

/-- The requests for a connection that the worker is done with. -/
def completionsFor (s : Service) (i : Nat) : List Completion :=
  s.worker.completions.filter fun c => c.request.connection = i

/-- The worker is at the request whose reply it writes. -/
theorem request?_of_replying {r : Request} (h : s.replying? = some r) :
    s.worker.request? = some r := by
  cases hphase : s.worker.phase with
  | replying request outcome ticket =>
    rw [replying?, hphase] at h
    rw [Worker.request?, hphase]
    exact h
  | idle | answering | stopped | killed => simp [replying?, hphase] at h

/-- A move starts a reply to what it attempts, or the worker takes up a request for an output that
    is broken. -/
theorem attempted_apply (halive : (s.apply m).worker.phase ≠ .killed) :
    (s.apply m).attempted = s.attempted ++ (s.reply? m).toList ∨
      s.reply? m = none ∧ ∃ r output, s.output? r.connection = some output ∧
        output.broken = true ∧ (s.apply m).attempted = s.attempted ++ [r] := by
  rcases cases_of_alive halive with
    ⟨heq, hwaits⟩ | ⟨s', hworker, heq, hstep⟩ | ⟨hother, -, -, hsame, -⟩
  · have hnone : s.reply? m = none := by
      by_cases hworker : m = .worker
      · rw [hworker]
        exact reply?_of_waiting (hwaits hworker)
      · exact reply?_of_ne_worker hworker
    rw [heq, hnone]
    exact .inl (List.append_nil _).symm
  · subst hworker
    rw [heq]
    cases hstep with
    | @skip request waiting output _ hphase hwaiting houtput hbroken =>
      refine .inr ⟨by simp [reply?, hphase], request, output, houtput, hbroken, ?_⟩
      simp [attempted, replying?, hphase, Worker.complete]
    | take hphase | stop hphase | write hphase =>
      exact .inl (by simp [attempted, reply?, replying?, hphase])
    | answer hphase houtput =>
      exact .inl (by simp [attempted, reply?, replying?, hphase, houtput])
    | deliver hphase | fail hphase =>
      exact .inl (by simp [attempted, reply?, replying?, hphase, Worker.complete])
  · rw [reply?_of_ne_worker hother, attempted, replying?, hsame]
    exact .inl (List.append_nil _).symm

/-- Of what is said to a client, the replies are the worker's. -/
theorem replies_said? (s : Service) (i : Nat) (m : Move) :
    (s.said? i m).toList.filterMap Utterance.reply?
      = (s.reply? m).toList.filter fun r => r.connection = i := by
  by_cases hhandler : ∃ k, m = .handler k
  · obtain ⟨k, rfl⟩ := hhandler
    show _ = []
    rw [said?]
    split
    · cases s.session? i with
      | none => rfl
      | some session =>
        rw [Option.bind_some, Session.saying?]
        split <;> rfl
    · rfl
  · have hsaid : s.said? i m
        = ((s.reply? m).filter fun r => r.connection = i).map Utterance.reply := by
      cases m with
      | handler k => exact absurd ⟨k, rfl⟩ hhandler
      | _ => rfl
    rw [hsaid]
    cases s.reply? m with
    | none => rfl
    | some r => by_cases hi : r.connection = i <;> simp [Option.filter_some, hi, Utterance.reply?]

/-- Requests that were not taken in are not attempted. -/
theorem Ordered.attempted_sublist (h : s.Ordered) : s.attempted.Sublist s.queue.accepted := by
  rw [← h.order, List.append_assoc]
  refine (List.append_sublist_append_left _).mpr ?_
  refine List.Sublist.trans ?_ (List.sublist_append_left _ _)
  cases hreplying : s.replying? with
  | none => exact List.nil_sublist _
  | some r => rw [request?_of_replying hreplying]

/-- Where nothing for a connection waits or is being answered, the worker is done with all requests
    for it. -/
theorem Ordered.completionsFor (h : s.Ordered)
    (hidle : ∀ r, r ∈ s.queue.waiting ∨ s.worker.request? = some r → r.connection ≠ i) :
    (s.completionsFor i).map Completion.request = s.requestsFor i ∧
      s.attemptedFor i = s.requestsFor i := by
  -- Requests are done with, current or waiting, and the last two are for others.
  have hwaiting : (s.queue.waiting.filter fun r => r.connection = i) = [] := by
    rw [List.filter_eq_nil_iff]
    intro r hr
    simpa using hidle r (.inl hr)
  have hcurrent : (s.worker.request?.toList.filter fun r => r.connection = i) = [] := by
    rw [List.filter_eq_nil_iff]
    intro r hr
    simpa using hidle r (.inr (Option.mem_toList.mp hr))
  have hreplying : (s.replying?.toList.filter fun r => r.connection = i) = [] := by
    rw [List.filter_eq_nil_iff]
    intro r hr
    simpa using hidle r (.inr (request?_of_replying (Option.mem_toList.mp hr)))
  have hcompletions : (s.completionsFor i).map Completion.request
      = (s.worker.completions.map Completion.request).filter fun r => r.connection = i := by
    rw [List.filter_map]
    rfl
  constructor
  · rw [hcompletions, requestsFor, ← h.order, List.filter_append, List.filter_append, hcurrent,
      hwaiting, List.append_nil, List.append_nil]
  · rw [attemptedFor, attempted, requestsFor, ← h.order, List.filter_append, List.filter_append,
      List.filter_append, hcurrent, hwaiting, hreplying, List.append_nil, List.append_nil]

/-! ### Runs -/

section Run

variable {limits : SessionLimits} {queueCapacity : Nat} {moves : List Move}

theorem answering_of_run (hsubmit : ∀ r, Move.submit r ∈ moves → r.connection ≠ i)
    (halive : ((start limits queueCapacity).applyAll moves).worker.phase ≠ .killed)
    (h : ((start limits queueCapacity).applyAll moves).Has i session out) :
    Answering i (((start limits queueCapacity).applyAll moves).requestsFor i)
      ((start limits queueCapacity).saidIn i moves) session := by
  refine run_induction (P := fun moves session _ =>
    Answering i (((start limits queueCapacity).applyAll moves).requestsFor i)
      ((start limits queueCapacity).saidIn i moves) session) ?_ ?_ hsubmit halive h
  · rintro moves peer capacity timeout - hsaid hrequests
    rw [hsaid, hrequests]
    exact .reads (.inl ⟨_, rfl⟩) (balanced_nil i)
  · rintro moves m session session' out out' - - heffect hbefore
    rw [applyAll_concat, saidIn_concat]
    exact hbefore.effect heffect

/-- As long as an output is not broken, all that the worker has attempted for it are replies that it
    has started. -/
theorem replies_of_run (hsubmit : ∀ r, Move.submit r ∈ moves → r.connection ≠ i)
    (halive : ((start limits queueCapacity).applyAll moves).worker.phase ≠ .killed)
    (h : ((start limits queueCapacity).applyAll moves).Has i session out)
    (hsound : out.broken = false) :
    ((start limits queueCapacity).saidIn i moves).filterMap Utterance.reply?
      = ((start limits queueCapacity).applyAll moves).attemptedFor i := by
  refine run_induction (P := fun moves _ out => out.broken = false →
    ((start limits queueCapacity).saidIn i moves).filterMap Utterance.reply?
      = ((start limits queueCapacity).applyAll moves).attemptedFor i) ?_ ?_ hsubmit halive h hsound
  · rintro moves peer capacity timeout halive hsaid hrequests -
    have hordered := (ordered_start limits queueCapacity).applyAll _ halive
    have hnone := (hordered.attempted_sublist.filter fun r => r.connection = i)
    rw [hsaid]
    exact (List.sublist_nil.mp (hrequests ▸ hnone)).symm
  · rintro moves m session session' out out' halive hhas heffect hbefore hsound
    rw [applyAll_concat] at halive
    have hwas := heffect.sound hsound
    rw [saidIn_concat, List.filterMap_append, hbefore hwas, replies_said?, applyAll_concat,
      attemptedFor, attemptedFor]
    rcases attempted_apply halive with heq | ⟨hnone, r, output, houtput, hbroken, heq⟩
    · rw [heq, List.filter_append]
    · -- What the worker has passed over was not for this output, which is not broken.
      have hother : r.connection ≠ i := by
        rintro rfl
        rw [(has_iff.mp hhas).2] at houtput
        cases houtput
        exact absurd (hwas.symm.trans hbroken) nofun
      rw [heq, hnone, List.filter_append]
      simp [hother]

end Run

/-! ### When a session waits for a line -/

/-- **One answer each.** The lines that a session has handled are as many as the notices that it has
    given and the requests for it that the worker is done with, and each has one of these for its
    answer, the replies in the order of the lines.  If the output is not broken, it has taken one
    complete line for each, and not a byte more. -/
structure Settled (s : Service) (said : List Utterance) (i : Nat) (session : Session)
    (out : Channel) : Prop where
  count : session.handled.length
    = (said.filterMap Utterance.notice?).length + (s.completionsFor i).length
  balanced : Balanced i ((s.completionsFor i).map Completion.request) said session.handled
  length : out.broken = false → (completeLines out.pipe.accepted).length = session.handled.length
  offered : out.broken = false →
    completeLines out.pipe.accepted = said.map (fun u => utf8 u.response.text) ∧
      out.pipe.accepted = (linesOf said).flatten
  replies : out.broken = false →
    said.filterMap Utterance.reply? = (s.completionsFor i).map Completion.request

/-- A worker that is not at a request for a connection has no job on its output. -/
theorem ticketOn?_eq_none (h : ∀ r, s.worker.request? = some r → r.connection ≠ i) :
    s.worker.ticketOn? i = none := by
  cases hphase : s.worker.phase with
  | replying request outcome ticket =>
    exact (Worker.ticketOn?_replying hphase).2 i
      (h request (by rw [Worker.request?, hphase])).symm
  | idle | answering | stopped | killed => rw [Worker.ticketOn?, hphase]

/-- Where neither the session nor the worker writes, there are no jobs. -/
theorem jobs_eq_nil (h : s.Sharing) (hhas : s.Has i session out) (hsession : session.ticket? = none)
    (hworker : s.worker.ticketOn? i = none) : out.jobs = [] := by
  obtain ⟨c, hc, hhandler, rfl⟩ := hhas
  have hshared := h.shared hc
  rw [hhandler, hworker] at hshared
  rw [List.eq_nil_iff_forall_not_mem]
  intro job hjob
  rcases hshared.owner job hjob with hmine | hworkers
  · exact absurd (hsession.symm.trans hmine) nofun
  · cases hworkers

/-- **Every line gets one answer.** When a session waits for a line, and no request for it waits or
    is being answered, the lines that it has handled have their answers.  No request from outside
    the sessions names its connection, and nobody ends the worker by force. -/
theorem settled_of_idle {limits : SessionLimits} {queueCapacity : Nat} {moves : List Move}
    {since : Nat} (hsubmit : ∀ r, Move.submit r ∈ moves → r.connection ≠ i)
    (halive : ((start limits queueCapacity).applyAll moves).worker.phase ≠ .killed)
    (hsession : ((start limits queueCapacity).applyAll moves).session? i = some session)
    (hout : ((start limits queueCapacity).applyAll moves).output? i = some out)
    (hphase : session.phase = .reading since)
    (hidle : ∀ r, r ∈ ((start limits queueCapacity).applyAll moves).queue.waiting ∨
      ((start limits queueCapacity).applyAll moves).worker.request? = some r → r.connection ≠ i) :
    Settled ((start limits queueCapacity).applyAll moves)
      ((start limits queueCapacity).saidIn i moves) i session out := by
  have hhas := has_iff.mpr ⟨hsession, hout⟩
  have hordered := (ordered_start limits queueCapacity).applyAll moves halive
  obtain ⟨hcompletions, hattempted⟩ := hordered.completionsFor hidle
  have hbalanced := (answering_of_run hsubmit halive hhas).balanced (.inl ⟨_, hphase⟩)
  rw [← hcompletions] at hbalanced
  have hcount := hbalanced.length
  rw [List.length_map] at hcount
  have hreplies := replies_of_run hsubmit halive hhas
  rw [hattempted, ← hcompletions] at hreplies
  -- All that was said has gone out.
  have hoffered (hsound : out.broken = false) :
      completeLines out.pipe.accepted
          = textsOf ((start limits queueCapacity).saidIn i moves) ∧
        out.pipe.accepted
          = (linesOf ((start limits queueCapacity).saidIn i moves)).flatten := by
    obtain ⟨stage, htold⟩ := told_of_run hsubmit halive hhas
    have hcarries := htold.converses.carries
    rw [jobs_eq_nil (sharing_of_reachable (Reachable.start.applyAll moves)) hhas
      (by rw [Session.ticket?, hphase])
      (ticketOn?_eq_none fun r hr => hidle r (.inr hr))] at hcarries
    have hwhole := hcarries.whole hsound
    refine ⟨?_, hwhole⟩
    have hlines := completeLines_flatten htold.converses.notMem_textsOf List.not_mem_nil
    rwa [List.append_nil, ← linesOf_eq, ← hwhole] at hlines
  refine ⟨hcount, hbalanced, ?_, hoffered, hreplies⟩
  intro hsound
  rw [(hoffered hsound).1, textsOf, List.length_map, length_eq_notices_add_replies,
    hreplies hsound, List.length_map, hcount]

/-- A client joins, asks and is turned down, which overtakes the reply. -/
def overtakingRun : List Move := List.flatten
  [[.connect "peer" 128 1000, .arrive 0 (utf8 "JOIN:a\nCALC:a:1+1\nHELLO\n")],
    List.replicate 2 (.handler 0), [.registry], List.replicate 10 (.handler 0),
    List.replicate 6 .worker]

theorem settled_overtakingRun :
    (∀ r, Move.submit r ∉ overtakingRun) ∧
    ((start ⟨60000, 64⟩ 8).applyAll overtakingRun).worker.phase ≠ .killed ∧
    ((start ⟨60000, 64⟩ 8).applyAll overtakingRun).queue.waiting = [] ∧
    ((start ⟨60000, 64⟩ 8).applyAll overtakingRun).worker.request? = none ∧
    ∃ session out,
      ((start ⟨60000, 64⟩ 8).applyAll overtakingRun).session? 0 = some session ∧
      ((start ⟨60000, 64⟩ 8).applyAll overtakingRun).output? 0 = some out ∧
      session.phase = .reading 0 ∧ session.handled = ["JOIN:a", "CALC:a:1+1", "HELLO"] ∧
      out.pipe.accepted = utf8 "ACK:a:Welcome\nERR:Invalid Expression Format\nRES:a:2\n" ∧
      Settled ((start ⟨60000, 64⟩ 8).applyAll overtakingRun)
        ((start ⟨60000, 64⟩ 8).saidIn 0 overtakingRun) 0 session out := by
  have hsubmit : ∀ r, Move.submit r ∉ overtakingRun := by
    intro r
    simp [overtakingRun]
  have halive : ((start ⟨60000, 64⟩ 8).applyAll overtakingRun).worker.phase ≠ .killed := by
    decide +kernel
  have hwaiting : ((start ⟨60000, 64⟩ 8).applyAll overtakingRun).queue.waiting = [] := by
    decide +kernel
  have hrequest : ((start ⟨60000, 64⟩ 8).applyAll overtakingRun).worker.request? = none := by
    decide +kernel
  have hstate : (((start ⟨60000, 64⟩ 8).applyAll overtakingRun).session? 0).map
      (fun session => (session.phase, session.handled))
      = some (.reading 0, ["JOIN:a", "CALC:a:1+1", "HELLO"]) := by
    decide +kernel
  have hbytes : (((start ⟨60000, 64⟩ 8).applyAll overtakingRun).output? 0).map
      (fun out => out.pipe.accepted)
      = some (utf8 "ACK:a:Welcome\nERR:Invalid Expression Format\nRES:a:2\n") := by
    decide +kernel
  obtain ⟨session, hsession, hboth⟩ := Option.map_eq_some_iff.mp hstate
  obtain ⟨out, hout, haccepted⟩ := Option.map_eq_some_iff.mp hbytes
  obtain ⟨hphase, hhandled⟩ := Prod.mk.inj hboth
  refine ⟨hsubmit, halive, hwaiting, hrequest, session, out, hsession, hout, hphase, hhandled,
    haccepted, ?_⟩
  refine settled_of_idle (fun r hr => absurd hr (hsubmit r)) halive hsession hout hphase ?_
  rintro r (hr | hr)
  · rw [hwaiting] at hr
    cases hr
  · rw [hrequest] at hr
    cases hr

end Service

end Reckoner
