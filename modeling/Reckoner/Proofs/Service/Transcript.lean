import Reckoner.Proofs.Service.Conversation

/-!
# What a client is told

The complete lines that come out of the output of a client are a conversation: complaints until the
client is welcome, then answers under its name, then a good-bye, and after it only replies to what
was asked before the client left.

* `Service.TakesLeave` — the session of a connection takes the line with which its client leaves.
* `Service.Converses.leaving` — whoever is told good-bye has left so before, and asks nothing more.
* `Service.Parting` — a good-bye that was said is held back by the output, or the client has left.
* `Service.Conversation`, `Service.conversation` — what the complete lines of an output say.
-/

namespace Reckoner

namespace Service

variable {s : Service} {m : Move} {i : Nat} {session session' : Session} {out out' : Channel}
  {stage stage' : TalkStage} {said : List Utterance} {name : String}

/-! ### Leaving -/

/-- The session of a connection takes the line with which its client leaves, who has joined under
    the name. -/
inductive TakesLeave (s : Service) (i : Nat) (name : String) : Prop where
  /-- It reads on, and gets such a line, in which any name may be given. -/
  | line {session : Session} {out : Channel} {since : Nat} {j : Joined} {input : Input}
      {pulled : Pulled} {line given : String} (hhas : s.Has i session out)
      (hphase : session.phase = .reading since) (hjoined : session.joined = some j)
      (hname : j.name = name) (hreads : session.Reads s.outlook out input (some pulled))
      (hline : Session.lineOfPulled s.limits.longestLine pulled = some line)
      (hcommand : Command.ofLine line = .leave given) : TakesLeave s i name

/-- The client of the session has left: it will be told good-bye, or was. -/
def Leaving (session : Session) (stage : TalkStage) (name : String) : Prop :=
  session.phase = .answering (.goodbye name) .leave ∨ stage = .after name

/-- A session whose client has left does not read, so it submits nothing. -/
theorem errand_of_leaving {o : Outlook} {next : SessionStep} (hleaving : Leaving session stage name)
    (hstanding : session.AtStage stage) (hstep : session.Transition o out next) :
    next.errand.bind (Errand.request? i) = none := by
  by_contra hsome
  obtain ⟨r, hr⟩ := Option.ne_none_iff_exists'.mp hsome
  obtain ⟨⟨since, hphase⟩, -⟩ := reading_of_request hstep hr
  rcases hleaving with hanswering | rfl
  · cases hphase.symm.trans hanswering
  · exact session.home_ne_after name (hstanding.of_reading hphase).symm

/-- Whose client has left after a step had a client that had left before, or takes its line. -/
theorem leaving_of_step {next : SessionStep} (hhas : s.Has i session out)
    (hstanding : session.AtStage stage) (hstep : session.Transition s.outlook out next)
    (hfollow : stage.follow? session.saying?.toList = some stage')
    (hleaving : Leaving next.session stage' name) :
    Leaving session stage name ∨ s.TakesLeave i name ∧ next.errand = none := by
  rcases hleaving with hphase | rfl
  · -- It goes on to say good-bye only with the line of its client.
    cases hstep with
    | @leave _ _ _ _ _ _ j hreading hreads hline hcommand hjoined =>
      cases hphase
      exact .inr ⟨.line hhas hreading hjoined rfl hreads hline hcommand, rfl⟩
    | gather | write | shut => exact .inl (.inl hphase)
    | join | deny =>
      have hphase : Session.phaseOfReply _ .readOn out = .answering (.goodbye name) .leave := hphase
      unfold Session.phaseOfReply at hphase
      split at hphase <;> cases hphase
    | skip | giveBackLost | signOff =>
      have hphase : Session.phaseOfClose _ out = .answering (.goodbye name) .leave := hphase
      unfold Session.phaseOfClose at hphase
      split at hphase <;> cases hphase
    | _ => cases hphase
  · exact .inl ((hstanding.farewell hfollow).symm)

/-- **Leaving.** A client that has left after a move had left before, or its session takes its line
    with this move.  Nothing is asked for with the move. -/
theorem Converses.leaving (h : s.Converses i stage said session out) (hhas : s.Has i session out)
    (heffect : s.Effect i session out m session' out')
    (hfollows : TalkStage.before.follow? (said ++ (s.said? i m).toList) = some stage')
    (hleaving : Leaving session' stage' name) :
    (s.apply m).requestsFor i = s.requestsFor i ∧
      (Leaving session stage name ∨ m = .handler i ∧ s.TakesLeave i name) := by
  have hfollow : stage.follow? (s.said? i m).toList = some stage' := by
    rwa [TalkStage.follow?_append, h.follows, Option.bind_some] at hfollows
  -- Where nothing is said, the stage is the same.
  have haside (haside : s.Aside i m) (hphase : session'.phase = .answering (.goodbye name) .leave →
      session.phase = .answering (.goodbye name) .leave) :
      (s.apply m).requestsFor i = s.requestsFor i ∧
        (Leaving session stage name ∨ m = .handler i ∧ s.TakesLeave i name) := by
    rw [haside.quiet] at hfollow
    cases hfollow
    exact ⟨haside.requestsFor, .inl (hleaving.imp_left hphase)⟩
  cases heffect with
  | step hstep hsaid hrequests =>
    rw [hsaid] at hfollow
    rcases leaving_of_step hhas h.standing hstep hfollow hleaving with hbefore | ⟨htakes, hnone⟩
    · rw [hrequests, errand_of_leaving hbefore h.standing hstep]
      exact ⟨List.append_nil _, .inl hbefore⟩
    · rw [hrequests, hnone]
      exact ⟨List.append_nil _, .inr ⟨rfl, htakes⟩⟩
  | reply hphase hi hsaid =>
    rw [hsaid] at hfollow
    obtain rfl := TalkStage.eq_of_next_reply ((stage.follow?_singleton _).symm.trans hfollow)
    exact ⟨s.requestsFor_worker i, .inl hleaving⟩
  | carryOn hphase hi hsaid => exact haside (aside_of_worker hsaid) id
  | hear answer => exact haside (aside_of_other (by simp)) (session.hears_hear answer).of_answering
  | input hquiet => exact haside hquiet id
  | pipe hquiet => exact haside hquiet id
  | none hquiet => exact haside hquiet id

/-! ### Parting -/

/-- **Parting.** Where good-bye was said, it is held back by the output until it is written, and
    then the client has left.  If it fails, it is held back for good: no session closes an output
    that is broken. -/
inductive Parting (said : List Utterance) (name : String) (session : Session) (out : Channel) :
    Prop where
  /-- The good-bye is not all in the pipe. -/
  | held {earlier late : List Utterance} {ticket : Nat}
      (hsaid : said = earlier ++ .notice (.goodbye name) :: late)
      (hheld : out.Withholds ticket (linesOf (earlier ++ [.notice (.goodbye name)])))
      (hphase : session.phase = .sending ticket .leave ∨
        out.broken = true ∧ session.endsOpen = true) : Parting said name session out
  /-- The client has left. -/
  | left (hend : session.end? = some .left) : Parting said name session out

theorem Parting.step {o : Outlook} {next : SessionStep} (h : Parting said name session out)
    (horderly : out.Orderly) (hstep : session.Transition o out next) (u? : Option Utterance) :
    Parting (said ++ u?.toList) name next.session next.output := by
  cases h with
  | left hend => exact .left (hstep.end? hend)
  | @held earlier late ticket hsaid hheld hphase =>
    have hsaid' : said ++ u?.toList
        = earlier ++ .notice (.goodbye name) :: (late ++ u?.toList) := by
      rw [hsaid, List.append_assoc]
      rfl
    rcases hphase with hsends | ⟨hbroken, hopen⟩
    · -- It goes on, it fails, or it is written, and then the client has left.
      obtain ⟨hout, hcases⟩ := hstep.of_sending hsends
      rw [hout]
      have hpoll := hheld.poll horderly o.clock ticket
      rcases hcases with ⟨hnone, hsame⟩ | ⟨e, hfails, hsame⟩ |
        ⟨hdone, ⟨hreads, -⟩ | ⟨-, hsame⟩⟩ <;> try rw [hsame]
      · refine .held hsaid' (hpoll.resolve_right fun hdone => ?_) (.inl hsends)
        simp [hnone] at hdone
      · refine .held hsaid' (hpoll.resolve_right fun hdone => ?_)
          (.inr ⟨Channel.broken_of_error hfails, rfl⟩)
        simp [hfails] at hdone
      · cases hreads
      · exact .left rfl
    · obtain ⟨hstill, hout⟩ := hstep.endsOpen hopen hbroken
      rw [hout]
      exact .held hsaid' hheld (.inr ⟨hbroken, hstill⟩)

/-- What others do keeps it so, as long as they do not finish the session's job. -/
theorem Parting.others (h : Parting said name session out) (session' : Session) (out' : Channel)
    (hend : session'.end? = session.end?)
    (hsends : ∀ {ticket}, session.phase = .sending ticket .leave →
      session'.phase = .sending ticket .leave)
    (hopen : session'.endsOpen = session.endsOpen)
    (hbroken : out.broken = true → out'.broken = true)
    (hheld : ∀ {ticket lines}, out.Withholds ticket lines →
      session.ticket? = some ticket ∨ out.broken = true → out'.Withholds ticket lines)
    (u? : Option Utterance) : Parting (said ++ u?.toList) name session' out' := by
  cases h with
  | left hleft => exact .left (hend.trans hleft)
  | @held earlier late ticket hsaid hbefore hphase =>
    have hsaid' : said ++ u?.toList
        = earlier ++ .notice (.goodbye name) :: (late ++ u?.toList) := by
      rw [hsaid, List.append_assoc]
      rfl
    rcases hphase with hphase | ⟨hbad, hends⟩
    · exact .held hsaid' (hheld hbefore (.inl (by rw [Session.ticket?, hphase])))
        (.inl (hsends hphase))
    · exact .held hsaid' (hheld hbefore (.inr hbad)) (.inr ⟨hbroken hbad, hopen.trans hends⟩)

theorem Parting.effect (h : Parting said name session out) (horderly : out.Orderly)
    (hapart : ∀ {ticket}, session.ticket? = some ticket → s.worker.ticketOn? i ≠ some ticket)
    (heffect : s.Effect i session out m session' out') (u? : Option Utterance) :
    Parting (said ++ u?.toList) name session' out' := by
  cases heffect with
  | step hstep => exact h.step horderly hstep u?
  | @reply r outcome =>
    exact h.others session (out.startLine (r.reply outcome).line).1 rfl id rfl id
      (fun hheld _ => hheld.startLine _) u?
  | @carryOn r outcome ticket hphase hi =>
    refine h.others session _ rfl id rfl (Channel.broken_of_poll · _ _) ?_ u?
    intro own lines hheld hmine
    refine (hheld.poll horderly s.clock ticket).resolve_right ?_
    rintro ⟨hsound, rfl, -⟩
    rcases hmine with hmine | hbroken
    · exact hapart hmine (hi ▸ (Worker.ticketOn?_replying hphase).1)
    · simp [hsound] at hbroken
  | hear answer =>
    have hhears := session.hears_hear answer
    refine h.others _ out hhears.end?_eq ?_ hhears.endsOpen_eq id (fun hheld _ => hheld) u?
    intro ticket hphase
    simp [Session.hear, hphase]
  | @input _ input =>
    exact h.others { session with input } out rfl id rfl id (fun hheld _ => hheld) u?
  | @pipe _ pipe _ hpipe =>
    exact h.others session { out with pipe } rfl id rfl id
      (fun hheld _ => hheld.congr rfl rfl hpipe rfl) u?
  | none => exact h.others session out rfl id rfl id (fun hheld _ => hheld) u?

/-- Good-bye is said by a step of the session, and then the output holds it back. -/
theorem Converses.parting (h : s.Converses i stage said session out)
    (heffect : s.Effect i session out m session' out')
    (hfollows : TalkStage.before.follow? (said ++ (s.said? i m).toList) = some (.after name))
    (hbefore : stage ≠ .after name) :
    Parting (said ++ (s.said? i m).toList) name session' out' := by
  have hfollow : stage.follow? (s.said? i m).toList = some (.after name) := by
    rwa [TalkStage.follow?_append, h.follows, Option.bind_some] at hfollows
  have hquiet (hnone : s.said? i m = none) :
      Parting (said ++ (s.said? i m).toList) name session' out' := by
    rw [hnone] at hfollow
    cases hfollow
    exact absurd rfl hbefore
  cases heffect with
  | @step next hstep hsaid =>
    rw [hsaid] at hfollow ⊢
    have hphase := (h.standing.farewell hfollow).resolve_left hbefore
    -- A session that says good-bye has not begun to close the output.
    have hwrites : ∀ job ∈ out.jobs, job.work.closes = false := by
      intro job hjob
      by_contra hcloses
      obtain ⟨e, hshuts⟩ := h.closing job hjob (by simpa using hcloses)
      cases hphase.symm.trans hshuts
    have hheld :=
      Channel.withholds_startLine h.carries hwrites (Response.line_ne_nil (.goodbye name))
    rw [Session.saying?, hphase]
    have hstarts := hstep.writes
    generalize next.session = session', next.output = out' at hstarts ⊢
    cases hstarts with
    | nothing hnone | carriesOn hnone =>
      rw [Session.saying?, hphase] at hnone
      cases hnone
    | starts hanswers hnext =>
      cases hphase.symm.trans hanswers
      exact .held rfl (by rw [linesOf_append]; exact hheld) (.inl hnext)
    | closes hcloses => cases hphase.symm.trans hcloses
  | reply hphase hi hsaid =>
    rw [hsaid] at hfollow
    have hsame := TalkStage.eq_of_next_reply ((stage.follow?_singleton _).symm.trans hfollow)
    exact absurd hsame.symm hbefore
  | carryOn hphase hi hsaid => exact hquiet hsaid
  | hear => exact hquiet rfl
  | input haside | pipe haside | none haside => exact hquiet haside.quiet

/-! ### Runs -/

/-- **What a run has told a client.** It makes up a conversation.  If the client has left, then with
    some move of the run, and all its requests were taken in before. -/
structure Told (s₀ : Service) (moves : List Move) (i : Nat) (stage : TalkStage) (session : Session)
    (out : Channel) : Prop where
  converses : (s₀.applyAll moves).Converses i stage (s₀.saidIn i moves) session out
  parting : ∀ {name : String}, stage = .after name → Parting (s₀.saidIn i moves) name session out
  leave : ∀ {name : String}, Leaving session stage name → ∃ before after,
    moves = before ++ .handler i :: after ∧ (s₀.applyAll before).TakesLeave i name ∧
      ∀ r ∈ (s₀.applyAll moves).requestsFor i, r ∈ (s₀.applyAll before).queue.accepted

section Run

variable {limits : SessionLimits} {queueCapacity : Nat} {moves : List Move}

theorem told_begin {peer : String} {capacity timeout : Nat} {s₀ : Service}
    (hsaid : s₀.saidIn i moves = []) (hrequests : (s₀.applyAll moves).requestsFor i = [])
    (since : Nat) : Told s₀ moves i .before { peer, phase := .reading since }
      (.create capacity timeout) := by
  refine ⟨⟨?_, .reads rfl, Session.plain_begin _ _ _, ?_, ?_, ?_, ?_, nofun⟩, nofun, ?_⟩
  · rw [hsaid]
    rfl
  · rw [hsaid]
    exact nofun
  · rw [hrequests]
    exact nofun
  · rw [hsaid]
    exact fun _ => nofun
  · rw [hsaid]
    exact Channel.carries_create capacity timeout
  · rintro name (hphase | hstage) <;> contradiction

theorem Told.concat {m : Move}
    (h : Told (start limits queueCapacity) moves i stage session out)
    (hhas : ((start limits queueCapacity).applyAll moves).Has i session out)
    (heffect : ((start limits queueCapacity).applyAll moves).Effect i session out m session' out') :
    ∃ stage', Told (start limits queueCapacity) (moves ++ [m]) i stage' session' out' := by
  have hs : Reachable limits queueCapacity ((start limits queueCapacity).applyAll moves) :=
    Reachable.start.applyAll moves
  obtain ⟨c, hc, hhandler, hout⟩ := hhas
  have hshared := (sharing_of_reachable hs).shared hc
  rw [hhandler, hout] at hshared
  obtain ⟨stage', hconverses⟩ := h.converses.effect (taken_of_reachable hs) hshared.orderly heffect
  refine ⟨stage', ?_, ?_, ?_⟩
  · rw [applyAll_concat, saidIn_concat]
    exact hconverses
  · rintro name rfl
    rw [saidIn_concat]
    by_cases hbefore : stage = .after name
    · exact (h.parting hbefore).effect hshared.orderly hshared.apart heffect _
    · exact h.converses.parting heffect hconverses.follows hbefore
  · intro name hleaving
    obtain ⟨hrequests, hcases⟩ := h.converses.leaving ⟨c, hc, hhandler, hout⟩ heffect
      hconverses.follows hleaving
    rw [applyAll_concat, hrequests]
    rcases hcases with hbefore | ⟨rfl, htakes⟩
    · obtain ⟨before, after, hmoves, htakes, haccepted⟩ := h.leave hbefore
      exact ⟨before, after ++ [m], by rw [hmoves, List.append_assoc]; rfl, htakes, haccepted⟩
    · exact ⟨moves, [], rfl, htakes, fun r hr => (mem_requestsFor.mp hr).1⟩

theorem told_of_run (hsubmit : ∀ r, Move.submit r ∈ moves → r.connection ≠ i)
    (halive : ((start limits queueCapacity).applyAll moves).worker.phase ≠ .killed)
    (h : ((start limits queueCapacity).applyAll moves).Has i session out) :
    ∃ stage, Told (start limits queueCapacity) moves i stage session out := by
  refine run_induction (P := fun moves session out =>
    ∃ stage, Told (start limits queueCapacity) moves i stage session out) ?_ ?_ hsubmit halive h
  · rintro moves peer capacity timeout - hsaid hrequests
    exact ⟨.before, told_begin hsaid hrequests _⟩
  · rintro moves m session session' out out' - hhas heffect ⟨stage, htold⟩
    exact htold.concat hhas heffect

end Run

/-! ### Complete lines -/

/-- The bytes of what was said, without line feeds. -/
def textsOf (said : List Utterance) : List Bytes := said.map fun u => utf8 u.response.text

theorem linesOf_eq (said : List Utterance) :
    linesOf said = (textsOf said).map (· ++ [lineFeed]) := by
  rw [textsOf, List.map_map]
  rfl

theorem Converses.notMem_textsOf (h : s.Converses i stage said session out) :
    ∀ body ∈ textsOf said, lineFeed ∉ body := by
  intro body hbody
  obtain ⟨u, hu, rfl⟩ := List.mem_map.mp hbody
  exact (h.lines u hu).notMem

/-- The complete lines of the output are the first of what was said. -/
theorem Converses.completeLines (h : s.Converses i stage said session out) :
    ∃ heard, heard <+: said ∧ completeLines out.pipe.accepted = textsOf heard := by
  have hbegins := h.carries.begins
  rw [linesOf_eq] at hbegins
  have hlines := List.prefix_iff_eq_take.mp (completeLines_of_begins h.notMem_textsOf hbegins)
  exact ⟨said.take (Reckoner.completeLines out.pipe.accepted).length, List.take_prefix _ _,
    by rw [textsOf, List.map_take]; exact hlines⟩

/-- What was said up to some point is a conversation too. -/
theorem Converses.follow_of_heard (h : s.Converses i stage said session out)
    {heard : List Utterance} (hheard : heard <+: said) :
    ∃ reached, TalkStage.before.follow? heard = some reached := by
  obtain ⟨rest, rfl⟩ := hheard
  have hfollows := h.follows
  rw [TalkStage.follow?_append, Option.bind_eq_some_iff] at hfollows
  obtain ⟨reached, hreached, -⟩ := hfollows
  exact ⟨reached, hreached⟩

/-- Complete lines are in the pipe with their line feeds. -/
theorem length_linesOf_le {heard : List Utterance}
    (h : completeLines out.pipe.accepted = textsOf heard) :
    (linesOf heard).flatten.length ≤ out.pipe.accepted.length := by
  have hbytes := congrArg List.length (flatten_completeLines out.pipe.accepted)
  rw [h, ← linesOf_eq, List.length_append] at hbytes
  omega

/-- Whoever has heard a good-bye has left. -/
theorem Told.left {s₀ : Service} {moves : List Move} (h : Told s₀ moves i stage session out)
    {heard : List Utterance} (hheard : heard <+: s₀.saidIn i moves)
    (hlines : completeLines out.pipe.accepted = textsOf heard)
    (hfollow : TalkStage.before.follow? heard = some (.after name)) :
    stage = .after name ∧ session.end? = some .left := by
  obtain ⟨rest, hrest⟩ := hheard
  have hfollows := h.converses.follows
  rw [← hrest, TalkStage.follow?_append, hfollow, Option.bind_some] at hfollows
  obtain ⟨rfl, hreplies⟩ := TalkStage.follow?_after hfollows
  refine ⟨rfl, ?_⟩
  cases h.parting rfl with
  | left hend => exact hend
  | @held earlier late ticket hsaid hheld =>
    -- The good-bye is among what was heard, so it is all in the pipe.
    exfalso
    rw [← hrest, List.append_eq_append_iff] at hsaid
    have hheard : ∃ more, heard = earlier ++ [.notice (.goodbye name)] ++ more := by
      rcases hsaid with ⟨between, -, hlate⟩ | ⟨more, hheard, hlate⟩
      · exact absurd (hlate ▸ List.mem_append_right _ List.mem_cons_self) (hreplies (.goodbye name))
      · cases more with
        | nil =>
          rw [List.nil_append] at hlate
          exact absurd (hlate ▸ List.mem_cons_self) (hreplies (.goodbye name))
        | cons first more =>
          cases hlate
          exact ⟨more, by rw [hheard, List.append_assoc]; rfl⟩
    obtain ⟨more, rfl⟩ := hheard
    have hlength := length_linesOf_le hlines
    have hshort := hheld.short
    rw [linesOf_append, List.flatten_append, List.length_append] at hlength
    omega

/-! ### The conversation -/

/-- **The conversation with a client.** It is turned down until it is welcome, then it gets answers
    under its name, and then it is told good-bye.  If it is, its session ends because the client has
    left, and whatever comes after that are replies to requests that were taken in before. -/
inductive Conversation (s₀ : Service) (moves : List Move) (i : Nat) (session : Session) :
    List Utterance → Prop where
  /-- It is not welcome yet. -/
  | refused {refused : List Utterance}
      (hrefused : ∀ u ∈ refused, ∃ text, u = .notice (.error text)) :
      Conversation s₀ moves i session refused
  /-- It is welcome. -/
  | welcomed {refused answers : List Utterance} {name : String}
      (hrefused : ∀ u ∈ refused, ∃ text, u = .notice (.error text))
      (hanswers : ∀ u ∈ answers, u.response.Answers name) :
      Conversation s₀ moves i session (refused ++ .notice (.welcome name) :: answers)
  /-- It was told good-bye. -/
  | parted {refused answers late : List Utterance} {name : String} {before after : List Move}
      (hrefused : ∀ u ∈ refused, ∃ text, u = .notice (.error text))
      (hanswers : ∀ u ∈ answers, u.response.Answers name)
      (hend : session.end? = some .left) (hmoves : moves = before ++ .handler i :: after)
      (hleaves : (s₀.applyAll before).TakesLeave i name)
      (hlate : ∀ u ∈ late, ∃ r, u = .reply r ∧ r.client = name ∧ r.connection = i ∧
        r ∈ (s₀.applyAll before).queue.accepted) :
      Conversation s₀ moves i session
        (refused ++ .notice (.welcome name) :: (answers ++ .notice (.goodbye name) :: late))

/-- **What clients are told.** Whatever happens, the complete lines that the output of a session has
    ever taken are the first of what its session and the worker have said, and make up a
    conversation.  No request from outside the sessions names its connection, and nobody ends the
    worker by force. -/
theorem conversation {limits : SessionLimits} {queueCapacity : Nat} {moves : List Move}
    (hsubmit : ∀ r, Move.submit r ∈ moves → r.connection ≠ i)
    (halive : ((start limits queueCapacity).applyAll moves).worker.phase ≠ .killed)
    (hsession : ((start limits queueCapacity).applyAll moves).session? i = some session)
    (hout : ((start limits queueCapacity).applyAll moves).output? i = some out) :
    ∃ heard, heard <+: (start limits queueCapacity).saidIn i moves ∧
      completeLines out.pipe.accepted = heard.map (fun u => utf8 u.response.text) ∧
      Conversation (start limits queueCapacity) moves i session heard := by
  obtain ⟨stage, htold⟩ := told_of_run hsubmit halive (has_iff.mpr ⟨hsession, hout⟩)
  obtain ⟨heard, hheard, hlines⟩ := htold.converses.completeLines
  refine ⟨heard, hheard, hlines, ?_⟩
  -- The shape is that of what was heard, the leaving that of all that was said.
  obtain ⟨reached, hreached⟩ := htold.converses.follow_of_heard hheard
  cases shape_of_follow hreached with
  | before hrefused => exact .refused hrefused
  | during hrefused hanswers => exact .welcomed hrefused hanswers
  | @after refused answers late name hrefused hanswers hlate =>
    obtain ⟨hstage, hend⟩ := htold.left hheard hlines hreached
    obtain ⟨before, after, hmoves, htakes, haccepted⟩ := htold.leave (.inr hstage)
    refine .parted hrefused hanswers hend hmoves htakes ?_
    intro u hu
    obtain ⟨r, rfl, hclient⟩ := hlate u hu
    have hr : r ∈ ((start limits queueCapacity).applyAll moves).requestsFor i :=
      htold.converses.replied r (hheard.subset (by simp [hu]))
    exact ⟨r, rfl, hclient, (mem_requestsFor.mp hr).2, haccepted r hr⟩

/-- A client is turned down, joins, asks and leaves.  The worker is late with the reply. -/
def partingRun : List Move := List.flatten
  [[.connect "peer" 128 1000, .arrive 0 (utf8 "HELLO\nJOIN:a\nCALC:a:1+1\nLEAVE:a\n")],
    List.replicate 8 (.handler 0), [.registry], List.replicate 12 (.handler 0),
    List.replicate 6 .worker]

theorem conversation_partingRun :
    (∀ r, Move.submit r ∉ partingRun) ∧
    ((start ⟨60000, 64⟩ 8).applyAll partingRun).worker.phase ≠ .killed ∧
    ∃ session out heard,
      ((start ⟨60000, 64⟩ 8).applyAll partingRun).session? 0 = some session ∧
      ((start ⟨60000, 64⟩ 8).applyAll partingRun).output? 0 = some out ∧
      out.pipe.accepted = utf8
        "ERR:Invalid Expression Format\nACK:a:Welcome\nACK:a:Goodbye\nRES:a:2\n" ∧
      completeLines out.pipe.accepted = heard.map (fun u => utf8 u.response.text) ∧
      Conversation (start ⟨60000, 64⟩ 8) partingRun 0 session heard := by
  have hsubmit : ∀ r, Move.submit r ∉ partingRun := by
    intro r
    simp [partingRun]
  have halive : ((start ⟨60000, 64⟩ 8).applyAll partingRun).worker.phase ≠ .killed := by
    decide +kernel
  have hthere : (((start ⟨60000, 64⟩ 8).applyAll partingRun).session? 0).isSome = true := by
    decide +kernel
  have hbytes : (((start ⟨60000, 64⟩ 8).applyAll partingRun).output? 0).map
      (fun out => out.pipe.accepted) = some (utf8
        "ERR:Invalid Expression Format\nACK:a:Welcome\nACK:a:Goodbye\nRES:a:2\n") := by
    decide +kernel
  obtain ⟨session, hsession⟩ := Option.isSome_iff_exists.mp hthere
  obtain ⟨out, hout, haccepted⟩ := Option.map_eq_some_iff.mp hbytes
  obtain ⟨heard, -, hlines, hconversation⟩ :=
    conversation (fun r hr => absurd hr (hsubmit r)) halive hsession hout
  exact ⟨hsubmit, halive, session, out, heard, hsession, hout, haccepted, hlines, hconversation⟩

end Service

end Reckoner
