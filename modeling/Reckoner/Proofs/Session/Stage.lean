import Reckoner.Proofs.Session.Naming
import Reckoner.Proofs.Session.Responses
import Reckoner.Proofs.Session.Tickets
import Mathlib.Data.List.Induction

/-!
# The stages of a conversation

A client hears complaints until it is welcome, then the answers to what it asks, and then a
good-bye.  Two parties speak to it, its session and the worker, so a conversation is a list of what
either of them says.

* `Utterance` — a line that is said to a client.
* `TalkStage`, `TalkStage.next?`, `TalkStage.follow?` — how far a conversation has got, and what may
  come next.
* `shape_of_follow` — what all conversations look like that have got to some stage.
* `Session.AtStage` — what a session is doing at a stage.
* `Session.Transition.atStage` — what it says next is allowed, and it stays so.
* `Session.Writes` — what it does to its output while it says something, or does not.
-/

namespace Reckoner

/-! ### Conversations -/

/-- A line that is said to a client, by who says it. -/
inductive Utterance where
  /-- The session says something itself. -/
  | notice (r : Response)
  /-- The worker replies to a request. -/
  | reply (request : Request)
  deriving DecidableEq

namespace Utterance

/-- What is said. -/
def response : Utterance → Response
  | notice r => r
  | reply request => request.reply request.outcome

/-- What the session says. -/
def notice? : Utterance → Option Response
  | notice r => some r
  | reply _ => none

/-- The request that the worker replies to. -/
def reply? : Utterance → Option Request
  | notice _ => none
  | reply request => some request

end Utterance

/-- How far a conversation has got. -/
inductive TalkStage where
  /-- The client is not welcome yet. -/
  | before
  /-- It is, under a name. -/
  | during (name : String)
  /-- It was told good-bye. -/
  | after (name : String)
  deriving DecidableEq

namespace TalkStage

/-- The name that the client was welcome under. -/
def name? : TalkStage → Option String
  | before => none
  | during name | after name => some name

/-- **What may be said.** The stage after it; none if it may not be said. -/
def next? : TalkStage → Utterance → Option TalkStage
  | before, .notice (.error _) => some before
  | before, .notice (.welcome name) => some (during name)
  | during name, .notice (.error _) => some (during name)
  | during name, .notice (.goodbye given) => if given = name then some (after name) else none
  | during name, .reply request => if request.client = name then some (during name) else none
  | after name, .reply request => if request.client = name then some (after name) else none
  | _, _ => none

/-- The stage after all that is said. -/
def follow? (stage : TalkStage) (said : List Utterance) : Option TalkStage :=
  said.foldlM next? stage

variable {stage stage' : TalkStage} {said : List Utterance} {u : Utterance} {name : String}

theorem follow?_append (stage : TalkStage) (said others : List Utterance) :
    stage.follow? (said ++ others)
      = (stage.follow? said).bind fun stage => stage.follow? others := by
  simp only [follow?, List.foldlM_append]
  rfl

theorem follow?_singleton (stage : TalkStage) (u : Utterance) :
    stage.follow? [u] = stage.next? u := by
  simp [follow?]

theorem follow?_concat (h : before.follow? said = some stage)
    (hnext : stage.next? u = some stage') : before.follow? (said ++ [u]) = some stage' := by
  rw [follow?_append, h, Option.bind_some, follow?_singleton, hnext]

/-- Whoever has a name keeps it. -/
theorem name?_of_next (h : stage.next? u = some stage') (hname : stage.name? = some name) :
    stage'.name? = some name := by
  unfold next? at h
  split at h
  · cases hname
  · cases hname
  · cases h
    exact hname
  · split at h
    · cases h
      exact hname
    · cases h
  · split at h
    · cases h
      exact hname
    · cases h
  · split at h
    · cases h
      exact hname
    · cases h
  · cases h

/-- The worker may reply to requests of the client that is welcome. -/
theorem next?_reply {request : Request} (h : stage.name? = some request.client) :
    stage.next? (.reply request) = some stage := by
  cases stage with
  | before => cases h
  | during name =>
    cases h
    exact if_pos rfl
  | after name =>
    cases h
    exact if_pos rfl

/-- Replies lead to no other stage. -/
theorem eq_of_next_reply {request : Request} (h : stage.next? (.reply request) = some stage') :
    stage' = stage := by
  cases stage with
  | before => cases h
  | during name | after name =>
    simp only [next?] at h
    split at h
    · exact (Option.some.inj h).symm
    · cases h

/-- At the last stage there are only replies. -/
theorem follow?_after (h : (after name).follow? said = some stage) :
    stage = after name ∧ ∀ r, .notice r ∉ said := by
  induction said with
  | nil =>
    cases h
    exact ⟨rfl, fun _ => nofun⟩
  | cons u said ih =>
    rw [← List.singleton_append, follow?_append, Option.bind_eq_some_iff] at h
    obtain ⟨stage', hnext, h⟩ := h
    rw [follow?_singleton] at hnext
    cases u with
    | notice r => cases hnext
    | reply request =>
      obtain rfl := eq_of_next_reply hnext
      obtain ⟨hstage, hnone⟩ := ih h
      exact ⟨hstage, fun r hr => hnone r ((List.mem_cons.mp hr).resolve_left nofun)⟩

/-- Only a good-bye leads to the last stage. -/
theorem goodbye_of_next {r : Response} (h : stage.next? (.notice r) = some (.after name)) :
    stage = .during name ∧ r = .goodbye name := by
  unfold next? at h
  split at h
  · cases h
  · cases h
  · cases h
  · rename_i heq
    cases heq
    split at h
    · rename_i hname
      cases h
      exact ⟨rfl, by rw [hname]⟩
    · cases h
  · rename_i heq
    cases heq
  · rename_i heq
    cases heq
  · cases h

end TalkStage

/-! ### Their shape -/

/-- The response is a value for the client of that name, or an error. -/
def Response.Answers (name : String) (r : Response) : Prop :=
  (∃ value, r = .result name value) ∨ ∃ text, r = .error text

theorem Response.Answers.ne_goodbye {name other : String} {r : Response} (h : r.Answers name) :
    r ≠ .goodbye other := by
  rcases h with ⟨value, rfl⟩ | ⟨text, rfl⟩ <;> nofun

theorem Request.answers_reply (request : Request) (outcome : Outcome) :
    (request.reply outcome).Answers request.client := by
  cases outcome with
  | ok value => exact .inl ⟨value, rfl⟩
  | error e => exact .inr ⟨_, rfl⟩

/-- **The shape of a conversation.** What was said until the stage was reached. -/
inductive Shape : TalkStage → List Utterance → Prop where
  /-- Nothing but complaints. -/
  | before {refused : List Utterance}
      (hrefused : ∀ u ∈ refused, ∃ text, u = .notice (.error text)) : Shape .before refused
  /-- Then a welcome, and answers. -/
  | during {refused answers : List Utterance} {name : String}
      (hrefused : ∀ u ∈ refused, ∃ text, u = .notice (.error text))
      (hanswers : ∀ u ∈ answers, u.response.Answers name) :
      Shape (.during name) (refused ++ .notice (.welcome name) :: answers)
  /-- Then a good-bye, and the last replies. -/
  | after {refused answers late : List Utterance} {name : String}
      (hrefused : ∀ u ∈ refused, ∃ text, u = .notice (.error text))
      (hanswers : ∀ u ∈ answers, u.response.Answers name)
      (hlate : ∀ u ∈ late, ∃ request, u = .reply request ∧ request.client = name) :
      Shape (.after name)
        (refused ++ .notice (.welcome name) :: (answers ++ .notice (.goodbye name) :: late))

/-- What is said next keeps the shape. -/
theorem Shape.concat {stage stage' : TalkStage} {said : List Utterance} {u : Utterance}
    (h : Shape stage said) (hnext : stage.next? u = some stage') : Shape stage' (said ++ [u]) := by
  have hsnoc {P : Utterance → Prop} {us : List Utterance} (hus : ∀ v ∈ us, P v) (hu : P u) :
      ∀ v ∈ us ++ [u], P v := by
    intro v hv
    rcases List.mem_append.mp hv with hv | hv
    · exact hus v hv
    · rwa [List.mem_singleton.mp hv]
  -- One case for each row of `next?`, where only one of the shapes fits.
  unfold TalkStage.next? at hnext
  split at hnext
  · cases hnext
    cases h with
    | before hrefused => exact .before (hsnoc hrefused ⟨_, rfl⟩)
  · cases hnext
    cases h with
    | before hrefused => exact .during hrefused (List.forall_mem_nil _)
  · cases hnext
    cases h with
    | during hrefused hanswers =>
      rw [List.append_assoc, List.cons_append]
      exact .during hrefused (hsnoc hanswers (.inr ⟨_, rfl⟩))
  · split at hnext
    · rename_i hname
      cases hnext
      subst hname
      cases h with
      | during hrefused hanswers =>
        rw [List.append_assoc, List.cons_append]
        exact .after hrefused hanswers (List.forall_mem_nil _)
    · cases hnext
  · split at hnext
    · rename_i request hname
      cases hnext
      subst hname
      cases h with
      | during hrefused hanswers =>
        rw [List.append_assoc, List.cons_append]
        exact .during hrefused (hsnoc hanswers (request.answers_reply _))
    · cases hnext
  · split at hnext
    · rename_i request hname
      cases hnext
      subst hname
      cases h with
      | after hrefused hanswers hlate =>
        rw [List.append_assoc, List.cons_append, List.append_assoc, List.cons_append]
        exact .after hrefused hanswers (hsnoc hlate ⟨request, rfl, rfl⟩)
    · cases hnext
  · cases hnext

theorem shape_of_follow {stage : TalkStage} {said : List Utterance}
    (h : TalkStage.before.follow? said = some stage) : Shape stage said := by
  induction said using List.reverseRecOn generalizing stage with
  | nil =>
    cases h
    exact .before nofun
  | append_singleton said u ih =>
    rw [TalkStage.follow?_append, Option.bind_eq_some_iff] at h
    obtain ⟨earlier, hearlier, hnext⟩ := h
    rw [TalkStage.follow?_singleton] at hnext
    exact (ih hearlier).concat hnext

/-- A good-bye is said only in its place, and it is the only one. -/
theorem Shape.of_goodbye {stage : TalkStage} {said : List Utterance} {u : Utterance} {name : String}
    (h : Shape stage said) (hu : u ∈ said) (hgoodbye : u.response = .goodbye name) :
    stage = .after name := by
  -- Neither the complaints at the beginning nor the answers are good-byes.
  have hcomplaint {refused : List Utterance}
      (hrefused : ∀ u ∈ refused, ∃ text, u = .notice (.error text)) : u ∉ refused := by
    intro hmem
    obtain ⟨text, rfl⟩ := hrefused u hmem
    cases hgoodbye
  have hanswer {answers : List Utterance} {client : String}
      (hanswers : ∀ u ∈ answers, u.response.Answers client) : u ∉ answers :=
    fun hmem => (hanswers u hmem).ne_goodbye hgoodbye
  cases h with
  | before hrefused => exact absurd hu (hcomplaint hrefused)
  | during hrefused hanswers =>
    rcases List.mem_append.mp hu with hu | hu
    · exact absurd hu (hcomplaint hrefused)
    rcases List.mem_cons.mp hu with rfl | hu
    · cases hgoodbye
    · exact absurd hu (hanswer hanswers)
  | after hrefused hanswers hlate =>
    rcases List.mem_append.mp hu with hu | hu
    · exact absurd hu (hcomplaint hrefused)
    rcases List.mem_cons.mp hu with rfl | hu
    · cases hgoodbye
    rcases List.mem_append.mp hu with hu | hu
    · exact absurd hu (hanswer hanswers)
    rcases List.mem_cons.mp hu with rfl | hu
    · cases hgoodbye
      rfl
    · obtain ⟨request, rfl, -⟩ := hlate u hu
      exact absurd hgoodbye (request.answers_reply _).ne_goodbye

/-! ### Sessions -/

namespace Session

/-- Why the session ends, once it reads no more lines. -/
def end? (s : Session) : Option SessionEnd :=
  match s.phase with
  | .ending e | .returning e | .deregistering e | .deregistered e | .closing e | .shutting _ e
  | .finished e => some e
  | .reading _ | .asking _ | .joining _ | .joinAnswered _ _ | .answering _ _ | .sending _ _ => none

/-- What the session is about to say. -/
def saying? (s : Session) : Option Utterance :=
  match s.phase with
  | .answering r _ => some (.notice r)
  | _ => none

/-- The stage that the client has got to by what the session has told it. -/
def home (s : Session) : TalkStage :=
  match s.joined with
  | none => .before
  | some j => .during j.name

/-- The stage that it gets to by the response that is being written. -/
def stageAfter (s : Session) : AfterReply → TalkStage
  | .readOn => s.home
  | .leave =>
    match s.joined with
    | none => .before
    | some j => .after j.name

/-- **Sessions and stages.** What a session is doing at the stages of its conversation. -/
inductive AtStage (s : Session) : TalkStage → Prop where
  /-- It reads. -/
  | reads {since : Nat} (hphase : s.phase = .reading since) : AtStage s s.home
  /-- It is about to join. -/
  | joins (hphase : s.isJoining = true) (hjoined : s.joined = none) : AtStage s .before
  /-- It is about to write a response. -/
  | speaks {stage : TalkStage} {r : Response} {next : AfterReply}
      (hphase : s.phase = .answering r next)
      (hnext : stage.next? (.notice r) = some (s.stageAfter next))
      (hjoined : next = .leave → s.joined ≠ none) : AtStage s stage
  /-- It writes the response. -/
  | sends {ticket : Nat} {next : AfterReply} (hphase : s.phase = .sending ticket next)
      (hjoined : next = .leave → s.joined ≠ none) : AtStage s (s.stageAfter next)
  /-- It ends, at whatever stage.  Only a good-bye that was written is a reason to have left. -/
  | ends {stage : TalkStage} {e : SessionEnd} (hend : s.end? = some e)
      (hstage : stage = .before ∨ stage = s.home ∨ stage = s.stageAfter .leave)
      (hleft : e = .left → stage = s.stageAfter .leave ∧ s.joined ≠ none) : AtStage s stage

variable {o : Outlook} {s s' : Session} {out : Channel} {next : SessionStep} {stage : TalkStage}

/-- The stage is a matter of the standing only. -/
theorem AtStage.congr (h : s.AtStage stage) (hsame : s'.standing = s.standing) :
    s'.AtStage stage := by
  obtain ⟨hjoined, hphase⟩ := Prod.mk.inj hsame
  have hhome : s'.home = s.home := by rw [home, home, hjoined]
  have hafter (next : AfterReply) : s'.stageAfter next = s.stageAfter next := by
    cases next with
    | readOn => exact hhome
    | leave => rw [stageAfter, stageAfter, hjoined]
  cases h with
  | reads hreading =>
    rw [← hhome]
    exact .reads (hphase.trans hreading)
  | joins hjoining hnone =>
    exact .joins (by rwa [isJoining, hphase]) (hjoined.trans hnone)
  | speaks hspeaks hnext hsome =>
    exact .speaks (hphase.trans hspeaks) (by rwa [hafter]) (by rwa [hjoined])
  | sends hsends hsome =>
    rw [← hafter]
    exact .sends (hphase.trans hsends) (by rwa [hjoined])
  | ends hend hstage hleft =>
    refine .ends (by rwa [end?, hphase]) ?_ ?_
    · rwa [hhome, hafter]
    · rwa [hafter, hjoined]

/-- Who was welcome has joined under that name. -/
theorem AtStage.joined (h : s.AtStage stage) {name : String} (hname : stage.name? = some name) :
    ∃ j, s.joined = some j ∧ j.name = name := by
  have hhome (hname : s.home.name? = some name) : ∃ j, s.joined = some j ∧ j.name = name := by
    cases hjoined : s.joined with
    | none => simp [home, hjoined, TalkStage.name?] at hname
    | some j => exact ⟨j, rfl, by simpa [home, hjoined, TalkStage.name?] using hname⟩
  have hafter {next : AfterReply} (hname : (s.stageAfter next).name? = some name) :
      ∃ j, s.joined = some j ∧ j.name = name := by
    cases next with
    | readOn => exact hhome hname
    | leave =>
      cases hjoined : s.joined with
      | none => simp [stageAfter, hjoined, TalkStage.name?] at hname
      | some j => exact ⟨j, rfl, by simpa [stageAfter, hjoined, TalkStage.name?] using hname⟩
  cases h with
  | reads => exact hhome hname
  | joins => cases hname
  | speaks _ hnext => exact hafter (TalkStage.name?_of_next hnext hname)
  | sends => exact hafter hname
  | ends _ hstage =>
    rcases hstage with rfl | rfl | rfl
    · cases hname
    · exact hhome hname
    · exact hafter hname

/-! The phase tells which of these it is. -/

theorem AtStage.of_reading (h : s.AtStage stage) {since : Nat} (hphase : s.phase = .reading since) :
    stage = s.home := by
  cases h with
  | reads => rfl
  | joins hjoining => simp [isJoining, hphase] at hjoining
  | speaks hspeaks => simp [hphase] at hspeaks
  | sends hsends => simp [hphase] at hsends
  | ends hend => simp [end?, hphase] at hend

theorem AtStage.of_joining (h : s.AtStage stage) (hjoining : s.isJoining = true) :
    stage = .before ∧ s.joined = none := by
  cases h with
  | reads hreading => simp [isJoining, hreading] at hjoining
  | joins _ hjoined => exact ⟨rfl, hjoined⟩
  | speaks hspeaks => simp [isJoining, hspeaks] at hjoining
  | sends hsends => simp [isJoining, hsends] at hjoining
  | ends hend =>
    unfold isJoining at hjoining
    unfold end? at hend
    cases hphase : s.phase <;> simp [hphase] at hjoining hend

theorem AtStage.of_answering (h : s.AtStage stage) {r : Response} {next : AfterReply}
    (hphase : s.phase = .answering r next) :
    stage.next? (.notice r) = some (s.stageAfter next) ∧ (next = .leave → s.joined ≠ none) := by
  cases h with
  | reads hreading => simp [hphase] at hreading
  | joins hjoining => simp [isJoining, hphase] at hjoining
  | speaks hspeaks hnext hjoined =>
    rw [hphase] at hspeaks
    cases hspeaks
    exact ⟨hnext, hjoined⟩
  | sends hsends => simp [hphase] at hsends
  | ends hend => simp [end?, hphase] at hend

theorem AtStage.of_sending (h : s.AtStage stage) {ticket : Nat} {next : AfterReply}
    (hphase : s.phase = .sending ticket next) :
    stage = s.stageAfter next ∧ (next = .leave → s.joined ≠ none) := by
  cases h with
  | reads hreading => simp [hphase] at hreading
  | joins hjoining => simp [isJoining, hphase] at hjoining
  | speaks hspeaks => simp [hphase] at hspeaks
  | sends hsends hjoined =>
    rw [hphase] at hsends
    cases hsends
    exact ⟨rfl, hjoined⟩
  | ends hend => simp [end?, hphase] at hend

theorem AtStage.of_end (h : s.AtStage stage) {e : SessionEnd} (hend : s.end? = some e) :
    (stage = .before ∨ stage = s.home ∨ stage = s.stageAfter .leave) ∧
      (e = .left → stage = s.stageAfter .leave ∧ s.joined ≠ none) := by
  cases h with
  | reads hreading => simp [end?, hreading] at hend
  | joins hjoining =>
    unfold isJoining at hjoining
    unfold end? at hend
    cases hphase : s.phase <;> simp [hphase] at hjoining hend
  | speaks hspeaks => simp [end?, hspeaks] at hend
  | sends hsends => simp [end?, hsends] at hend
  | ends hend' hstage hleft =>
    rw [hend] at hend'
    cases hend'
    exact ⟨hstage, hleft⟩

theorem home_of_joined {j : Joined} (h : s.joined = some j) : s.home = .during j.name := by
  rw [home, h]

theorem home_of_not_joined (h : s.joined = none) : s.home = .before := by rw [home, h]

theorem home_ne_after (s : Session) (name : String) : s.home ≠ .after name := by
  unfold home
  split <;> nofun

/-- A client gets to the last stage only by the good-bye that its session is about to say. -/
theorem AtStage.farewell (h : s.AtStage stage) {name : String}
    (hfollow : stage.follow? s.saying?.toList = some (.after name)) :
    stage = .after name ∨ s.phase = .answering (.goodbye name) .leave := by
  cases hsaying : s.saying? with
  | none =>
    rw [hsaying] at hfollow
    exact .inl (Option.some.inj hfollow)
  | some u =>
    rw [hsaying] at hfollow
    have hnext := (stage.follow?_singleton u).symm.trans hfollow
    unfold saying? at hsaying
    split at hsaying
    · rename_i r after hphase
      cases hsaying
      obtain ⟨-, rfl⟩ := TalkStage.goodbye_of_next hnext
      obtain ⟨hsame, -⟩ := h.of_answering hphase
      rw [hnext, Option.some.injEq] at hsame
      cases after with
      | readOn => exact absurd hsame.symm (s.home_ne_after name)
      | leave => exact .inr hphase
    · cases hsaying

/-- A session may complain as long as the client has not left. -/
theorem next?_home (s : Session) (text : String) :
    s.home.next? (.notice (.error text)) = some s.home := by
  unfold home
  split <;> rfl

theorem isError_of_rejection {command : Command} {r : Response} {detail : String}
    (h : s.rejection? o command = some (r, detail)) : ∃ text, r = .error text := by
  unfold rejection? at h
  split at h
  · cases h
    exact ⟨_, rfl⟩
  · cases h
  · cases h
    exact ⟨_, rfl⟩
  · cases h
    exact ⟨_, rfl⟩
  · split at h
    · cases h
      exact ⟨_, rfl⟩
    · cases h
  · cases h

/-- No input is a reason to have left. -/
theorem ne_left_of_endOfPulled {longest : Nat} {pulled : Pulled} {e : SessionEnd}
    (h : endOfPulled longest pulled = some e) : e ≠ .left := by
  unfold endOfPulled at h
  split at h
  · cases h
    nofun
  · cases h
    nofun
  · split at h
    · cases h
      nofun
    · cases h

/-- **Stages are kept.** What the session says with its next step may be said, and it is then at the
    stage after that. -/
theorem Transition.atStage (h : Transition o s out next) (hs : s.AtStage stage) :
    ∃ stage', stage.follow? s.saying?.toList = some stage' ∧ next.session.AtStage stage' := by
  -- Most steps say nothing.
  have hquiet (hnone : s.saying? = none) (hnext : next.session.AtStage stage) :
      ∃ stage', stage.follow? s.saying?.toList = some stage' ∧ next.session.AtStage stage' :=
    ⟨stage, by rw [hnone]; rfl, hnext⟩
  -- To end for another reason than having left is possible at any of these stages.
  have hends {s' : Session} {e : SessionEnd} (hend : s'.end? = some e) (hne : e ≠ .left)
      (hstage : stage = .before ∨ stage = s'.home ∨ stage = s'.stageAfter .leave) :
      s'.AtStage stage := .ends hend hstage fun heq => absurd heq hne
  have hclosed {e : SessionEnd} {phase : SessionPhase} (hend : s.end? = some e)
      (hphase : ({ s with phase } : Session).end? = some e) :
      ({ s with phase } : Session).AtStage stage := by
    obtain ⟨hstage, hleft⟩ := hs.of_end hend
    exact .ends hphase hstage hleft
  cases h with
  | cancel hphase | notice hphase | expire hphase =>
    exact hquiet (by rw [saying?, hphase])
      (hends rfl (by simp) (.inr (.inl (hs.of_reading hphase))))
  | gather hphase =>
    exact hquiet (by rw [saying?, hphase]) (hs.congr rfl)
  | runOut hphase hreads hend =>
    exact hquiet (by rw [saying?, hphase])
      (hends rfl (ne_left_of_endOfPulled hend) (.inr (.inl (hs.of_reading hphase))))
  | requestLost hphase =>
    exact hquiet (by rw [saying?, hphase])
      (hends rfl (by simp) (.inr (.inl (hs.of_reading hphase))))
  | reject hphase hreads hline hreject =>
    refine hquiet (by rw [saying?, hphase]) ?_
    obtain ⟨text, rfl⟩ := isError_of_rejection hreject
    rw [hs.of_reading hphase]
    exact .speaks rfl (s.next?_home text) (by simp)
  | want hphase hreads hline hcommand hjoined =>
    refine hquiet (by rw [saying?, hphase]) ?_
    rw [hs.of_reading hphase, home_of_not_joined hjoined]
    exact .joins rfl hjoined
  | request hphase =>
    refine hquiet (by rw [saying?, hphase]) ?_
    rw [hs.of_reading hphase]
    exact .reads rfl
  | @leave _ _ _ _ _ _ j hphase hreads hline hcommand hjoined =>
    refine hquiet (by rw [saying?, hphase]) ?_
    rw [hs.of_reading hphase, home_of_joined hjoined]
    refine .speaks rfl ?_ fun _ => by simp [hjoined]
    simp [TalkStage.next?, stageAfter, hjoined]
  | ask hphase =>
    obtain ⟨rfl, hjoined⟩ := hs.of_joining (by rw [isJoining, hphase])
    exact hquiet (by rw [saying?, hphase]) (.joins rfl hjoined)
  | askLost hphase =>
    obtain ⟨rfl, hjoined⟩ := hs.of_joining (by rcases hphase with h | h <;> rw [isJoining, h])
    exact hquiet (by rcases hphase with h | h <;> rw [saying?, h]) (hends rfl (by simp) (.inl rfl))
  | join hphase =>
    obtain ⟨rfl, hjoined⟩ := hs.of_joining (by rw [isJoining, hphase])
    refine hquiet (by rw [saying?, hphase]) ?_
    unfold phaseOfReply
    split
    · exact hends rfl (by simp) (.inl rfl)
    · exact .speaks rfl rfl (by simp)
  | deny hphase =>
    obtain ⟨rfl, hjoined⟩ := hs.of_joining (by rw [isJoining, hphase])
    refine hquiet (by rw [saying?, hphase]) ?_
    unfold phaseOfReply
    split
    · exact hends rfl (by simp) (.inl rfl)
    · refine .speaks rfl ?_ (by simp)
      show TalkStage.before.next? _ = some s.home
      rw [home_of_not_joined hjoined]
      rfl
  | answer hphase =>
    obtain ⟨hnext, hjoined⟩ := hs.of_answering hphase
    refine ⟨_, ?_, .sends rfl hjoined⟩
    rw [saying?, hphase]
    exact (stage.follow?_singleton _).trans hnext
  | write hphase | shut hphase => exact hquiet (by rw [saying?, hphase]) hs
  | @writeFail _ _ after _ hphase =>
    obtain ⟨hstage, -⟩ := hs.of_sending hphase
    refine hquiet (by rw [saying?, hphase]) (hends rfl (by simp) (.inr ?_))
    cases after with
    | readOn => exact .inl hstage
    | leave => exact .inr hstage
  | readOn hphase =>
    obtain ⟨rfl, -⟩ := hs.of_sending hphase
    exact hquiet (by rw [saying?, hphase]) (.reads rfl)
  | bidFarewell hphase =>
    obtain ⟨hstage, hjoined⟩ := hs.of_sending hphase
    exact hquiet (by rw [saying?, hphase])
      (.ends rfl (.inr (.inr hstage)) fun _ => ⟨hstage, hjoined rfl⟩)
  | cleanUp hphase | giveBack hphase | close hphase | finish hphase =>
    exact hquiet (by rw [saying?, hphase]) (hclosed (by rw [end?, hphase]) rfl)
  | skip hphase | signOff hphase =>
    refine hquiet (by rw [saying?, hphase]) (hclosed (by rw [end?, hphase]) ?_)
    unfold phaseOfClose
    split <;> rfl
  | @giveBackLost e _ hphase =>
    have hend : s.end? = some e := by rcases hphase with ⟨h, -⟩ | ⟨h, -⟩ <;> rw [end?, h]
    refine hquiet (by rcases hphase with ⟨h, -⟩ | ⟨h, -⟩ <;> rw [saying?, h]) (hclosed hend ?_)
    unfold phaseOfClose
    split <;> rfl

/-- An answer of the registry says nothing to the client. -/
theorem AtStage.hear (h : s.AtStage stage) (hhears : s.Hears s') : s'.AtStage stage := by
  cases hhears with
  | joining free hphase =>
    obtain ⟨rfl, hjoined⟩ := h.of_joining (by rw [isJoining, hphase])
    exact .joins rfl hjoined
  | deregistering hphase =>
    obtain ⟨hstage, hleft⟩ := h.of_end (by rw [end?, hphase])
    exact .ends rfl hstage hleft
  | nothing => exact h

/-- A session that ends does so for the same reason from then on. -/
theorem Transition.end? (h : Transition o s out next) {e : SessionEnd} (hend : s.end? = some e) :
    next.session.end? = some e := by
  unfold Session.end? at hend
  cases h with
  | gather | write | shut => exact hend
  | cleanUp hphase | giveBack hphase | close hphase | finish hphase =>
    rw [hphase] at hend
    exact hend
  | skip hphase | signOff hphase =>
    rw [hphase] at hend
    unfold phaseOfClose
    split <;> exact hend
  | giveBackLost hphase =>
    unfold phaseOfClose
    rcases hphase with ⟨hphase, -⟩ | ⟨hphase, -⟩ <;> rw [hphase] at hend <;> split <;> exact hend
  | askLost hphase => rcases hphase with hphase | hphase <;> simp [hphase] at hend
  | cancel hphase | notice hphase | expire hphase | runOut hphase | reject hphase | want hphase
  | request hphase | requestLost hphase | leave hphase | ask hphase | join hphase | deny hphase
  | answer hphase | writeFail hphase | readOn hphase | bidFarewell hphase =>
    simp [hphase] at hend

theorem Hears.end?_eq (h : s.Hears s') : s'.end? = s.end? := by
  cases h with
  | joining free hphase => simp [Session.end?, hphase]
  | deregistering hphase => simp [Session.end?, hphase]
  | nothing => rfl

/-! ### The output -/

/-- **What a step does to the output.** Its last indices are the session and the output after it. -/
inductive Writes (clock : Nat) (s : Session) (out : Channel) : Session → Channel → Prop where
  /-- Nothing. -/
  | nothing {s' : Session} (hquiet : s.saying? = none) (hticket : s.ticket? = none) :
      Writes clock s out s' out
  /-- The response becomes a job. -/
  | starts {s' : Session} {r : Response} {after : AfterReply}
      (hphase : s.phase = .answering r after) (hnext : s'.phase = .sending out.nextTicket after) :
      Writes clock s out s' (out.startLine r.line).1
  /-- The wish to close the output becomes one. -/
  | closes {s' : Session} {e : SessionEnd} (hphase : s.phase = .closing e)
      (hnext : s'.phase = .shutting out.nextTicket e) : Writes clock s out s' out.startClose.1
  /-- The session's job gets on. -/
  | carriesOn {s' : Session} {ticket : Nat} (hquiet : s.saying? = none)
      (hticket : s.ticket? = some ticket)
      (hstays : (out.poll clock ticket).progress = none → s' = s) :
      Writes clock s out s' (out.poll clock ticket).channel

theorem Transition.writes (h : Transition o s out next) :
    Writes o.clock s out next.session next.output := by
  cases h with
  | answer hphase => exact .starts hphase rfl
  | close hphase => exact .closes hphase rfl
  | write hphase | shut hphase =>
    exact .carriesOn (by rw [saying?, hphase]) (by rw [ticket?, hphase]) fun _ => rfl
  | writeFail hphase _ hprogress | readOn hphase _ hprogress | bidFarewell hphase _ hprogress
  | finish hphase _ hprogress =>
    refine .carriesOn (by rw [saying?, hphase]) (by rw [ticket?, hphase]) fun hnone => ?_
    rw [hprogress] at hnone
    cases hnone
  | askLost hphase =>
    rcases hphase with hphase | hphase <;>
      exact .nothing (by rw [saying?, hphase]) (by rw [ticket?, hphase])
  | giveBackLost hphase =>
    rcases hphase with ⟨hphase, -⟩ | ⟨hphase, -⟩ <;>
      exact .nothing (by rw [saying?, hphase]) (by rw [ticket?, hphase])
  | cancel hphase | notice hphase | expire hphase | gather hphase | runOut hphase | reject hphase
  | want hphase | request hphase | requestLost hphase | leave hphase | ask hphase | join hphase
  | deny hphase | cleanUp hphase | skip hphase | giveBack hphase | signOff hphase =>
    exact .nothing (by rw [saying?, hphase]) (by rw [ticket?, hphase])

/-- **What becomes of a response.** It is being written, has failed, which ends the session, or is
    written. -/
theorem Transition.of_sending (h : Transition o s out next) {ticket : Nat} {after : AfterReply}
    (hphase : s.phase = .sending ticket after) :
    next.output = (out.poll o.clock ticket).channel ∧
      (((out.poll o.clock ticket).progress = none ∧ next.session = s) ∨
        (∃ e, (out.poll o.clock ticket).progress = some (.error e) ∧
          next.session = { s with phase := .ending (.failed (.write e)) }) ∨
        (out.poll o.clock ticket).progress = some (.ok ()) ∧
          ((after = .readOn ∧ next.session = { s with phase := .reading o.clock }) ∨
            after = .leave ∧ next.session = { s with phase := .ending .left })) := by
  cases h with
  | write hsends _ hprogress =>
    cases hphase.symm.trans hsends
    exact ⟨rfl, .inl ⟨hprogress, rfl⟩⟩
  | writeFail hsends _ hprogress =>
    cases hphase.symm.trans hsends
    exact ⟨rfl, .inr (.inl ⟨_, hprogress, rfl⟩)⟩
  | readOn hsends _ hprogress =>
    cases hphase.symm.trans hsends
    exact ⟨rfl, .inr (.inr ⟨hprogress, .inl ⟨rfl, rfl⟩⟩)⟩
  | bidFarewell hsends _ hprogress =>
    cases hphase.symm.trans hsends
    exact ⟨rfl, .inr (.inr ⟨hprogress, .inr ⟨rfl, rfl⟩⟩)⟩
  | askLost hother => rcases hother with hother | hother <;> cases hphase.symm.trans hother
  | giveBackLost hother =>
    rcases hother with ⟨hother, -⟩ | ⟨hother, -⟩ <;> cases hphase.symm.trans hother
  | cancel hother | notice hother | expire hother | gather hother | runOut hother | reject hother
  | want hother | request hother | requestLost hother | leave hother | ask hother | join hother
  | deny hother | answer hother | cleanUp hother | skip hother | giveBack hother | signOff hother
  | close hother | shut hother | finish hother => cases hphase.symm.trans hother

/-- The session ends, and has not begun to close its output. -/
def endsOpen (s : Session) : Bool :=
  match s.phase with
  | .ending _ | .returning _ | .deregistering _ | .deregistered _ | .finished _ => true
  | _ => false

/-- A session that ends does not close an output that is broken. -/
theorem Transition.endsOpen (h : Transition o s out next) (hopen : s.endsOpen = true)
    (hbroken : out.broken = true) : next.session.endsOpen = true ∧ next.output = out := by
  unfold Session.endsOpen at hopen
  cases h with
  | cleanUp | giveBack => exact ⟨rfl, rfl⟩
  | skip | giveBackLost | signOff => exact ⟨by rw [phaseOfClose, if_pos hbroken]; rfl, rfl⟩
  | askLost hphase => rcases hphase with hphase | hphase <;> simp [hphase] at hopen
  | cancel hphase | notice hphase | expire hphase | gather hphase | runOut hphase | reject hphase
  | want hphase | request hphase | requestLost hphase | leave hphase | ask hphase | join hphase
  | deny hphase | answer hphase | write hphase | writeFail hphase | readOn hphase
  | bidFarewell hphase | close hphase | shut hphase | finish hphase => simp [hphase] at hopen

theorem Hears.endsOpen_eq (h : s.Hears s') : s'.endsOpen = s.endsOpen := by
  cases h with
  | joining free hphase => simp [Session.endsOpen, hphase]
  | deregistering hphase => simp [Session.endsOpen, hphase]
  | nothing => rfl

end Session

end Reckoner
