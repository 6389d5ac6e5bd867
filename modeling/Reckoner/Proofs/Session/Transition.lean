import Reckoner.Session.Basic

/-!
# What one step of a session does

Everything that a session does is `Session.step`.  All that it can do is said once here, so that
what holds of sessions is proved by one case for each way to go on.

* `Session.rejection?` — what is said about a line that is malformed or out of place.
* `Session.Transition` — the steps of a session, as a relation.
* `Session.transition_of_step` — `Session.step` takes one of these.
* `Session.Hears` — what an answer of the registry leads to.
-/

namespace Reckoner

namespace Session

/-! ### Lines -/

/-- The session goes on to read, and nothing comes before that. -/
structure Reads (o : Outlook) (s : Session) (out : Channel) (input : Input)
    (pulled : Option Pulled) : Prop where
  cancelled : o.cancelled = false
  broken : out.broken = false
  waiting : s.input.isExhausted = false
  pull : s.input.pull (lineLimit o.limits.longestLine) = (input, pulled)

/-- How a session ends that gets no line where it asks for one. -/
def endOfPulled (longest : Nat) : Pulled → Option SessionEnd
  | .eof => some .peerClosed
  | .failure reason => some (.failed (.io reason))
  | .piece bytes =>
    match lineOfPiece longest bytes with
    | none => some (.failed (.lineTooLong longest))
    | some _ => none

/-- The line that a session gets. -/
def lineOfPulled (longest : Nat) : Pulled → Option String
  | .piece bytes => lineOfPiece longest bytes
  | _ => none

/-- The session once it has got a line. -/
def withLine (s : Session) (input : Input) (line : String) : Session :=
  { s with input, handled := s.handled ++ [line] }

@[simp] theorem withLine_joined (s : Session) (input : Input) (line : String) :
    (s.withLine input line).joined = s.joined := rfl

/-- The response to a command that is malformed, out of place, or comes at a bad time, and what is
    logged of it. -/
def rejection? (o : Outlook) (s : Session) (command : Command) : Option (Response × String) :=
  match command, s.joined with
  | .malformed reason, _ => some (.invalidFormat, reason.message)
  | .join _, none => none
  | command, none => some (.invalidFormat, command.keyword?.getD "" ++ " before JOIN")
  | .join _, some _ => some (.invalidFormat, "Already joined")
  | .calculate _ _, some _ =>
    match o.refusal? with
    | some (.full capacity) => some (.busy, QueueError.message (.full capacity))
    | _ => none
  | .leave _, some _ => none

/-- What a session goes on to that has a response to write. -/
def phaseOfReply (r : Response) (next : AfterReply) (out : Channel) : SessionPhase :=
  if out.broken then .ending (.failed (.write .broken)) else .answering r next

/-- What a session goes on to that has only its output to close. -/
def phaseOfClose (e : SessionEnd) (out : Channel) : SessionPhase :=
  if out.broken then .finished e else .closing e

/-! ### Steps -/

/-- **All that a session can do.** The last index is the step that it leads to; how much effort it
    took does not matter here. -/
inductive Transition (o : Outlook) (s : Session) (out : Channel) : SessionStep → Prop where
  /-- The service shuts down. -/
  | cancel {since n : Nat} (hphase : s.phase = .reading since) (hcancelled : o.cancelled = true) :
      Transition o s out ⟨{ s with phase := .ending .shutdown }, out, none, [], n⟩
  /-- The session notices that its output is broken. -/
  | notice {since n : Nat} (hphase : s.phase = .reading since) (hcancelled : o.cancelled = false)
      (hbroken : out.broken = true) :
      Transition o s out
        ⟨{ s with phase := .ending (.failed (.write .broken)) }, out, none, [], n⟩
  /-- No line has come in time. -/
  | expire {since n : Nat} (hphase : s.phase = .reading since) (hcancelled : o.cancelled = false)
      (hbroken : out.broken = false) (hexhausted : s.input.isExhausted = true)
      (htime : since + o.limits.readTimeout ≤ o.clock) :
      Transition o s out
        ⟨{ s with phase := .ending (.failed (.timeout (.ofMillis o.limits.readTimeout))) },
          out, none, [], n⟩
  /-- A part of a line comes in. -/
  | gather {since n : Nat} {input : Input} (hphase : s.phase = .reading since)
      (hreads : s.Reads o out input none) :
      Transition o s out ⟨{ s with input }, out, none, [], n⟩
  /-- There are no more lines, or a line is too long. -/
  | runOut {since n : Nat} {input : Input} {pulled : Pulled} {e : SessionEnd}
      (hphase : s.phase = .reading since) (hreads : s.Reads o out input (some pulled))
      (hend : endOfPulled o.limits.longestLine pulled = some e) :
      Transition o s out ⟨{ s with input, phase := .ending e }, out, none, [], n⟩
  /-- A line is rejected. -/
  | reject {since n : Nat} {input : Input} {pulled : Pulled} {line : String} {r : Response}
      {detail : String} (hphase : s.phase = .reading since)
      (hreads : s.Reads o out input (some pulled))
      (hline : lineOfPulled o.limits.longestLine pulled = some line)
      (hreject : s.rejection? o (Command.ofLine line) = some (r, detail)) :
      Transition o s out
        ⟨{ s.withLine input line with phase := .answering r .readOn }, out, none,
          [s.errorEntry detail], n⟩
  /-- A client wants to join. -/
  | want {since n : Nat} {input : Input} {pulled : Pulled} {line name : String}
      (hphase : s.phase = .reading since) (hreads : s.Reads o out input (some pulled))
      (hline : lineOfPulled o.limits.longestLine pulled = some line)
      (hcommand : Command.ofLine line = .join name) (hjoined : s.joined = none) :
      Transition o s out
        ⟨{ s.withLine input line with phase := .asking name }, out, none, [], n⟩
  /-- A client who has joined asks for a calculation. -/
  | request {since n : Nat} {input : Input} {pulled : Pulled} {line given expression : String}
      {j : Joined} (hphase : s.phase = .reading since) (hreads : s.Reads o out input (some pulled))
      (hline : lineOfPulled o.limits.longestLine pulled = some line)
      (hcommand : Command.ofLine line = .calculate given expression) (hjoined : s.joined = some j)
      (hqueue : o.refusal? = none) :
      Transition o s out
        ⟨{ s.withLine input line with phase := .reading o.clock }, out,
          some (.submit j.name expression), [], n⟩
  /-- The same, but nothing takes requests any more. -/
  | requestLost {since n : Nat} {input : Input} {pulled : Pulled} {line given expression : String}
      {j : Joined} (hphase : s.phase = .reading since) (hreads : s.Reads o out input (some pulled))
      (hline : lineOfPulled o.limits.longestLine pulled = some line)
      (hcommand : Command.ofLine line = .calculate given expression) (hjoined : s.joined = some j)
      (hqueue : o.refusal? = some .closed) :
      Transition o s out
        ⟨{ s.withLine input line with phase := .ending (.failed .queueClosed) }, out, none, [], n⟩
  /-- A client who has joined leaves. -/
  | leave {since n : Nat} {input : Input} {pulled : Pulled} {line given : String} {j : Joined}
      (hphase : s.phase = .reading since) (hreads : s.Reads o out input (some pulled))
      (hline : lineOfPulled o.limits.longestLine pulled = some line)
      (hcommand : Command.ofLine line = .leave given) (hjoined : s.joined = some j) :
      Transition o s out
        ⟨{ s.withLine input line with phase := .answering (.goodbye j.name) .leave }, out, none,
          [], n⟩
  /-- The session asks the registry for a name. -/
  | ask {name : String} {n : Nat} (hphase : s.phase = .asking name)
      (hruns : o.registryRuns = true) :
      Transition o s out ⟨{ s with phase := .joining name }, out, some (.register name), [], n⟩
  /-- The registry is gone when the session asks it for a name, or before it has answered. -/
  | askLost {name : String} {n : Nat} (hphase : s.phase = .asking name ∨ s.phase = .joining name)
      (hruns : o.registryRuns = false) :
      Transition o s out
        ⟨{ s with phase := .ending (.failed .registryClosed) }, out, none, [], n⟩
  /-- The client has joined. -/
  | join {name : String} {n : Nat} (hphase : s.phase = .joinAnswered name true) :
      Transition o s out
        ⟨{ s with
            joined := some ⟨name, o.wall⟩, phase := phaseOfReply (.welcome name) .readOn out },
          out, none, [⟨.connect, name, "Connected from " ++ s.peer⟩], n⟩
  /-- The name is taken. -/
  | deny {name : String} {n : Nat} (hphase : s.phase = .joinAnswered name false) :
      Transition o s out
        ⟨{ s with phase := phaseOfReply .nameTaken .readOn out }, out, none,
          [⟨.err, unknownLabel, "Client name already in use: " ++ name⟩], n⟩
  /-- The session starts a response. -/
  | answer {r : Response} {next : AfterReply} {n : Nat} (hphase : s.phase = .answering r next) :
      Transition o s out
        ⟨{ s with phase := .sending out.nextTicket next }, (out.startLine r.line).1, none, [], n⟩
  /-- The session carries on with a response. -/
  | write {ticket n : Nat} {next : AfterReply} (hphase : s.phase = .sending ticket next)
      (hready : out.isReady o.clock ticket = true)
      (hprogress : (out.poll o.clock ticket).progress = none) :
      Transition o s out ⟨s, (out.poll o.clock ticket).channel, none, [], n⟩
  /-- The response cannot be written. -/
  | writeFail {ticket n : Nat} {next : AfterReply} {e : WriteError}
      (hphase : s.phase = .sending ticket next) (hready : out.isReady o.clock ticket = true)
      (hprogress : (out.poll o.clock ticket).progress = some (.error e)) :
      Transition o s out
        ⟨{ s with phase := .ending (.failed (.write e)) }, (out.poll o.clock ticket).channel, none,
          [], n⟩
  /-- The response is written, and the session reads on. -/
  | readOn {ticket n : Nat} (hphase : s.phase = .sending ticket .readOn)
      (hready : out.isReady o.clock ticket = true)
      (hprogress : (out.poll o.clock ticket).progress = some (.ok ())) :
      Transition o s out
        ⟨{ s with phase := .reading o.clock }, (out.poll o.clock ticket).channel, none, [], n⟩
  /-- The response is written, and the client has left. -/
  | bidFarewell {ticket n : Nat} (hphase : s.phase = .sending ticket .leave)
      (hready : out.isReady o.clock ticket = true)
      (hprogress : (out.poll o.clock ticket).progress = some (.ok ())) :
      Transition o s out
        ⟨{ s with phase := .ending .left }, (out.poll o.clock ticket).channel, none, [], n⟩
  /-- The session of a client who has joined begins to clean up. -/
  | cleanUp {e : SessionEnd} {j : Joined} {n : Nat} (hphase : s.phase = .ending e)
      (hjoined : s.joined = some j) :
      Transition o s out ⟨{ s with phase := .returning e }, out, none, s.endEntries e, n⟩
  /-- There is no name to give back. -/
  | skip {e : SessionEnd} {n : Nat} (hphase : s.phase = .ending e) (hjoined : s.joined = none) :
      Transition o s out ⟨{ s with phase := phaseOfClose e out }, out, none, s.endEntries e, n⟩
  /-- The session asks the registry to take back its name. -/
  | giveBack {e : SessionEnd} {j : Joined} {n : Nat} (hphase : s.phase = .returning e)
      (hjoined : s.joined = some j) (hruns : o.registryRuns = true) :
      Transition o s out
        ⟨{ s with phase := .deregistering e }, out, some (.deregister j.name), [], n⟩
  /-- The registry is gone when the session asks, or before it has answered. -/
  | giveBackLost {e : SessionEnd} {n : Nat}
      (hphase : s.phase = .returning e ∧ (s.joined = none ∨ o.registryRuns = false) ∨
        s.phase = .deregistering e ∧ o.registryRuns = false) :
      Transition o s out
        ⟨{ s with phase := phaseOfClose e out }, out, none, (s.signOff o e out).log, n⟩
  /-- The registry has taken back the name. -/
  | signOff {e : SessionEnd} {n : Nat} (hphase : s.phase = .deregistered e) :
      Transition o s out
        ⟨{ s with phase := phaseOfClose e out }, out, none, (s.signOff o e out).log, n⟩
  /-- The session starts to close its output. -/
  | close {e : SessionEnd} {n : Nat} (hphase : s.phase = .closing e) :
      Transition o s out
        ⟨{ s with phase := .shutting out.nextTicket e }, out.startClose.1, none, [], n⟩
  /-- The session carries on with closing its output. -/
  | shut {ticket n : Nat} {e : SessionEnd} (hphase : s.phase = .shutting ticket e)
      (hready : out.isReady o.clock ticket = true)
      (hprogress : (out.poll o.clock ticket).progress = none) :
      Transition o s out ⟨s, (out.poll o.clock ticket).channel, none, [], n⟩
  /-- The session has ended. -/
  | finish {ticket n : Nat} {e : SessionEnd} {result : Except WriteError Unit}
      (hphase : s.phase = .shutting ticket e) (hready : out.isReady o.clock ticket = true)
      (hprogress : (out.poll o.clock ticket).progress = some result) :
      Transition o s out
        ⟨{ s with phase := .finished e }, (out.poll o.clock ticket).channel, none, [], n⟩

section Step

variable {o : Outlook} {s : Session} {out : Channel} {since : Nat}

/-- On an output that is not broken a response is written. -/
theorem reply_eq (h : out.broken = false) (r : Response) (next : AfterReply)
    (log : List LogEntry) : s.reply r next log out
      = { session := { s with phase := .answering r next }, output := out, log } := by
  rw [reply, h]
  rfl

theorem reply_eq_phase (s : Session) (out : Channel) (r : Response) (next : AfterReply)
    (log : List LogEntry) :
    ∃ n, s.reply r next log out
      = ⟨{ s with phase := phaseOfReply r next out }, out, none, log, n⟩ := by
  unfold reply phaseOfReply
  cases out.broken <;> exact ⟨0, rfl⟩

theorem handleCommand_of_rejection {command : Command} {r : Response} {detail : String}
    (h : s.rejection? o command = some (r, detail)) (hbroken : out.broken = false) :
    s.handleCommand o command out
      = { session := { s with phase := .answering r .readOn }, output := out,
          log := [s.errorEntry detail] } := by
  cases command with
  | malformed reason =>
    cases h
    rw [handleCommand, refuse, reply_eq hbroken]
  | join name =>
    cases hjoined : s.joined with
    | none => simp [rejection?, hjoined] at h
    | some j =>
      simp only [rejection?, hjoined, Option.some.injEq, Prod.mk.injEq] at h
      simp only [handleCommand, hjoined, refuse, reply_eq hbroken, ← h.1, ← h.2]
  | calculate given expression =>
    cases hjoined : s.joined with
    | none =>
      simp only [rejection?, hjoined, Option.some.injEq, Prod.mk.injEq] at h
      simp only [handleCommand, hjoined, refuse, reply_eq hbroken, ← h.1, ← h.2]
    | some j =>
      cases hqueue : o.refusal? with
      | none => simp [rejection?, hjoined, hqueue] at h
      | some error =>
        cases error with
        | closed => simp [rejection?, hjoined, hqueue] at h
        | full capacity =>
          simp only [rejection?, hjoined, hqueue, Option.some.injEq, Prod.mk.injEq] at h
          simp only [handleCommand, hjoined, calculate, hqueue, reply_eq hbroken, ← h.1, ← h.2]
  | leave given =>
    cases hjoined : s.joined with
    | none =>
      simp only [rejection?, hjoined, Option.some.injEq, Prod.mk.injEq] at h
      simp only [handleCommand, hjoined, refuse, reply_eq hbroken, ← h.1, ← h.2]
    | some j => simp [rejection?, hjoined] at h

/-- A line leads on. -/
theorem transition_line {input : Input} {pulled : Pulled} {line : String} (n : Nat)
    (hphase : s.phase = .reading since) (hreads : s.Reads o out input (some pulled))
    (hline : lineOfPulled o.limits.longestLine pulled = some line) :
    Transition o s out { { s with input }.handleLine o line out with effort := n } := by
  have hbroken := hreads.broken
  show Transition o s out
    { (s.withLine input line).handleCommand o (Command.ofLine line) out with effort := n }
  cases hreject : s.rejection? o (Command.ofLine line) with
  | some rejection =>
    have hreject' : (s.withLine input line).rejection? o (Command.ofLine line)
        = some (rejection.1, rejection.2) := hreject
    rw [handleCommand_of_rejection hreject' hbroken]
    exact .reject hphase hreads hline hreject
  | none =>
    cases hcommand : Command.ofLine line with
    | malformed reason => simp [rejection?, hcommand] at hreject
    | join name =>
      cases hjoined : s.joined with
      | none =>
        simp only [handleCommand, withLine_joined, hjoined]
        exact .want hphase hreads hline hcommand hjoined
      | some j => simp [rejection?, hcommand, hjoined] at hreject
    | calculate given expression =>
      cases hjoined : s.joined with
      | none => simp [rejection?, hcommand, hjoined] at hreject
      | some j =>
        simp only [handleCommand, withLine_joined, hjoined, calculate]
        cases hqueue : o.refusal? with
        | none => exact .request hphase hreads hline hcommand hjoined hqueue
        | some error =>
          cases error with
          | closed => exact .requestLost hphase hreads hline hcommand hjoined hqueue
          | full capacity => simp [rejection?, hcommand, hjoined, hqueue] at hreject
    | leave given =>
      cases hjoined : s.joined with
      | none => simp [rejection?, hcommand, hjoined] at hreject
      | some j =>
        have hleave : (s.withLine input line).handleCommand o (.leave given) out
            = (s.withLine input line).reply (.goodbye j.name) .leave [] out := by
          simp only [handleCommand, withLine_joined, hjoined]
        rw [hleave, reply_eq hbroken]
        exact .leave hphase hreads hline hcommand hjoined

theorem transition_read {next : SessionStep} (hphase : s.phase = .reading since)
    (h : s.read o since out = some next) : Transition o s out next := by
  unfold read at h
  -- What comes before reading, in the order in which it is looked at.
  by_cases hcancelled : o.cancelled = true
  · rw [if_pos hcancelled] at h
    cases h
    exact .cancel hphase hcancelled
  rw [if_neg hcancelled] at h
  by_cases hbroken : out.broken = true
  · rw [if_pos hbroken] at h
    cases h
    exact .notice hphase (by simpa using hcancelled) hbroken
  rw [if_neg hbroken] at h
  by_cases hexhausted : s.input.isExhausted = true
  · rw [if_pos hexhausted] at h
    split at h
    · rename_i htime
      cases h
      exact .expire hphase (by simpa using hcancelled) (by simpa using hbroken) hexhausted htime
    · cases h
  rw [if_neg hexhausted] at h
  cases hpull : s.input.pull (lineLimit o.limits.longestLine) with
  | mk input pulled =>
    have hreads : s.Reads o out input pulled :=
      ⟨by simpa using hcancelled, by simpa using hbroken, by simpa using hexhausted, hpull⟩
    simp only [hpull] at h
    cases pulled with
    | none =>
      cases h
      exact .gather hphase hreads
    | some pulled =>
      cases h
      cases pulled with
      | eof => exact .runOut hphase hreads rfl
      | failure reason => exact .runOut hphase hreads rfl
      | piece bytes =>
        simp only [handlePulled]
        cases hline : lineOfPiece o.limits.longestLine bytes with
        | none => exact .runOut hphase hreads (by rw [endOfPulled, hline])
        | some line => exact transition_line _ hphase hreads hline

theorem transition_send {ticket : Nat} {next : AfterReply} (hphase : s.phase = .sending ticket next)
    (hready : out.isReady o.clock ticket = true) :
    Transition o s out (s.send o ticket next out) := by
  cases hprogress : (out.poll o.clock ticket).progress with
  | none =>
    simp only [send, hprogress]
    exact .write hphase hready hprogress
  | some result =>
    cases result with
    | error e =>
      simp only [send, hprogress]
      exact .writeFail hphase hready hprogress
    | ok =>
      cases next with
      | readOn =>
        simp only [send, hprogress]
        exact .readOn hphase hready hprogress
      | leave =>
        simp only [send, hprogress]
        exact .bidFarewell hphase hready hprogress

theorem transition_shut {ticket : Nat} {e : SessionEnd} (hphase : s.phase = .shutting ticket e)
    (hready : out.isReady o.clock ticket = true) : Transition o s out (s.shut o ticket e out) := by
  cases hprogress : (out.poll o.clock ticket).progress with
  | none =>
    simp only [Session.shut, hprogress]
    exact .shut hphase hready hprogress
  | some result =>
    simp only [Session.shut, hprogress]
    exact .finish hphase hready hprogress

theorem transition_answerJoin {name : String} {granted : Bool}
    (hphase : s.phase = .joinAnswered name granted) :
    Transition o s out (s.answerJoin o name granted out) := by
  cases granted with
  | true =>
    obtain ⟨n, hreply⟩ := reply_eq_phase { s with joined := some ⟨name, o.wall⟩ } out
      (.welcome name) .readOn [⟨.connect, name, "Connected from " ++ s.peer⟩]
    simp only [answerJoin, if_true, hreply]
    exact .join hphase
  | false =>
    obtain ⟨n, hreply⟩ := reply_eq_phase s out .nameTaken .readOn
      [⟨.err, unknownLabel, "Client name already in use: " ++ name⟩]
    simp only [answerJoin, Bool.false_eq_true, if_false, hreply]
    exact .deny hphase

theorem transition_giveBack {e : SessionEnd} (hphase : s.phase = .returning e) :
    Transition o s out (s.giveBack o e out) := by
  unfold giveBack
  cases hjoined : s.joined with
  | none => exact .giveBackLost (.inl ⟨hphase, .inl hjoined⟩)
  | some j =>
    by_cases hruns : o.registryRuns = true
    · simp only [if_pos hruns]
      exact .giveBack hphase hjoined hruns
    · simp only [if_neg hruns]
      exact .giveBackLost (.inl ⟨hphase, .inr (by simpa using hruns)⟩)

/-- **One step.** What a session does is one of its transitions. -/
theorem transition_of_step {next : SessionStep} (h : s.step o out = some next) :
    Transition o s out next := by
  unfold step at h
  cases hphase : s.phase with
  | reading since =>
    rw [hphase] at h
    exact transition_read hphase h
  | asking name =>
    simp only [hphase] at h
    cases h
    unfold askToJoin
    by_cases hruns : o.registryRuns = true
    · rw [if_pos hruns]
      exact .ask hphase hruns
    · rw [if_neg hruns]
      exact .askLost (.inl hphase) (by simpa using hruns)
  | joining name =>
    simp only [hphase] at h
    split at h
    · cases h
    · rename_i hruns
      cases h
      exact .askLost (.inr hphase) (by simpa using hruns)
  | joinAnswered name granted =>
    simp only [hphase] at h
    cases h
    exact transition_answerJoin hphase
  | answering r next =>
    simp only [hphase] at h
    cases h
    exact .answer hphase
  | sending ticket next =>
    simp only [hphase] at h
    split at h
    · rename_i hready
      cases h
      exact transition_send hphase hready
    · cases h
  | ending e =>
    simp only [hphase] at h
    cases h
    unfold cleanUp
    cases hjoined : s.joined with
    | none => exact .skip hphase hjoined
    | some j => exact .cleanUp hphase hjoined
  | returning e =>
    simp only [hphase] at h
    cases h
    exact transition_giveBack hphase
  | deregistering e =>
    simp only [hphase] at h
    split at h
    · cases h
    · rename_i hruns
      cases h
      exact .giveBackLost (.inr ⟨hphase, by simpa using hruns⟩)
  | deregistered e =>
    simp only [hphase] at h
    cases h
    exact .signOff hphase
  | closing e =>
    simp only [hphase] at h
    cases h
    exact .close hphase
  | shutting ticket e =>
    simp only [hphase] at h
    split at h
    · rename_i hready
      cases h
      exact transition_shut hphase hready
    · cases h
  | finished e => simp [hphase] at h

end Step

/-! ### Answers -/

/-- **All that an answer of the registry can lead to.** The index is the session after it. -/
inductive Hears (s : Session) : Session → Prop where
  /-- The name is free, or it is taken. -/
  | joining {name : String} (free : Bool) (hphase : s.phase = .joining name) :
      Hears s { s with phase := .joinAnswered name free }
  /-- The name is given back. -/
  | deregistering {e : SessionEnd} (hphase : s.phase = .deregistering e) :
      Hears s { s with phase := .deregistered e }
  /-- The session has not asked. -/
  | nothing : Hears s s

/-- No answer makes a session say anything. -/
theorem Hears.of_answering {s s' : Session} {r : Response} {after : AfterReply} (h : s.Hears s')
    (hphase : s'.phase = .answering r after) : s.phase = .answering r after := by
  cases h with
  | joining | deregistering => cases hphase
  | nothing => exact hphase

theorem hears_hear (s : Session) (reply : RegistryReply) : s.Hears (s.hear reply) := by
  unfold hear
  split
  · rename_i hphase
    exact .joining true hphase
  · rename_i hphase
    exact .joining false hphase
  · rename_i hphase
    exact .deregistering hphase
  · exact .nothing

theorem Hears.handled {s s' : Session} (h : s.Hears s') : s'.handled = s.handled := by
  cases h <;> rfl

/-- No answer ends a session, and none wakes one that has ended. -/
theorem hasFinished_hear (s : Session) (reply : RegistryReply) :
    (s.hear reply).hasFinished = s.hasFinished := by
  have hears := s.hears_hear reply
  generalize s.hear reply = s' at hears
  cases hears with
  | joining _ hphase | deregistering hphase => simp [hasFinished, hphase]
  | nothing => rfl

/-- A session that has ended takes no step. -/
theorem Transition.hasFinished_eq_false {o : Outlook} {s : Session} {out : Channel}
    {next : SessionStep} (h : Transition o s out next) : s.hasFinished = false := by
  unfold hasFinished
  split
  · cases h <;> simp_all
  · rfl

end Session

end Reckoner
