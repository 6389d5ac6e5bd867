import Reckoner.Proofs.Session.Life

/-!
# How a session turns a line away

From the step in which a session gets a line that it rejects to the step in which it reads on, or
fails, it tells the log of it once and tries to tell the client once.

* `Session.isAtLine` — the session has got a line and is not done with it.
* `Session.Wants` — the line is the wish of a stranger for a name, so that the registry decides.
* `Session.Rebuff` — how far the session has got with turning the line away, with what it has logged
  and said of it so far.
* `Session.step_of_line` — what the session does with the line at first.
* `Session.Rebuff.step`, `Session.Rebuff.hear` — how it goes on, until it is done with the line.
-/

namespace Reckoner

namespace Session

variable {o : Outlook} {s₀ s : Session} {out : Channel} {next : SessionStep} {line name : String}
  {entry : LogEntry} {r : Response} {logged : List LogEntry} {tried said : List Response}

/-! ### Lines that are being handled -/

/-- The session has got a line, and is not done with it. -/
def isAtLine (s : Session) : Bool :=
  match s.phase with
  | .asking _ | .joining _ | .joinAnswered _ _ | .answering _ _ | .sending _ _ => true
  | _ => false

/-- The line is the wish of a stranger for a name. -/
structure Wants (s : Session) (line name : String) : Prop where
  stranger : s.joined = none
  asks : Command.ofLine line = .join name

/-- What is logged of a stranger who wants a name that is taken. -/
def takenEntry (name : String) : LogEntry :=
  ⟨.err, unknownLabel, "Client name already in use: " ++ name⟩

/-- **How far a session has got with turning a line away**: what it is doing, what it has logged so
    far, what it has tried to say, and what it has started to write. -/
inductive Rebuff (s₀ : Session) (line : String) (entry : LogEntry) (r : Response) :
    SessionPhase → List LogEntry → List Response → List Response → Prop where
  /-- It is about to ask the registry for the name. -/
  | asks {name : String} (hwants : s₀.Wants line name) :
      Rebuff s₀ line entry r (.asking name) [] [] []
  /-- It has asked. -/
  | waits {name : String} (hwants : s₀.Wants line name) :
      Rebuff s₀ line entry r (.joining name) [] [] []
  /-- The registry is gone, which ends the session before the line is turned away. -/
  | lost {name : String} (hwants : s₀.Wants line name) :
      Rebuff s₀ line entry r (.ending (.failed .registryClosed)) [] [] []
  /-- The registry has said no. -/
  | denied {name : String} (hwants : s₀.Wants line name) :
      Rebuff s₀ line entry r (.joinAnswered name false) [] [] []
  /-- The session is about to answer. -/
  | answers : Rebuff s₀ line entry r (.answering r .readOn) [entry] [r] []
  /-- It would, but its output has broken in the meantime. -/
  | unsaid : Rebuff s₀ line entry r (.ending (.failed (.write .broken))) [entry] [r] []
  /-- It writes the answer. -/
  | sends {ticket : Nat} : Rebuff s₀ line entry r (.sending ticket .readOn) [entry] [r] [r]
  /-- The answer is written, and the session waits for the next line. -/
  | written {since : Nat} : Rebuff s₀ line entry r (.reading since) [entry] [r] [r]
  /-- The answer cannot be written, which ends the session. -/
  | failed {e : WriteError} :
      Rebuff s₀ line entry r (.ending (.failed (.write e))) [entry] [r] [r]

/-- The session stays who it is, reads nothing, and asks for nothing but a name. -/
structure KeepsTo (s : Session) (next : SessionStep) : Prop where
  joined : next.session.joined = s.joined
  peer : next.session.peer = s.peer
  input : next.session.input = s.input
  handled : next.session.handled = s.handled
  errand : next.errand = none ∨ ∃ name, next.errand = some (.register name)

/-! ### The step that gets the line -/

/-- What a session does with a line that it gets. -/
theorem step_of_line {since : Nat} {input : Input} {pulled : Pulled}
    (hphase : s.phase = .reading since) (hreads : s.Reads o out input (some pulled))
    (hline : lineOfPulled o.limits.longestLine pulled = some line) :
    ∃ n, s.step o out
      = some { (s.withLine input line).handleCommand o (Command.ofLine line) out with
          effort := n } := by
  refine ⟨s.input.effort (lineLimit o.limits.longestLine), ?_⟩
  have hpulled : { s with input }.handlePulled o out pulled
      = (s.withLine input line).handleCommand o (Command.ofLine line) out := by
    cases pulled with
    | piece bytes =>
      have hpiece : lineOfPiece o.limits.longestLine bytes = some line := hline
      simp only [handlePulled, hpiece]
      rfl
    | eof | failure => cases hline
  have hread : s.step o out = s.read o since out := by rw [step, hphase]
  rw [hread]
  simp only [read, hreads.cancelled, hreads.broken, hreads.waiting, hreads.pull,
    Bool.false_eq_true, if_false, hpulled]

/-- **The first step** raises the objection, or asks the registry whether there is one. -/
theorem rebuff_of_line {since : Nat} {input : Input} {pulled : Pulled}
    (hphase : s.phase = .reading since) (hreads : s.Reads o out input (some pulled))
    (hline : lineOfPulled o.limits.longestLine pulled = some line)
    (hobjects : (∃ name, s.Wants line name) ∨ ∃ detail,
      s.rejection? o (Command.ofLine line) = some (r, detail) ∧ entry = s.errorEntry detail) :
    ∃ next, s.step o out = some next ∧ next.errand = none ∧ next.session.joined = s.joined ∧
      next.session.peer = s.peer ∧ next.session.input = input ∧
      next.session.handled = s.handled ++ [line] ∧
      Rebuff s line entry r next.session.phase next.log (s.attempt? next).toList [] := by
  obtain ⟨n, hstep⟩ := step_of_line hphase hreads hline
  rcases hobjects with ⟨name, hwants⟩ | ⟨detail, hreject, rfl⟩
  · have hask : (s.withLine input line).handleCommand o (Command.ofLine line) out
        = (s.withLine input line).turnTo (.asking name) out := by
      simp only [handleCommand, hwants.asks, withLine_joined, hwants.stranger]
    rw [hask] at hstep
    refine ⟨_, hstep, rfl, rfl, rfl, rfl, rfl, ?_⟩
    simp only [attempt?, hphase]
    exact .asks hwants
  · have hreject' : (s.withLine input line).rejection? o (Command.ofLine line)
        = some (r, detail) := hreject
    rw [handleCommand_of_rejection hreject' hreads.broken] at hstep
    refine ⟨_, hstep, rfl, rfl, rfl, rfl, rfl, ?_⟩
    simp only [attempt?, hphase]
    exact .answers

/-! ### The steps after it -/

/-- **A step goes on with turning the line away.** -/
theorem Rebuff.step (h : Rebuff s₀ line entry r s.phase logged tried said)
    (hat : s.isAtLine = true)
    (hdenied : ∀ name, s₀.Wants line name → entry = takenEntry name ∧ r = .nameTaken)
    (hstep : s.step o out = some next) :
    Rebuff s₀ line entry r next.session.phase (logged ++ next.log)
        (tried ++ (s.attempt? next).toList) (said ++ s.saying?.toList.filterMap Utterance.notice?) ∧
      s.KeepsTo next := by
  -- By what the session is doing, in the order in which it gets on.
  unfold isAtLine at hat
  generalize hphase : s.phase = phase at h hat
  cases h with
  | @asks name hwants =>
    simp only [Session.step, hphase, askToJoin] at hstep
    split at hstep <;> cases hstep <;> simp only [attempt?, saying?, hphase]
    · exact ⟨.waits hwants, rfl, rfl, rfl, rfl, .inr ⟨name, rfl⟩⟩
    · exact ⟨.lost hwants, rfl, rfl, rfl, rfl, .inl rfl⟩
  | @waits name hwants =>
    simp only [Session.step, hphase] at hstep
    split at hstep
    · cases hstep
    · cases hstep
      simp only [attempt?, saying?, hphase]
      exact ⟨.lost hwants, rfl, rfl, rfl, rfl, .inl rfl⟩
  | @denied name hwants =>
    obtain ⟨rfl, rfl⟩ := hdenied name hwants
    simp only [Session.step, hphase, answerJoin, Bool.false_eq_true, if_false, reply] at hstep
    cases hstep
    simp only [attempt?, saying?, hphase]
    split
    · exact ⟨.unsaid, rfl, rfl, rfl, rfl, .inl rfl⟩
    · exact ⟨.answers, rfl, rfl, rfl, rfl, .inl rfl⟩
  | answers =>
    simp only [Session.step, hphase] at hstep
    cases hstep
    simp only [attempt?, saying?, hphase]
    exact ⟨.sends, rfl, rfl, rfl, rfl, .inl rfl⟩
  | @sends ticket =>
    simp only [Session.step, hphase] at hstep
    split at hstep
    · cases hstep
      simp only [attempt?, saying?, hphase, send]
      cases (out.poll o.clock ticket).progress with
      | none =>
        simp only [hphase]
        exact ⟨.sends, rfl, rfl, rfl, rfl, .inl rfl⟩
      | some result =>
        cases result with
        | error e => exact ⟨.failed, rfl, rfl, rfl, rfl, .inl rfl⟩
        | ok => exact ⟨.written, rfl, rfl, rfl, rfl, .inl rfl⟩
    · cases hstep
  | lost | unsaid | written | failed => cases hat

/-- A session that has to wait says nothing. -/
theorem saying?_of_wait (hstep : s.step o out = none) : s.saying? = none := by
  unfold saying?
  split
  · rename_i hphase
    simp only [Session.step, hphase] at hstep
    cases hstep
  · rfl

/-- **The registry says no** to the session that waits for it. -/
theorem Rebuff.hear (h : Rebuff s₀ line entry r s.phase logged tried said)
    (hphase : s.phase = .joining name) (e : RegistryError) :
    Rebuff s₀ line entry r (s.hear (.registered (.error e))).phase logged tried said := by
  rw [hphase] at h
  cases h with
  | waits hwants =>
    simp only [Session.hear, hphase]
    exact .denied hwants

end Session

end Reckoner
