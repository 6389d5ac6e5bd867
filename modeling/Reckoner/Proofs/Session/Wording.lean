import Reckoner.Proofs.Session.Framing
import Reckoner.Proofs.Session.Stage
import Reckoner.Proofs.Wire.OneLine

/-!
# What a session says is one line

The only words of a client that are repeated to it are its name, and that was a part of a line.

* `Session.Plain` — no name that a session knows, and nothing that it is about to say, has a line
  feed in it.
* `Session.Transition.plain` — it is so after each step.
-/

namespace Reckoner

/-- Notices are one line if the names in them are. -/
theorem Response.IsNotice.isLine {r : Response} (h : r.IsNotice)
    (hname : ∀ name, r = .welcome name ∨ r = .goodbye name → '\n' ∉ name.toList) : r.IsLine := by
  cases h with
  | welcome name => exact isLine_welcome (hname name (.inl rfl))
  | goodbye name => exact isLine_goodbye (hname name (.inr rfl))
  | invalidFormat | nameTaken | busy => exact isLine_error (by decide)

namespace Session

/-- The name that the client wants to join under. -/
def wanted? (s : Session) : Option String :=
  match s.phase with
  | .asking name | .joining name | .joinAnswered name _ => some name
  | _ => none

/-- **Plain sessions.** The line that was begun holds no line feed, nor does any name, nor what the
    session is about to say. -/
structure Plain (s : Session) (limit : Nat) : Prop where
  framed : s.input.Framed limit
  joined : ∀ {j : Joined}, s.joined = some j → '\n' ∉ j.name.toList
  wanted : ∀ {name : String}, s.wanted? = some name → '\n' ∉ name.toList
  spoken : ∀ {r : Response} {next : AfterReply}, s.phase = .answering r next → r.IsLine

variable {o : Outlook} {s s' : Session} {out : Channel} {next : SessionStep} {limit : Nat}

/-- A line that a session reads holds no line feed. -/
theorem Reads.notMem {input : Input} {pulled : Pulled} {line : String}
    (hreads : s.Reads o out input (some pulled))
    (hline : lineOfPulled o.limits.longestLine pulled = some line)
    (hframed : s.input.Framed (lineLimit o.limits.longestLine)) : '\n' ∉ line.toList := by
  cases pulled with
  | eof | failure => cases hline
  | piece bytes => exact notMem_of_lineOfPiece hline (Input.notMem_of_pull hframed hreads.pull)

theorem Reads.framed {input : Input} {pulled : Option Pulled}
    (hreads : s.Reads o out input pulled)
    (hframed : s.input.Framed (lineLimit o.limits.longestLine)) :
    input.Framed (lineLimit o.limits.longestLine) := by
  have hpull := hframed.pull
  rwa [hreads.pull] at hpull

/-- The session goes on to something in which it neither wants nor says anything. -/
theorem Plain.turn (h : s.Plain limit) {phase : SessionPhase}
    (hwanted : ({ s with phase } : Session).wanted? = none)
    (hquiet : ∀ r after, phase ≠ .answering r after) :
    ({ s with phase } : Session).Plain limit := by
  refine ⟨h.framed, h.joined, ?_, fun hphase => absurd hphase (hquiet _ _)⟩
  intro name hname
  rw [hwanted] at hname
  cases hname

/-- It goes on to something in which it wants a name. -/
theorem Plain.want (h : s.Plain limit) {phase : SessionPhase} {name : String}
    (hname : '\n' ∉ name.toList) (hwanted : ({ s with phase } : Session).wanted? = some name)
    (hquiet : ∀ r after, phase ≠ .answering r after) :
    ({ s with phase } : Session).Plain limit := by
  refine ⟨h.framed, h.joined, ?_, fun hphase => absurd hphase (hquiet _ _)⟩
  intro name' hname'
  rw [hwanted] at hname'
  cases hname'
  exact hname

/-- It goes on to say something that is one line. -/
theorem Plain.speak (h : s.Plain limit) {r : Response} (hr : r.IsLine) (after : AfterReply) :
    ({ s with phase := .answering r after } : Session).Plain limit := by
  refine ⟨h.framed, h.joined, nofun, ?_⟩
  rintro r' after' hphase
  cases hphase
  exact hr

/-- So it does if its output takes it. -/
theorem Plain.say (h : s.Plain limit) {r : Response} (hr : r.IsLine) (after : AfterReply)
    (out : Channel) : ({ s with phase := phaseOfReply r after out } : Session).Plain limit := by
  unfold phaseOfReply
  split
  · exact h.turn rfl fun _ _ => nofun
  · exact h.speak hr after

/-- It has read something. -/
theorem Plain.read (h : s.Plain (lineLimit o.limits.longestLine)) {input : Input}
    {pulled : Option Pulled} (hreads : s.Reads o out input pulled) (handled : List String) :
    ({ s with input, handled } : Session).Plain (lineLimit o.limits.longestLine) :=
  ⟨hreads.framed h.framed, h.joined, h.wanted, h.spoken⟩

theorem Transition.plain (h : Transition o s out next)
    (hs : s.Plain (lineLimit o.limits.longestLine)) :
    next.session.Plain (lineLimit o.limits.longestLine) := by
  cases h with
  | cancel | notice | expire | askLost | writeFail | readOn | bidFarewell | cleanUp | giveBack
  | close | finish | answer => exact hs.turn rfl fun _ _ => nofun
  | gather hphase hreads => exact hs.read hreads _
  | runOut hphase hreads | requestLost hphase hreads | request hphase hreads =>
    exact (hs.read hreads _).turn rfl fun _ _ => nofun
  | @reject _ _ input _ line r _ hphase hreads hline hreject =>
    obtain ⟨text, rfl⟩ := isError_of_rejection hreject
    refine (hs.read hreads _).speak ((isNotice_of_rejection hreject).isLine fun name heq => ?_) _
    rcases heq with heq | heq <;> cases heq
  | want hphase hreads hline hcommand =>
    have hname := Command.notMem_of_join hcommand (hreads.notMem hline hs.framed)
    exact (hs.read hreads _).want hname rfl fun _ _ => nofun
  | leave hphase hreads hline hcommand hjoined =>
    exact (hs.read hreads _).speak (Response.isLine_goodbye (hs.joined hjoined)) _
  | ask hphase =>
    exact hs.want (hs.wanted (by rw [wanted?, hphase])) rfl fun _ _ => nofun
  | @join name _ hphase =>
    have hname : '\n' ∉ name.toList := hs.wanted (by rw [wanted?, hphase])
    have hjoined : ({ s with joined := some ⟨name, o.wall⟩ } : Session).Plain
        (lineLimit o.limits.longestLine) := by
      refine ⟨hs.framed, ?_, hs.wanted, hs.spoken⟩
      rintro j hj
      cases hj
      exact hname
    exact hjoined.say (Response.isLine_welcome hname) .readOn out
  | deny hphase => exact hs.say (Response.isLine_error (by decide)) .readOn out
  | write | shut => exact hs
  | skip | giveBackLost | signOff =>
    unfold phaseOfClose
    split <;> exact hs.turn rfl fun _ _ => nofun

/-- An answer of the registry brings up no other name. -/
theorem Plain.hear (h : s.Plain limit) (hhears : s.Hears s') : s'.Plain limit := by
  cases hhears with
  | joining free hphase =>
    exact h.want (h.wanted (by rw [wanted?, hphase])) rfl fun _ _ => nofun
  | deregistering => exact h.turn rfl fun _ _ => nofun
  | nothing => exact h

/-- A session that begins has been told no name. -/
theorem plain_begin (peer : String) (since longest : Nat) :
    ({ peer, phase := .reading since } : Session).Plain (lineLimit longest) := by
  refine ⟨⟨List.not_mem_nil, ?_⟩, nofun, nofun, nofun⟩
  show 0 < min (longest + 2) (Nat.pow 2 64 - 1)
  exact Nat.lt_min.mpr ⟨Nat.succ_pos _, by decide⟩

end Session

end Reckoner
