import Reckoner.Proofs.EventLog.OneLine
import Reckoner.Proofs.Session.Wording

/-!
# What a session logs is one line

Next to its client's name a session logs where its client is, why its input has failed, and parts of
the lines that it refuses.

* `Session.Tidy` — what a session knows of its connection, and what it ends for, is one line each.
* `Session.Transition.tidy` — it is so after each step.
* `Session.Transition.reports` — each entry that a step logs is one line.
-/

namespace Reckoner

/-! ### The end of the input -/

namespace Input

variable {i i' : Input} {limit : Nat}

theorem ending_look (limit : Nat) (i : Input) : (i.look limit).1.ending = i.ending := by
  unfold look
  dsimp only
  split
  · rfl
  · split <;> rfl

theorem ending_pullEnd (i : Input) : i.pullEnd.1.ending = i.ending := by
  unfold pullEnd
  split
  · rfl
  · rfl
  · split <;> rfl

theorem ending_pull (limit : Nat) (i : Input) : (i.pull limit).1.ending = i.ending := by
  have hlook := ending_look limit i
  unfold pull
  split
  · rename_i hfound
    rwa [hfound] at hlook
  · rename_i i' hnone
    rw [hnone] at hlook
    split
    · exact (ending_pullEnd i').trans hlook
    · exact (ending_look limit i'.takeOver).trans hlook

/-- A failure that is read is the failure that the input has ended with. -/
theorem ending_of_pull {reason : String} (hframed : Framed limit i)
    (hpull : i.pull limit = (i', some (.failure reason))) : i.ending = some (.failure reason) := by
  have hpulls := pulls_pull hframed
  rw [hpull] at hpulls
  cases hpulls with
  | failure hending => exact hending

end Input

/-! ### Tidy sessions -/

namespace Session

/-- **Tidy sessions.** There is no line feed in where the client is, in what its input has failed
    with, and in what the session ends for. -/
structure Tidy (s : Session) : Prop where
  peer : '\n' ∉ s.peer.toList
  input : ∀ {reason : String}, s.input.ending = some (.failure reason) → '\n' ∉ reason.toList
  failure : ∀ {e : SessionError}, s.end? = some (.failed e) → e.IsLine

variable {o : Outlook} {s s' : Session} {out : Channel} {next : SessionStep} {limit : Nat}

theorem Plain.label (h : s.Plain limit) : '\n' ∉ s.label.toList := by
  unfold Session.label
  split
  · rename_i j hjoined
    exact h.joined hjoined
  · decide

/-- The session goes on to something that is not its end. -/
theorem Tidy.turn (h : s.Tidy) {phase : SessionPhase}
    (hend : ({ s with phase } : Session).end? = none) : ({ s with phase } : Session).Tidy := by
  refine ⟨h.peer, h.input, fun {e} he => ?_⟩
  rw [hend] at he
  cases he

/-- It ends. -/
theorem Tidy.endFor (h : s.Tidy) {phase : SessionPhase} {e : SessionEnd}
    (hend : ({ s with phase } : Session).end? = some e)
    (he : ∀ {error : SessionError}, e = .failed error → error.IsLine) :
    ({ s with phase } : Session).Tidy := by
  refine ⟨h.peer, h.input, fun {error} herror => ?_⟩
  rw [hend] at herror
  exact he (Option.some.inj herror)

/-- It goes on with its end. -/
theorem Tidy.proceed (h : s.Tidy) {phase : SessionPhase}
    (hend : ({ s with phase } : Session).end? = s.end?) : ({ s with phase } : Session).Tidy := by
  refine ⟨h.peer, h.input, fun {e} he => h.failure ?_⟩
  rwa [hend] at he

/-- It goes on to say something, if its output takes it. -/
theorem Tidy.say (h : s.Tidy) (r : Response) (after : AfterReply) (out : Channel) :
    ({ s with phase := phaseOfReply r after out } : Session).Tidy := by
  unfold phaseOfReply
  split
  · refine h.endFor rfl ?_
    rintro _ ⟨⟩
    exact SessionError.isLine_write WriteError.isLine_broken
  · exact h.turn rfl

/-- It has read something. -/
theorem Tidy.read (h : s.Tidy) {input : Input} {pulled : Option Pulled}
    (hreads : s.Reads o out input pulled) (handled : List String) :
    ({ s with input, handled } : Session).Tidy := by
  have hending := Input.ending_pull (lineLimit o.limits.longestLine) s.input
  rw [hreads.pull] at hending
  exact ⟨h.peer, fun hreason => h.input (hending.symm.trans hreason), h.failure⟩

/-- A session that has nothing to read ends for something that is one line. -/
theorem Tidy.isLine_of_endOfPulled (h : s.Tidy)
    (hframed : s.input.Framed (lineLimit o.limits.longestLine)) {input : Input} {pulled : Pulled}
    {e : SessionError} (hreads : s.Reads o out input (some pulled))
    (hend : endOfPulled o.limits.longestLine pulled = some (.failed e)) : e.IsLine := by
  cases pulled with
  | eof => cases hend
  | failure reason =>
    cases hend
    exact SessionError.isLine_io (h.input (Input.ending_of_pull hframed hreads.pull))
  | piece bytes =>
    cases hline : lineOfPiece o.limits.longestLine bytes with
    | none =>
      simp only [endOfPulled, hline] at hend
      cases hend
      exact SessionError.isLine_lineTooLong _
    | some line => simp [endOfPulled, hline] at hend

theorem Transition.tidy (h : Transition o s out next) (hs : s.Tidy)
    (hplain : s.Plain (lineLimit o.limits.longestLine)) : next.session.Tidy := by
  have hclose {e : SessionEnd} (hend : s.end? = some e) :
      ({ s with phase := phaseOfClose e out } : Session).Tidy := by
    refine hs.proceed ?_
    -- Whether its output has to be closed first or not, it ends for the same.
    rw [hend, Session.end?, phaseOfClose]
    cases out.broken <;> rfl
  cases h with
  | cancel | bidFarewell =>
    refine hs.endFor rfl ?_
    rintro _ ⟨⟩
  | notice =>
    refine hs.endFor rfl ?_
    rintro _ ⟨⟩
    exact SessionError.isLine_write WriteError.isLine_broken
  | expire =>
    refine hs.endFor rfl ?_
    rintro _ ⟨⟩
    exact SessionError.isLine_timeout _
  | gather _ hreads => exact hs.read hreads _
  | runOut _ hreads hend =>
    refine (hs.read hreads _).endFor rfl ?_
    rintro _ rfl
    exact hs.isLine_of_endOfPulled hplain.framed hreads hend
  | reject _ hreads | want _ hreads | request _ hreads | leave _ hreads =>
    exact (hs.read hreads _).turn rfl
  | requestLost _ hreads =>
    refine (hs.read hreads _).endFor rfl ?_
    rintro _ ⟨⟩
    exact SessionError.isLine_queueClosed
  | ask | answer | readOn => exact hs.turn rfl
  | @join name =>
    have hjoined : ({ s with joined := some ⟨name, o.wall⟩ } : Session).Tidy :=
      ⟨hs.peer, hs.input, hs.failure⟩
    exact hjoined.say _ _ out
  | deny => exact hs.say _ _ out
  | askLost =>
    refine hs.endFor rfl ?_
    rintro _ ⟨⟩
    exact SessionError.isLine_registryClosed
  | write | shut => exact hs
  | writeFail _ _ hprogress =>
    refine hs.endFor rfl ?_
    rintro _ ⟨⟩
    exact SessionError.isLine_write (Channel.isLine_of_poll hprogress)
  | cleanUp hphase | giveBack hphase | close hphase | finish hphase =>
    exact hs.proceed (by rw [Session.end?, Session.end?, hphase])
  | skip hphase => exact hclose (by rw [Session.end?, hphase])
  | giveBackLost hphase =>
    rcases hphase with ⟨hphase, -⟩ | ⟨hphase, -⟩ <;> exact hclose (by rw [Session.end?, hphase])
  | signOff hphase => exact hclose (by rw [Session.end?, hphase])

/-- An answer of the registry tells nothing of the connection. -/
theorem Tidy.hear (h : s.Tidy) (hhears : s.Hears s') : s'.Tidy := by
  cases hhears with
  | joining => exact h.turn rfl
  | deregistering hphase => exact h.proceed (by rw [end?, end?, hphase])
  | nothing => exact h

theorem Tidy.arrive (h : s.Tidy) (chunk : Bytes) :
    ({ s with input := s.input.arrive chunk } : Session).Tidy :=
  ⟨h.peer, fun hreason => h.input ((s.input.ending_arrive chunk).symm.trans hreason), h.failure⟩

/-- The input ends with what is one line, if it fails. -/
theorem Tidy.finish (h : s.Tidy) {ending : InputEnd}
    (hending : ∀ {reason : String}, ending = .failure reason → '\n' ∉ reason.toList) :
    ({ s with input := s.input.finish ending } : Session).Tidy := by
  refine ⟨h.peer, fun {reason} hreason => ?_, h.failure⟩
  have hreason : (s.input.finish ending).ending = some (.failure reason) := hreason
  unfold Input.finish at hreason
  split at hreason
  · exact hending (Option.some.inj hreason)
  · exact hending (Option.some.inj hreason)
  · exact h.input hreason

theorem tidy_begin {peer : String} (hpeer : '\n' ∉ peer.toList) (since : Nat) :
    ({ peer, phase := .reading since } : Session).Tidy :=
  ⟨hpeer, nofun, nofun⟩

/-! ### What a step reports -/

theorem Plain.isLine_errorEntry (h : s.Plain limit) {detail : String}
    (hdetail : '\n' ∉ detail.toList) : (s.errorEntry detail).IsLine :=
  ⟨h.label, hdetail⟩

/-- What is logged of a line that is refused is one line. -/
theorem notMem_of_rejection {line detail : String} {r : Response} (hline : '\n' ∉ line.toList)
    (h : s.rejection? o (Command.ofLine line) = some (r, detail)) : '\n' ∉ detail.toList := by
  have hkeyword (command : Command) : '\n' ∉ (command.keyword?.getD "").toList := by
    cases command with
    | join => exact (by decide : '\n' ∉ "JOIN".toList)
    | calculate => exact (by decide : '\n' ∉ "CALC".toList)
    | leave => exact (by decide : '\n' ∉ "LEAVE".toList)
    | malformed => exact (by decide : '\n' ∉ "".toList)
  unfold rejection? at h
  split at h
  · rename_i reason hmalformed
    cases h
    exact Malformed.notMem_message hline hmalformed
  · cases h
  · cases h
    exact notMem_append (hkeyword _) (by decide)
  · cases h
    decide
  · split at h
    · cases h
      exact QueueError.notMem_message _
    · cases h
  · cases h

theorem Plain.isLine_of_endEntries (h : s.Plain limit) (htidy : s.Tidy) {e : SessionEnd}
    (hend : s.end? = some e) : ∀ entry ∈ s.endEntries e, entry.IsLine := by
  intro entry hentry
  cases e with
  | failed error =>
    rw [List.mem_singleton.mp hentry]
    exact h.isLine_errorEntry (htidy.failure hend)
  | left | peerClosed | shutdown => cases hentry

theorem Plain.isLine_of_signOff (h : s.Plain limit) (o : Outlook) (e : SessionEnd)
    (out : Channel) : ∀ entry ∈ (s.signOff o e out).log, entry.IsLine := by
  intro entry hentry
  cases hjoined : s.joined with
  | none =>
    simp only [Session.signOff, hjoined] at hentry
    cases hentry
  | some j =>
    simp only [Session.signOff, hjoined] at hentry
    rw [List.mem_singleton.mp hentry]
    exact ⟨h.joined hjoined,
      notMem_append (notMem_append (by decide) (notMem_toString _)) (by decide)⟩

/-- **What is logged is one line**, in every step. -/
theorem Transition.reports (h : Transition o s out next) (hs : s.Tidy)
    (hplain : s.Plain (lineLimit o.limits.longestLine)) :
    ∀ entry ∈ next.log, entry.IsLine := by
  intro entry hentry
  cases h with
  | reject _ hreads hline hreject =>
    rw [List.mem_singleton.mp hentry]
    exact hplain.isLine_errorEntry
      (notMem_of_rejection (hreads.notMem hline hplain.framed) hreject)
  | join hphase =>
    have hname := hplain.wanted (by rw [wanted?, hphase])
    rw [List.mem_singleton.mp hentry]
    exact ⟨hname, notMem_append (by decide) hs.peer⟩
  | deny hphase =>
    have hname := hplain.wanted (by rw [wanted?, hphase])
    rw [List.mem_singleton.mp hentry]
    exact ⟨(by decide : '\n' ∉ unknownLabel.toList), notMem_append (by decide) hname⟩
  | cleanUp hphase | skip hphase =>
    exact hplain.isLine_of_endEntries hs (by rw [Session.end?, hphase]) entry hentry
  | @giveBackLost e | @signOff e => exact hplain.isLine_of_signOff o e out entry hentry
  | _ => cases hentry

end Session

end Reckoner
