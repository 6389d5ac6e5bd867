import Reckoner.Proofs.Session.Framing
import Reckoner.Proofs.Session.Stage

/-!
# Sessions that wait for a line

A session waits for a line until something rouses it, and no longer than the time limit.

* `Input.Extends` — an input of which nothing is lost.
* `Session.Roused` — what rouses a session.  Bytes count as soon as they have arrived.
* `Session.Waits`, `Session.TimedOut`, `Session.MovedOn` — a session that waits, that has waited for
  too long, or that had something else to do.
* `Session.Turn`, `Session.turn_of_waits` — what a turn of a session that waits leads to.
-/

namespace Reckoner

/-! ### Inputs that grow -/

namespace Input

variable {limit longest : Nat} {i i' : Input}

/-- The end of the input is a result, so without one the input goes on. -/
theorem ending_of_pullEnd (h : i.pullEnd = (i', none)) : i' = i ∧ i.ending = none := by
  unfold pullEnd at h
  split at h
  · rename_i hending
    cases h
    exact ⟨rfl, hending⟩
  · cases h
  · split at h <;> cases h

/-- A portion without result is added to the line that was begun. -/
theorem length_lt_of_takeOver (h : Framed limit i) (hunread : i.unread ≠ [])
    (hlook : i.takeOver.look limit = (i', none)) : i.line.length < i'.line.length := by
  have hframed : Framed limit i.takeOver := ⟨h.notMem, h.length_lt⟩
  obtain ⟨rfl, -⟩ := framed_of_look hframed hlook
  have hpositive := List.length_pos_iff.mpr hunread
  have hportion : 0 < portion := by decide
  simp only [takeOver, List.length_append, List.length_take]
  omega

/-- A try without result adds to the line that was begun, unless there is nothing to go on with. -/
theorem length_lt_of_pull (h : Framed limit i) (hwaiting : i.isExhausted = false)
    (hpull : i.pull limit = (i', none)) : i.line.length < i'.line.length := by
  unfold pull at hpull
  cases hlook : i.look limit with
  | mk before found =>
  rw [hlook] at hpull
  cases found with
  | some piece => cases hpull
  | none =>
    obtain ⟨hbefore, hframed⟩ := framed_of_look h hlook
    have hline : before.line.length = i.line.length + i.taken.length := by
      rw [hbefore, List.length_append]
    dsimp only at hpull
    split at hpull
    · -- All that had arrived was taken over already, and it was not nothing.
      rename_i hunread
      obtain ⟨rfl, hending⟩ := ending_of_pullEnd hpull
      have hempty : i.unread = [] := by simpa [hbefore] using hunread
      have hgoes : i.ending = none := by simpa [hbefore] using hending
      have htaken : i.taken ≠ [] := by simpa [isExhausted, hempty, hgoes] using hwaiting
      have hpositive := List.length_pos_iff.mpr htaken
      omega
    · rename_i hunread
      obtain ⟨hafter, hnone⟩ := Prod.mk.inj hpull
      have hnext : before.takeOver.look limit = (i', none) :=
        Prod.ext hafter (Option.map_eq_none_iff.mp hnone)
      have hmore := length_lt_of_takeOver hframed (by simpa using hunread) hnext
      omega

/-- **More of it.** What has arrived is still there, and as much as before is put together. -/
structure Extends (i i' : Input) : Prop where
  content : i.content <+: i'.content
  ending : i.ending ≠ none → i'.ending ≠ none
  begun : i.line.length ≤ i'.line.length

theorem Extends.refl (i : Input) : i.Extends i := ⟨List.prefix_rfl, id, Nat.le_refl _⟩

theorem extends_arrive (i : Input) (chunk : Bytes) : i.Extends (i.arrive chunk) := by
  unfold arrive
  split
  · exact .refl i
  · exact ⟨⟨chunk, by simp [content]⟩, id, Nat.le_refl _⟩

theorem extends_finish (i : Input) (ending : InputEnd) : i.Extends (i.finish ending) := by
  unfold finish
  split
  · exact ⟨List.prefix_rfl, fun _ => nofun, Nat.le_refl _⟩
  · exact ⟨List.prefix_rfl, fun _ => nofun, Nat.le_refl _⟩
  · exact .refl i

end Input

/-! ### What rouses a session -/

namespace Session

variable {o : Outlook} {s : Session} {out : Channel} {since : Nat} {handled : List String}

/-- **Roused.** What keeps a session from waiting for a line: it is time to shut down, the output is
    broken, a line is there or more bytes than one may have, or no more bytes will come.  What has
    arrived counts whether it was looked at or not. -/
inductive Roused (o : Outlook) (s : Session) (out : Channel) : Prop where
  /-- The service shuts down. -/
  | cancelled (hcancelled : o.cancelled = true)
  /-- The output is broken. -/
  | broken (hbroken : out.broken = true)
  /-- A line feed has arrived. -/
  | line (hline : lineFeed ∈ s.input.content)
  /-- More bytes have arrived than a line and its end may have. -/
  | full (hfull : o.limits.longestLine + 2 ≤ s.input.content.length)
  /-- As many bytes have arrived as 64 bits can count, which no limit goes beyond. -/
  | countless (hfull : Nat.pow 2 64 - 1 ≤ s.input.content.length)
  /-- The input has ended, or the connection has failed. -/
  | ended (hending : s.input.ending ≠ none)

theorem roused_of_lineLimit (h : lineLimit o.limits.longestLine ≤ s.input.content.length) :
    s.Roused o out := by
  rw [lineLimit, Nat.min_def] at h
  split at h
  · exact .full h
  · exact .countless h

/-- What rouses a session does so for good: more bytes do not unmake a line. -/
theorem Roused.mono {o' : Outlook} {s' : Session} {out' : Channel} (h : s.Roused o out)
    (hlimits : o'.limits = o.limits) (hcancelled : o.cancelled = true → o'.cancelled = true)
    (hbroken : out.broken = true → out'.broken = true) (hinput : s.input.Extends s'.input) :
    s'.Roused o' out' := by
  have hlength := hinput.content.length_le
  cases h with
  | cancelled h => exact .cancelled (hcancelled h)
  | broken h => exact .broken (hbroken h)
  | line h => exact .line (hinput.content.subset h)
  | full h => exact .full (by rw [hlimits]; omega)
  | countless h => exact .countless (Nat.le_trans h hlength)
  | ended h => exact .ended (hinput.ending h)

/-- What has a result rouses. -/
theorem roused_of_pull (hframed : s.input.Framed (lineLimit o.limits.longestLine)) {input : Input}
    {pulled : Pulled}
    (hpull : s.input.pull (lineLimit o.limits.longestLine) = (input, some pulled)) :
    s.Roused o out := by
  have hpulls := Input.pulls_pull hframed
  rw [hpull] at hpulls
  cases hpulls with
  | line hcontent => exact .line (by simp [hcontent])
  | cut hcontent hbody hlength =>
    refine roused_of_lineLimit ?_
    rw [hcontent, List.length_append]
    omega
  | last _ _ hending | eof _ hending | failure hending => exact .ended (by simp [hending])

/-- Nothing rouses a session that has nothing to go on with. -/
theorem not_roused_of_isExhausted (hcancelled : o.cancelled = false) (hbroken : out.broken = false)
    (hframed : s.input.Framed (lineLimit o.limits.longestLine))
    (hexhausted : s.input.isExhausted = true) : ¬ s.Roused o out := by
  simp only [Input.isExhausted, Bool.and_eq_true, List.isEmpty_iff, Option.isNone_iff_eq_none]
    at hexhausted
  obtain ⟨⟨htaken, hunread⟩, hending⟩ := hexhausted
  have hcontent : s.input.content = s.input.line := by simp [Input.content, htaken, hunread]
  have hlength := Nat.lt_min.mp hframed.length_lt
  intro hroused
  cases hroused with
  | cancelled h => cases hcancelled.symm.trans h
  | broken h => cases hbroken.symm.trans h
  | line h => exact hframed.notMem (hcontent ▸ h)
  | full h =>
    rw [hcontent] at h
    omega
  | countless h =>
    rw [hcontent] at h
    exact absurd hlength.2 (Nat.not_lt.mpr h)
  | ended h => exact h hending

/-! ### Turns -/

/-- The session has handled these lines, and waits for the next since the given time. -/
structure Waits (s : Session) (since : Nat) (handled : List String) : Prop where
  phase : s.phase = .reading since
  handled : s.handled = handled

/-- How a session ends that has waited for too long. -/
def timeoutEnd (limits : SessionLimits) : SessionEnd :=
  .failed (.timeout (.ofMillis limits.readTimeout))

/-- It has handled these lines, and has waited for too long for the next. -/
structure TimedOut (s : Session) (limits : SessionLimits) (handled : List String) : Prop where
  ends : s.end? = some (timeoutEnd limits)
  handled : s.handled = handled

/-- It has handled more than these lines, or it ends for something else. -/
def MovedOn (s : Session) (limits : SessionLimits) (handled : List String) : Prop :=
  handled.length < s.handled.length ∨ ∃ e, s.end? = some e ∧ e ≠ timeoutEnd limits

/-- **What a turn leads to**, if the session has waited since the given time. -/
inductive Turn (o : Outlook) (s : Session) (out : Channel) (since : Nat) :
    Option SessionStep → Prop where
  /-- The session waits on: it may, and nothing rouses it. -/
  | wait (hcalm : ¬ s.Roused o out) (htime : o.clock < since + o.limits.readTimeout) :
      Turn o s out since none
  /-- A part of a line comes in.  The session waits on. -/
  | gather {input : Input} {n : Nat} (hinput : s.input.Extends input)
      (hline : s.input.line.length < input.line.length) :
      Turn o s out since (some ⟨{ s with input }, out, none, [], n⟩)
  /-- The time is up, and nothing rouses the session. -/
  | expire {n : Nat} (hcalm : ¬ s.Roused o out) (htime : since + o.limits.readTimeout ≤ o.clock) :
      Turn o s out since
        (some ⟨{ s with phase := .ending (timeoutEnd o.limits) }, out, none, [], n⟩)
  /-- Something has roused the session. -/
  | moveOn {next : SessionStep} (hroused : s.Roused o out)
      (hnext : next.session.MovedOn o.limits s.handled) : Turn o s out since (some next)

/-- A session that has to wait has nothing to go on with, and its time is not up. -/
theorem calm_of_step_eq_none (hphase : s.phase = .reading since) (h : s.step o out = none) :
    o.cancelled = false ∧ out.broken = false ∧ s.input.isExhausted = true ∧
      o.clock < since + o.limits.readTimeout := by
  simp only [step, hphase, read] at h
  split at h
  · cases h
  · split at h
    · cases h
    · split at h
      · split at h
        · cases h
        · simp_all
      · split at h <;> cases h

/-- What a session gets ends it for something else than the time. -/
theorem ne_timeoutEnd {limits : SessionLimits} {longest : Nat} {pulled : Pulled} {e : SessionEnd}
    (h : endOfPulled longest pulled = some e) : e ≠ timeoutEnd limits := by
  rintro rfl
  cases pulled with
  | eof | failure => cases h
  | piece bytes =>
    simp only [endOfPulled] at h
    split at h <;> cases h

/-- **One turn.** What a session that waits does when it has a turn is one of these. -/
theorem turn_of_waits (hphase : s.phase = .reading since)
    (hframed : s.input.Framed (lineLimit o.limits.longestLine)) :
    Turn o s out since (s.step o out) := by
  cases hstep : s.step o out with
  | none =>
    obtain ⟨hcancelled, hbroken, hexhausted, htime⟩ := calm_of_step_eq_none hphase hstep
    exact .wait (not_roused_of_isExhausted hcancelled hbroken hframed hexhausted) htime
  | some next =>
    -- A line that is got is one more line that is handled.
    have hlonger {line : String} : s.handled.length < (s.handled ++ [line]).length := by simp
    cases transition_of_step hstep with
    | cancel _ hcancelled => exact .moveOn (.cancelled hcancelled) (.inr ⟨_, rfl, nofun⟩)
    | notice _ _ hbroken => exact .moveOn (.broken hbroken) (.inr ⟨_, rfl, nofun⟩)
    | expire hother hcancelled hbroken hexhausted htime =>
      cases hphase.symm.trans hother
      exact .expire (not_roused_of_isExhausted hcancelled hbroken hframed hexhausted) htime
    | gather _ hreads =>
      have hpulls := Input.pulls_pull hframed
      rw [hreads.pull] at hpulls
      cases hpulls with
      | more hcontent _ hending =>
        have hline := Input.length_lt_of_pull hframed hreads.waiting hreads.pull
        exact .gather ⟨hcontent ▸ List.prefix_rfl, hending ▸ id, Nat.le_of_lt hline⟩ hline
    | runOut _ hreads hend =>
      exact .moveOn (roused_of_pull hframed hreads.pull) (.inr ⟨_, rfl, ne_timeoutEnd hend⟩)
    | reject _ hreads | want _ hreads | request _ hreads | requestLost _ hreads
    | leave _ hreads => exact .moveOn (roused_of_pull hframed hreads.pull) (.inl hlonger)
    | ask hother | join hother | deny hother | answer hother | write hother | writeFail hother
    | readOn hother | bidFarewell hother | cleanUp hother | skip hother | giveBack hother
    | signOff hother | close hother | shut hother | finish hother =>
      cases hphase.symm.trans hother
    | askLost hother | giveBackLost hother => simp [hphase] at hother

/-! ### Later on -/

/-- A session handles lines one by one, and none once it ends. -/
theorem Transition.handled_cases {next : SessionStep} (h : Transition o s out next) :
    next.session.handled = s.handled ∨
      s.end? = none ∧ ∃ line, next.session.handled = s.handled ++ [line] := by
  cases h with
  | reject hphase | want hphase | request hphase | requestLost hphase | leave hphase =>
    exact .inr ⟨by simp [Session.end?, hphase], _, rfl⟩
  | _ => exact .inl rfl

/-- **When a wait begins.** A session waits since its last turn, or it did so before. -/
theorem Transition.since_cases {next : SessionStep} (h : Transition o s out next)
    (hphase : next.session.phase = .reading since) :
    since = o.clock ∨ s.phase = .reading since ∧ next.session.handled = s.handled := by
  cases h with
  | gather => exact .inr ⟨hphase, rfl⟩
  | request | readOn =>
    cases hphase
    exact .inl rfl
  | write hother | shut hother => cases hother.symm.trans hphase
  | join | deny =>
    unfold phaseOfReply at hphase
    split at hphase <;> cases hphase
  | skip | giveBackLost | signOff =>
    unfold phaseOfClose at hphase
    split at hphase <;> cases hphase
  | _ => cases hphase

end Session

end Reckoner
