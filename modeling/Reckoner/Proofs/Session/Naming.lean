import Reckoner.Proofs.Session.Transition

/-!
# The name that a session holds

* `Session.held?` — the name that belongs to a session, from the registry's answer to its wish until
  the answer to its good-bye.
* `Session.pending?` — what the session has asked of the registry and had no answer to.
* `Session.Transition.naming` — a session does not change either on its own, but for asking.
* `Session.Transition.hasGivenBack` — a session that has given back its name stays without one.
* `Session.hear_granted`, `Session.hear_denied`, `Session.hear_released` — what an answer changes.
-/

namespace Reckoner

/-- The command to the registry that an errand is, for the session of a connection. -/
def Errand.command? (i : Nat) : Errand → Option RegistryCommand
  | register name => some (.register name ⟨i + 1, i⟩)
  | deregister name => some (.deregister name (i + 1))
  | submit _ _ => none

namespace Session

/-- The client is about to join. -/
def isJoining (s : Session) : Bool :=
  match s.phase with
  | .asking _ | .joining _ | .joinAnswered _ _ => true
  | _ => false

/-- The registry has answered that the name is taken back, or there was none. -/
def hasGivenBack (s : Session) : Bool :=
  match s.phase with
  | .deregistered _ | .closing _ | .shutting _ _ | .finished _ => true
  | _ => false

/-- The name that belongs to the session. -/
def held? (s : Session) : Option String :=
  match s.phase with
  | .joinAnswered name true => some name
  | .deregistered _ | .closing _ | .shutting _ _ | .finished _ => none
  | _ => s.joined.map Joined.name

/-- The command that the session of a connection waits for. -/
def pending? (i : Nat) (s : Session) : Option RegistryCommand :=
  match s.phase with
  | .joining name => some (.register name ⟨i + 1, i⟩)
  | .deregistering _ => s.joined.map fun j => .deregister j.name (i + 1)
  | _ => none

/-- Who is about to join has not joined. -/
def IsFresh (s : Session) : Prop := s.isJoining = true → s.joined = none

/-- What a session is doing, and for whom. -/
def standing (s : Session) : Option Joined × SessionPhase := (s.joined, s.phase)

variable {o : Outlook} {s s' : Session} {out : Channel} {next : SessionStep}

/-- Names are a matter of the standing only. -/
theorem naming_congr (h : s'.standing = s.standing) (i : Nat) :
    s'.held? = s.held? ∧ s'.pending? i = s.pending? i ∧ (s.IsFresh → s'.IsFresh) := by
  obtain ⟨hjoined, hphase⟩ := Prod.mk.inj h
  unfold held? pending? IsFresh isJoining
  rw [hjoined, hphase]
  exact ⟨rfl, rfl, id⟩

theorem hasGivenBack_of_hasFinished (h : s.hasFinished = true) : s.hasGivenBack = true := by
  unfold hasFinished at h
  unfold hasGivenBack
  cases hphase : s.phase with
  | finished => rfl
  | _ => simp [hphase] at h

theorem held?_of_joined {j : Joined} (hfresh : s.IsFresh) (hjoined : s.joined = some j)
    (hback : s.hasGivenBack = false) : s.held? = some j.name := by
  unfold IsFresh isJoining at hfresh
  unfold hasGivenBack at hback
  unfold held?
  cases hphase : s.phase with
  | joinAnswered =>
    rw [hfresh (by rw [hphase])] at hjoined
    cases hjoined
  | deregistered | closing | shutting | finished => simp [hphase] at hback
  | _ => simp [hjoined]

/-- A session that holds a name has it as its own, or has just been given it. -/
theorem joined_of_held? {name : String} (h : s.held? = some name) : s.hasGivenBack = false ∧
    ((∃ since, s.joined = some ⟨name, since⟩) ∨ s.phase = .joinAnswered name true) := by
  unfold held? at h
  split at h
  · rename_i given hphase
    cases h
    exact ⟨by rw [hasGivenBack, hphase], .inr hphase⟩
  · cases h
  · cases h
  · cases h
  · cases h
  · rename_i hanswered hderegistered hclosing hshutting hfinished
    refine ⟨?_, .inl ?_⟩
    · unfold hasGivenBack
      split <;> simp_all
    · obtain ⟨⟨name, since⟩, hjoined, rfl⟩ := Option.map_eq_some_iff.mp h
      exact ⟨since, hjoined⟩

/-- **Names stay as they are.** While the registry answers, a session neither takes nor gives up a
    name on its own, and it takes no step while it waits for an answer. -/
theorem Transition.naming (h : Transition o s out next) (hruns : o.registryRuns = true)
    (hfresh : s.IsFresh) (i : Nat) : next.session.IsFresh ∧ next.session.held? = s.held? ∧
      s.pending? i = none ∧ next.session.pending? i = next.errand.bind (Errand.command? i) := by
  cases h with
  | cancel hphase | notice hphase | expire hphase | gather hphase | runOut hphase
  | reject hphase | request hphase | requestLost hphase | leave hphase | answer hphase
  | write hphase | writeFail hphase | readOn hphase | bidFarewell hphase | cleanUp hphase
  | close hphase | shut hphase | finish hphase =>
    simp [IsFresh, isJoining, held?, pending?, Errand.command?, hphase]
  | want hphase _ _ _ hjoined =>
    simp [IsFresh, isJoining, held?, pending?, hphase, hjoined]
  | ask hphase =>
    have hjoined := hfresh (by rw [isJoining, hphase])
    simp [IsFresh, isJoining, held?, pending?, Errand.command?, hphase, hjoined]
  | askLost _ hlost => simp [hruns] at hlost
  | join hphase =>
    unfold phaseOfReply
    split <;> simp [IsFresh, isJoining, held?, pending?, hphase]
  | deny hphase =>
    have hjoined := hfresh (by rw [isJoining, hphase])
    unfold phaseOfReply
    split <;> simp [IsFresh, isJoining, held?, pending?, hphase, hjoined]
  | skip hphase hjoined =>
    unfold phaseOfClose
    split <;> simp [IsFresh, isJoining, held?, pending?, hphase, hjoined]
  | giveBack hphase hjoined =>
    simp [IsFresh, isJoining, held?, pending?, Errand.command?, hphase, hjoined]
  | giveBackLost hphase =>
    rcases hphase with ⟨hphase, hjoined | hlost⟩ | ⟨-, hlost⟩
    · unfold phaseOfClose
      split <;> simp [IsFresh, isJoining, held?, pending?, hphase, hjoined]
    · simp [hruns] at hlost
    · simp [hruns] at hlost
  | signOff hphase =>
    unfold phaseOfClose
    split <;> simp [IsFresh, isJoining, held?, pending?, hphase]

/-- What a session has given back it does not take again. -/
theorem Transition.hasGivenBack (h : Transition o s out next) (hback : s.hasGivenBack = true) :
    next.session.hasGivenBack = true := by
  have hclose (e : SessionEnd) :
      { s with phase := phaseOfClose e out }.hasGivenBack = true := by
    cases hbroken : out.broken <;> simp [phaseOfClose, Session.hasGivenBack, hbroken]
  cases h with
  | signOff | giveBackLost | skip => exact hclose _
  | close | finish => rfl
  | shut => exact hback
  | gather => exact hback
  | askLost hphase =>
    rcases hphase with hphase | hphase <;> simp [Session.hasGivenBack, hphase] at hback
  | cancel hphase | notice hphase | expire hphase | runOut hphase | reject hphase | want hphase
  | request hphase | requestLost hphase | leave hphase | ask hphase | join hphase | deny hphase
  | answer hphase | write hphase | writeFail hphase | readOn hphase | bidFarewell hphase
  | cleanUp hphase | giveBack hphase =>
    simp [Session.hasGivenBack, hphase] at hback

theorem Hears.hasGivenBack (h : s.Hears s') (hback : s.hasGivenBack = true) :
    s'.hasGivenBack = true := by
  cases h with
  | joining free hphase => simp [Session.hasGivenBack, hphase] at hback
  | deregistering => rfl
  | nothing => exact hback

/-! ### Answers of the registry -/

variable {i : Nat} {name : String} {owner : Owner} {session : Nat}

/-- Who waits for a name is about to join, and holds none. -/
theorem pending?_register (h : s.pending? i = some (.register name owner)) :
    owner = ⟨i + 1, i⟩ ∧ s.phase = .joining name := by
  unfold pending? at h
  split at h
  · rename_i given hphase
    cases h
    exact ⟨rfl, hphase⟩
  · obtain ⟨j, -, hcommand⟩ := Option.map_eq_some_iff.mp h
    cases hcommand
  · cases h

/-- Who waits to give back a name holds it. -/
theorem pending?_deregister (h : s.pending? i = some (.deregister name session)) :
    session = i + 1 ∧ s.held? = some name ∧ ∃ e, s.phase = .deregistering e := by
  unfold pending? at h
  split at h
  · cases h
  · rename_i e hphase
    obtain ⟨j, hjoined, hcommand⟩ := Option.map_eq_some_iff.mp h
    cases hcommand
    exact ⟨rfl, by rw [held?, hphase, hjoined]; rfl, e, hphase⟩
  · cases h

/-- Only these two commands are waited for. -/
theorem pending?_cases {command : RegistryCommand} (h : s.pending? i = some command) :
    (∃ name owner, command = .register name owner) ∨
      ∃ name session, command = .deregister name session := by
  unfold pending? at h
  split at h
  · cases h
    exact .inl ⟨_, _, rfl⟩
  · obtain ⟨j, -, hcommand⟩ := Option.map_eq_some_iff.mp h
    exact .inr ⟨_, _, hcommand.symm⟩
  · cases h

theorem hear_granted (hphase : s.phase = .joining name) (hfresh : s.IsFresh) :
    s.held? = none ∧ (s.hear (.registered (.ok ()))).held? = some name ∧
      (s.hear (.registered (.ok ()))).IsFresh := by
  have hjoined := hfresh (by rw [isJoining, hphase])
  simp [held?, hear, IsFresh, hphase, hjoined]

theorem hear_denied (hphase : s.phase = .joining name) (hfresh : s.IsFresh) (e : RegistryError) :
    s.held? = none ∧ (s.hear (.registered (.error e))).held? = none ∧
      (s.hear (.registered (.error e))).IsFresh := by
  have hjoined := hfresh (by rw [isJoining, hphase])
  simp [held?, hear, IsFresh, hphase, hjoined]

theorem hear_released {e : SessionEnd} (hphase : s.phase = .deregistering e) (done : Bool) :
    (s.hear (.deregistered done)).held? = none ∧ (s.hear (.deregistered done)).IsFresh := by
  simp [held?, hear, IsFresh, isJoining, hphase]

end Session

end Reckoner
