import Reckoner.Proofs.Service.Agreement
import Reckoner.Proofs.Service.Transcript

/-!
# Names after a good-bye

A client that leaves is told good-bye, and only then does its session give back the name, as every
session does at its end.  So somebody else can come in between and find the name still taken.  It is
free once the session has given it back, which it has done before its client sees the end of the
output.

* `Service.Freed` — a session owns no name, and nobody is turned down for its sake.
* `Service.Farewell` — what a good-bye in the output means for the session and its name.
* `Service.free_after_goodbye` — from when on the name is free.
* `Service.goodbye_before_free` — a run in which somebody comes in between.
-/

namespace Reckoner

namespace Service

variable {s : Service} {m : Move} {i : Nat} {session session' : Session} {out out' : Channel}
  {stage : TalkStage} {said : List Utterance} {name : String}

/-! ### Sessions that have given back their names -/

theorem Effect.hasGivenBack (h : s.Effect i session out m session' out')
    (hback : session.hasGivenBack = true) : session'.hasGivenBack = true := by
  cases h with
  | step hstep => exact hstep.hasGivenBack hback
  | hear answer => exact (session.hears_hear answer).hasGivenBack hback
  | reply | carryOn | input | pipe | none => exact hback

/-- It stays so in every run that follows. -/
theorem hasGivenBack_of_run {later : List Move} (h : s.Has i session out)
    (hback : session.hasGivenBack = true)
    (hsubmit : ∀ r, Move.submit r ∈ later → r.connection ≠ i)
    (halive : (s.applyAll later).worker.phase ≠ .killed) :
    ∃ session' out', (s.applyAll later).Has i session' out' ∧ session'.hasGivenBack = true := by
  induction later generalizing s session out with
  | nil => exact ⟨session, out, h, hback⟩
  | cons m later ih =>
    obtain ⟨session', out', hafter, heffect⟩ := effect_of_apply h (alive_of_applyAll halive)
      fun r hr => hsubmit r (by rw [hr]; exact List.mem_cons_self)
    exact ih hafter (heffect.hasGivenBack hback)
      (fun r hr => hsubmit r (List.mem_cons_of_mem _ hr)) halive

/-- The output is closed only by a session that has given back its name. -/
theorem Converses.closed (h : s.Converses i stage said session out)
    (heffect : s.Effect i session out m session' out')
    (hbefore : out.pipe.closed = true → session.hasGivenBack = true)
    (hclosed : out'.pipe.closed = true) : session'.hasGivenBack = true := by
  refine heffect.hasGivenBack ?_
  -- A job that closes the output is that of the session, which is past giving back its name.
  have hpoll {clock ticket : Nat} (hclosed : (out.poll clock ticket).channel.pipe.closed = true) :
      session.hasGivenBack = true := by
    rcases Channel.closed_of_poll hclosed with hwas | ⟨job, hjob, hcloses⟩
    · exact hbefore hwas
    · obtain ⟨e, hphase⟩ := h.closing job hjob hcloses
      rw [Session.hasGivenBack, hphase]
  cases heffect with
  | @step next hstep =>
    have hwrites := hstep.writes
    generalize next.session = session', next.output = out' at hwrites hclosed
    cases hwrites with
    | nothing | starts | closes => exact hbefore hclosed
    | carriesOn => exact hpoll hclosed
  | carryOn => exact hpoll hclosed
  | pipe _ _ hsame => exact hbefore (hsame.symm.trans hclosed)
  | reply | hear | input | none => exact hbefore hclosed

section Run

variable {limits : SessionLimits} {queueCapacity : Nat} {moves later : List Move}

theorem hasGivenBack_of_closed (hsubmit : ∀ r, Move.submit r ∈ moves → r.connection ≠ i)
    (halive : ((start limits queueCapacity).applyAll moves).worker.phase ≠ .killed)
    (h : ((start limits queueCapacity).applyAll moves).Has i session out)
    (hclosed : out.pipe.closed = true) : session.hasGivenBack = true := by
  -- What the client was told is carried along, since it says whose job closes the output.
  have hboth := run_induction (P := fun moves session out =>
    (∃ stage, Told (start limits queueCapacity) moves i stage session out) ∧
      (out.pipe.closed = true → session.hasGivenBack = true)) ?_ ?_ hsubmit halive h
  · exact hboth.2 hclosed
  · rintro moves peer capacity timeout - hsaid hrequests
    exact ⟨⟨.before, told_begin hsaid hrequests _⟩, nofun⟩
  · rintro moves m session session' out out' - hhas heffect ⟨⟨stage, htold⟩, hbefore⟩
    exact ⟨htold.concat hhas heffect, htold.converses.closed heffect hbefore⟩

/-- The client sees the end of the output only once its session has given back the name. -/
theorem hasGivenBack_of_outputEnds (hsubmit : ∀ r, Move.submit r ∈ moves → r.connection ≠ i)
    (halive : ((start limits queueCapacity).applyAll moves).worker.phase ≠ .killed)
    (h : ((start limits queueCapacity).applyAll moves).Has i session out)
    (hends : ((start limits queueCapacity).applyAll moves).outputEnds i = true) :
    session.hasGivenBack = true := by
  rw [outputEnds, (has_iff.mp h).2] at hends
  cases hclosed : out.pipe.closed with
  | true => exact hasGivenBack_of_closed hsubmit halive h hclosed
  | false =>
    -- The session does not hold the output any more.
    obtain ⟨c, hc, hhandler, -⟩ := h
    simp only [hclosed, Bool.false_or, Bool.not_eq_true', holdsOutput, hc, hhandler,
      Handler.hasFinished, Bool.or_eq_false_iff, Bool.not_eq_false'] at hends
    exact Session.hasGivenBack_of_hasFinished hends.1.1

end Run

/-! ### Names that are free -/

/-- **Free.** The session of a connection owns no name, and whoever is refused one is refused it
    because of another session. -/
structure Freed (s : Service) (i : Nat) : Prop where
  unowned : ∀ {name : String} {owner : Owner}, s.registry.table.owner? name = some owner →
    owner.session ≠ i + 1 ∧ owner.channel ≠ i
  refused : ∀ {name : String} {owner : Owner} {e : RegistryError},
    (s.registry.table.handle (.register name owner)).2 = .registered (.error e) →
      ∃ k ≠ i, s.held? k = some name

theorem Agreement.freed (h : s.Agreement) (hsession : s.session? i = some session)
    (hback : session.hasGivenBack = true) : s.Freed i := by
  -- Who owns a name is a session that has not given it back.
  have hother {name : String} {owner : Owner} (howner : s.registry.table.owner? name = some owner) :
      ∃ k ≠ i, s.held? k = some name ∧ owner = ⟨k + 1, k⟩ := by
    have hentry := h.distinct.owner?_eq_some_iff.mp howner
    obtain ⟨k, hheld, hsame⟩ := (h.entry_iff name owner).mp hentry
    refine ⟨k, ?_, hheld, hsame⟩
    rintro rfl
    rw [held?, hsession] at hheld
    have hkept := (Session.joined_of_held? hheld).1
    rw [hback] at hkept
    cases hkept
  refine ⟨?_, ?_⟩
  · intro name owner howner
    obtain ⟨k, hk, -, rfl⟩ := hother howner
    exact ⟨fun hsame => hk (Nat.succ.inj hsame), hk⟩
  · intro name owner e hrefused
    rcases s.registry.table.handle_register name owner with
      ⟨taken, -, howner, -⟩ | ⟨-, table, hgranted, -⟩
    · obtain ⟨k, hk, hheld, -⟩ := hother howner
      exact ⟨k, hk, hheld⟩
    · rw [hgranted] at hrefused
      cases hrefused

/-! ### Good-byes -/

/-- Whoever has been told good-bye has left, whatever came after it. -/
theorem Told.of_goodbye {s₀ : Service} {moves : List Move} (h : Told s₀ moves i stage session out)
    (hgoodbye : utf8 (Response.goodbye name).text ∈ completeLines out.pipe.accepted) :
    stage = .after name ∧ session.end? = some .left := by
  obtain ⟨heard, hheard, hlines⟩ := h.converses.completeLines
  rw [hlines, textsOf, List.mem_map] at hgoodbye
  obtain ⟨u, hu, htext⟩ := hgoodbye
  have hsaid : u.response = .goodbye name := Response.eq_goodbye_of_text (utf8_inj htext)
  obtain ⟨reached, hreached⟩ := h.converses.follow_of_heard hheard
  have hafter : reached = .after name := (shape_of_follow hreached).of_goodbye hu hsaid
  exact h.left hheard hlines (hafter ▸ hreached)

/-- **Farewell.** The client of a session has joined under a name and has left.  The registry has
    the name for the session until the session has given it back, which it has done before the
    client sees the end of the output, and before it has ended. -/
structure Farewell (s : Service) (i : Nat) (name : String) (session : Session) : Prop where
  left : session.end? = some .left
  joined : ∃ since, session.joined = some ⟨name, since⟩
  owns_iff : s.registry.table.owner? name = some ⟨i + 1, i⟩ ↔ session.hasGivenBack = false
  ends : s.outputEnds i = true ∨ session.hasFinished = true → session.hasGivenBack = true

theorem Agreement.farewell (h : s.Agreement) (hhas : s.Has i session out)
    (hleft : session.end? = some .left) {since : Nat}
    (hjoined : session.joined = some ⟨name, since⟩)
    (hends : s.outputEnds i = true → session.hasGivenBack = true) :
    s.Farewell i name session := by
  obtain ⟨c, hc, hhandler, -⟩ := hhas
  refine ⟨hleft, ⟨since, hjoined⟩, ⟨?_, ?_⟩, ?_⟩
  · intro howner
    by_contra hback
    have hfreed := h.freed (session?_of_handler hc hhandler) (by simpa using hback)
    exact (hfreed.unowned howner).2 rfl
  · intro hback
    rw [← h.numbered hc]
    exact h.owns hc hhandler hjoined hback
  · rintro (hended | hfinished)
    · exact hends hended
    · exact Session.hasGivenBack_of_hasFinished hfinished

/-- A registry that runs after some moves has run before them. -/
theorem runs_of_applyAll {moves : List Move} (h : (s.applyAll moves).registry.runs = true) :
    s.registry.runs = true := by
  induction moves generalizing s with
  | nil => exact h
  | cons m moves ih => exact runs_of_apply m (ih h)

/-- **From when on a name is free.** If a client's output has taken a good-bye in full, the client
    has left, and the name is its session's just until the session has given it back.  From then on
    nobody is turned down because of that session any more.  The registry runs, no request from
    outside the sessions names the connection, and nobody ends the worker by force. -/
theorem free_after_goodbye {limits : SessionLimits} {queueCapacity : Nat} {moves later : List Move}
    (hsubmit : ∀ r, Move.submit r ∈ moves ++ later → r.connection ≠ i)
    (halive : ((start limits queueCapacity).applyAll (moves ++ later)).worker.phase ≠ .killed)
    (hruns : ((start limits queueCapacity).applyAll (moves ++ later)).registry.runs = true)
    (hsession : ((start limits queueCapacity).applyAll moves).session? i = some session)
    (hout : ((start limits queueCapacity).applyAll moves).output? i = some out)
    (hgoodbye : utf8 (Response.goodbye name).text ∈ completeLines out.pipe.accepted) :
    ((start limits queueCapacity).applyAll moves).Farewell i name session ∧
      (session.hasGivenBack = true →
        ((start limits queueCapacity).applyAll (moves ++ later)).Freed i) := by
  have hhas := has_iff.mpr ⟨hsession, hout⟩
  have hlater := agreement_of_reachable (Reachable.start.applyAll (moves ++ later)) hruns
  rw [applyAll_append] at halive hruns hlater
  have hbefore : ∀ r, Move.submit r ∈ moves → r.connection ≠ i :=
    fun r hr => hsubmit r (List.mem_append_left _ hr)
  have hagree := agreement_of_reachable (Reachable.start.applyAll moves) (runs_of_applyAll hruns)
  constructor
  · obtain ⟨stage, htold⟩ := told_of_run hbefore (alive_of_applyAll halive) hhas
    obtain ⟨rfl, hleft⟩ := htold.of_goodbye hgoodbye
    obtain ⟨⟨joined, since⟩, hjoined, rfl⟩ := htold.converses.standing.joined rfl
    exact hagree.farewell hhas hleft hjoined
      (hasGivenBack_of_outputEnds hbefore (alive_of_applyAll halive) hhas)
  · intro hback
    obtain ⟨session', out', hafter, hback'⟩ := hasGivenBack_of_run hhas hback
      (fun r hr => hsubmit r (List.mem_append_right _ hr)) halive
    rw [applyAll_append]
    exact hlater.freed (has_iff.mp hafter).1 hback'

/-- A client joins and leaves.  It has been told good-bye, and its session is about to give back the
    name. -/
def leavingRun : List Move := List.flatten
  [[.connect "peer" 128 1000, .arrive 0 (utf8 "JOIN:a\nLEAVE:a\n")],
    List.replicate 2 (.handler 0), [.registry], List.replicate 9 (.handler 0)]

/-- The session gives back the name. -/
def givingBackRun : List Move := [.handler 0, .registry]

/-- Somebody else wants to join under that name. -/
def succeedingRun : List Move := List.flatten
  [[.connect "peer" 128 1000, .arrive 1 (utf8 "JOIN:a\n")], List.replicate 2 (.handler 1),
    [.registry], List.replicate 4 (.handler 1)]

/-- Where the other client comes first, it is turned down, although the good-bye is out. -/
theorem goodbye_before_free :
    (((start ⟨60000, 64⟩ 8).applyAll leavingRun).output? 0).map
        (fun out => completeLines out.pipe.accepted)
      = some [utf8 (Response.welcome "a").text, utf8 (Response.goodbye "a").text] ∧
    ((start ⟨60000, 64⟩ 8).applyAll leavingRun).registry.table.owner? "a" = some ⟨1, 0⟩ ∧
    (((start ⟨60000, 64⟩ 8).applyAll (leavingRun ++ succeedingRun)).output? 1).map
        (fun out => completeLines out.pipe.accepted)
      = some [utf8 Response.nameTaken.text] := by
  refine ⟨?_, ?_, ?_⟩ <;> decide +kernel

/-- Where the name is given back first, the other client is welcome. -/
theorem free_after_givingBackRun :
    (∀ r, Move.submit r ∉ leavingRun ++ givingBackRun ++ succeedingRun) ∧
    ((start ⟨60000, 64⟩ 8).applyAll
      (leavingRun ++ givingBackRun ++ succeedingRun)).worker.phase ≠ .killed ∧
    ((start ⟨60000, 64⟩ 8).applyAll
      (leavingRun ++ givingBackRun ++ succeedingRun)).registry.runs = true ∧
    (((start ⟨60000, 64⟩ 8).applyAll
      (leavingRun ++ givingBackRun ++ succeedingRun)).output? 1).map
        (fun out => completeLines out.pipe.accepted) = some [utf8 (Response.welcome "a").text] ∧
    ∃ session out,
      ((start ⟨60000, 64⟩ 8).applyAll (leavingRun ++ givingBackRun)).session? 0 = some session ∧
      ((start ⟨60000, 64⟩ 8).applyAll (leavingRun ++ givingBackRun)).output? 0 = some out ∧
      utf8 (Response.goodbye "a").text ∈ completeLines out.pipe.accepted ∧
      session.hasGivenBack = true ∧
      ((start ⟨60000, 64⟩ 8).applyAll (leavingRun ++ givingBackRun)).Farewell 0 "a" session ∧
      ((start ⟨60000, 64⟩ 8).applyAll (leavingRun ++ givingBackRun ++ succeedingRun)).Freed 0 := by
  have hsubmit : ∀ r, Move.submit r ∉ leavingRun ++ givingBackRun ++ succeedingRun := by
    intro r
    simp [leavingRun, givingBackRun, succeedingRun]
  have halive : ((start ⟨60000, 64⟩ 8).applyAll
      (leavingRun ++ givingBackRun ++ succeedingRun)).worker.phase ≠ .killed := by
    decide +kernel
  have hruns : ((start ⟨60000, 64⟩ 8).applyAll
      (leavingRun ++ givingBackRun ++ succeedingRun)).registry.runs = true := by
    decide +kernel
  have hback : (((start ⟨60000, 64⟩ 8).applyAll (leavingRun ++ givingBackRun)).session? 0).map
      Session.hasGivenBack = some true := by
    decide +kernel
  have hlines : (((start ⟨60000, 64⟩ 8).applyAll (leavingRun ++ givingBackRun)).output? 0).map
      (fun out => decide (utf8 (Response.goodbye "a").text ∈ completeLines out.pipe.accepted))
      = some true := by
    decide +kernel
  obtain ⟨session, hsession, hback⟩ := Option.map_eq_some_iff.mp hback
  obtain ⟨out, hout, hgoodbye⟩ := Option.map_eq_some_iff.mp hlines
  rw [decide_eq_true_eq] at hgoodbye
  obtain ⟨hfarewell, hfreed⟩ := free_after_goodbye (fun r hr => absurd hr (hsubmit r)) halive hruns
    hsession hout hgoodbye
  exact ⟨hsubmit, halive, hruns, by decide +kernel, session, out, hsession, hout, hgoodbye, hback,
    hfarewell, hfreed hback⟩

end Service

end Reckoner
