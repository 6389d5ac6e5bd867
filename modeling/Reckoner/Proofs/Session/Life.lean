import Reckoner.Proofs.Session.Naming
import Reckoner.Proofs.Session.Stage
import Mathlib.Data.List.Forall2

/-!
# The life of a session in the log

What a session logs from its first line to its last says what became of its client: complaints
about a stranger, that the stranger has joined, complaints about the client, what went wrong, and
that the client is gone.

* `Session.attempt?` — the response that a session tries to give in a step.
* `Session.Served` — what is logged before the end.
* `Session.failure`, `Session.departure` — what is logged of the end.
* `Session.Life` — both, one after the other.
* `Session.Transition.life` — a step writes on where the steps before have stopped.
-/

namespace Reckoner

namespace Session

variable {o : Outlook} {s s' : Session} {out : Channel} {next : SessionStep}
  {tried : List Response} {entries : List LogEntry}

/-! ### Responses that are tried -/

/-- The response that a session tries to give in a step: to the line that it got, or because the
    registry has answered.  Whether its output takes it is another matter. -/
def attempt? (s : Session) (next : SessionStep) : Option Response :=
  match s.phase, next.session.phase with
  | .joinAnswered name true, _ => some (.welcome name)
  | .joinAnswered _ false, _ => some .nameTaken
  | .reading _, .answering r _ => some r
  | _, _ => none

/-- There is one error entry under a label for each of some refusals. -/
def Complaints (label : String) : List Response → List LogEntry → Prop :=
  List.Forall₂ fun r entry => r.isError = true ∧ entry.kind = .err ∧ entry.client = label

theorem Complaints.concat {label : String} {r : Response} {entry : LogEntry}
    (h : Complaints label tried entries) (hr : r.isError = true) (hkind : entry.kind = .err)
    (hclient : entry.client = label) : Complaints label (tried ++ [r]) (entries ++ [entry]) :=
  List.rel_append h (.cons ⟨hr, hkind, hclient⟩ .nil)

/-! ### Before the end -/

/-- **What a session logs before its end**, next to the responses that it tries to give. -/
inductive Served (s : Session) : List Response → List LogEntry → Prop where
  /-- Nobody has joined: there were only refusals. -/
  | stranger {tried : List Response} {refusals : List LogEntry} (hjoined : s.joined = none)
      (hrefusals : Complaints unknownLabel tried refusals) : Served s tried refusals
  /-- A client has joined: what was refused before is logged without a name, and what is refused
      after in its name. -/
  | client {j : Joined} {before after : List Response} {refusals complaints : List LogEntry}
      (hjoined : s.joined = some j) (hrefusals : Complaints unknownLabel before refusals)
      (hcomplaints : Complaints j.name (after.filter Response.isError) complaints) :
      Served s (before ++ .welcome j.name :: after)
        (refusals ++ ⟨.connect, j.name, "Connected from " ++ s.peer⟩ :: complaints)

theorem Served.congr (h : s.Served tried entries) (hjoined : s'.joined = s.joined)
    (hpeer : s'.peer = s.peer) : s'.Served tried entries := by
  cases h with
  | stranger hnone hrefusals => exact .stranger (hjoined.trans hnone) hrefusals
  | client hsome hrefusals hcomplaints =>
    rw [← hpeer]
    exact .client (hjoined.trans hsome) hrefusals hcomplaints

/-- A refusal is logged under the label of the time. -/
theorem Served.refuse {r : Response} {entry : LogEntry} (h : s.Served tried entries)
    (hr : r.isError = true) (hkind : entry.kind = .err) (hclient : entry.client = s.label) :
    s.Served (tried ++ [r]) (entries ++ [entry]) := by
  cases h with
  | stranger hnone hrefusals =>
    have hlabel : s.label = unknownLabel := by rw [label, hnone]
    exact .stranger hnone (hrefusals.concat hr hkind (hclient.trans hlabel))
  | @client j _ after _ _ hsome hrefusals hcomplaints =>
    have hlabel : s.label = j.name := by rw [label, hsome]
    have hfilter : (after ++ [r]).filter Response.isError
        = after.filter Response.isError ++ [r] := by
      rw [List.filter_append, List.filter_cons_of_pos hr, List.filter_nil]
    rw [List.append_assoc, List.append_assoc, List.cons_append, List.cons_append]
    refine .client hsome hrefusals ?_
    rw [hfilter]
    exact hcomplaints.concat hr hkind (hclient.trans hlabel)

/-- Of what is no refusal to a client nothing is logged. -/
theorem Served.tell {j : Joined} {r : Response} (h : s.Served tried entries)
    (hjoined : s.joined = some j) (hr : r.isError = false) :
    s.Served (tried ++ [r]) entries := by
  cases h with
  | stranger hnone => cases hjoined.symm.trans hnone
  | @client _ _ after _ _ hsome hrefusals hcomplaints =>
    rw [List.append_assoc, List.cons_append]
    refine .client hsome hrefusals ?_
    rw [List.filter_append, List.filter_cons_of_neg (by simp [hr]), List.filter_nil,
      List.append_nil]
    exact hcomplaints

/-- A stranger joins. -/
theorem Served.join {j : Joined} (h : s.Served tried entries) (hnone : s.joined = none)
    (hjoined : s'.joined = some j) (hpeer : s'.peer = s.peer) :
    s'.Served (tried ++ [.welcome j.name])
      (entries ++ [⟨.connect, j.name, "Connected from " ++ s.peer⟩]) := by
  cases h with
  | stranger _ hrefusals =>
    rw [← hpeer]
    exact .client hjoined hrefusals .nil
  | client hsome => cases hsome.symm.trans hnone

/-! ### The end -/

/-- How a session ends that has begun to clean up, and whether its client is off the books. -/
def cleanup? (s : Session) : Option (SessionEnd × Bool) :=
  match s.phase with
  | .returning e | .deregistering e | .deregistered e => some (e, false)
  | .closing e | .shutting _ e | .finished e => some (e, true)
  | _ => none

/-- What is logged of a failure: nothing unless the session has failed, and nothing before it
    begins to clean up. -/
def failure (s : Session) : List LogEntry :=
  match s.cleanup? with
  | some (.failed e, _) => [⟨.err, s.label, e.message⟩]
  | _ => []

/-- What is logged of a client who is gone after so many seconds: nothing unless it had joined, and
    nothing before it is off the books. -/
def departure (s : Session) (seconds : Nat) : List LogEntry :=
  match s.cleanup?, s.joined with
  | some (_, true), some j =>
    [⟨.disconnect, j.name, "Client disconnected after " ++ toString seconds ++ " seconds"⟩]
  | _, _ => []

/-- **The life of a session in the log**, next to the responses that it tries to give. -/
def Life (s : Session) (tried : List Response) (entries : List LogEntry) : Prop :=
  ∃ service seconds, s.Served tried service ∧
    entries = service ++ s.failure ++ s.departure seconds

theorem failure_of_busy (h : s.cleanup? = none) : s.failure = [] := by rw [failure, h]

theorem departure_of_busy (h : s.cleanup? = none) (seconds : Nat) : s.departure seconds = [] := by
  rw [departure, h]

theorem Served.life (h : s.Served tried entries) (hbusy : s.cleanup? = none) :
    s.Life tried entries := by
  refine ⟨entries, 0, h, ?_⟩
  rw [failure_of_busy hbusy, departure_of_busy hbusy, List.append_nil, List.append_nil]

theorem Life.served (h : s.Life tried entries) (hbusy : s.cleanup? = none) :
    s.Served tried entries := by
  obtain ⟨service, seconds, hserved, rfl⟩ := h
  rw [failure_of_busy hbusy, departure_of_busy hbusy, List.append_nil, List.append_nil]
  exact hserved

theorem Life.congr (h : s.Life tried entries) (hjoined : s'.joined = s.joined)
    (hpeer : s'.peer = s.peer) (hcleanup : s'.cleanup? = s.cleanup?) : s'.Life tried entries := by
  obtain ⟨service, seconds, hserved, hentries⟩ := h
  refine ⟨service, seconds, hserved.congr hjoined hpeer, ?_⟩
  rw [hentries, failure, failure, departure, departure, label, label, hcleanup, hjoined]

/-- The session begins to clean up, and logs what went wrong. -/
theorem Served.cleanUp {e : SessionEnd} (h : s.Served tried entries)
    (hcleanup : s'.cleanup? = some (e, false)) (hjoined : s'.joined = s.joined)
    (hpeer : s'.peer = s.peer) : s'.Life tried (entries ++ s.endEntries e) := by
  refine ⟨entries, 0, h.congr hjoined hpeer, ?_⟩
  have hdeparture : s'.departure 0 = [] := by rw [departure, hcleanup]
  have hfailure : s'.failure = s.endEntries e := by
    rw [failure, hcleanup, label, hjoined]
    cases e <;> rfl
  rw [hdeparture, hfailure, List.append_nil]

theorem cleanup?_of_close {e : SessionEnd} (h : s.phase = phaseOfClose e out) :
    s.cleanup? = some (e, true) := by
  rw [cleanup?, h, phaseOfClose]
  cases out.broken <;> rfl

theorem cleanup?_of_reply {r : Response} {after : AfterReply}
    (h : s.phase = phaseOfReply r after out) : s.cleanup? = none := by
  rw [cleanup?, h, phaseOfReply]
  cases out.broken <;> rfl

/-- The client is off the books, and the session logs it. -/
theorem Life.signOff {e : SessionEnd} (h : s.Life tried entries)
    (hbefore : s.cleanup? = some (e, false)) (hphase : s'.phase = phaseOfClose e out)
    (hjoined : s'.joined = s.joined) (hpeer : s'.peer = s.peer) :
    s'.Life tried (entries ++ (s.signOff o e out).log) := by
  obtain ⟨service, seconds, hserved, rfl⟩ := h
  have hcleanup := cleanup?_of_close hphase
  have hdeparture : s.departure seconds = [] := by rw [departure, hbefore]
  have hfailure : s'.failure = s.failure := by
    rw [failure, failure, hcleanup, hbefore, label, label, hjoined]
    cases e <;> rfl
  have hlog : ∃ seconds, (s.signOff o e out).log = s'.departure seconds := by
    cases hname : s.joined with
    | none =>
      refine ⟨0, ?_⟩
      simp only [Session.signOff, departure, hcleanup, hjoined, hname]
    | some j =>
      refine ⟨(o.wall - j.since) / 1000, ?_⟩
      simp only [Session.signOff, departure, hcleanup, hjoined, hname]
  obtain ⟨seconds', hseconds⟩ := hlog
  refine ⟨service, seconds', hserved.congr hjoined hpeer, ?_⟩
  rw [hdeparture, List.append_nil, hseconds, hfailure]

theorem attempt?_of_cleanup {cleanup : SessionEnd × Bool} (h : s.cleanup? = some cleanup) :
    s.attempt? next = none := by
  unfold attempt?
  unfold cleanup? at h
  cases hphase : s.phase with
  | reading | joinAnswered => simp [hphase] at h
  | _ => rfl

/-! ### Steps -/

/-- Who is about to join has not joined, whatever the session does. -/
theorem Transition.isFresh (h : Transition o s out next) (hfresh : s.IsFresh) :
    next.session.IsFresh := by
  intro hjoining
  cases h with
  | want _ _ _ _ hjoined => exact hjoined
  | ask hphase => exact hfresh (by rw [isJoining, hphase])
  | gather hphase | write hphase | shut hphase =>
    rw [isJoining] at hjoining
    simp [hphase] at hjoining
  | join | deny =>
    unfold phaseOfReply at hjoining
    cases hbroken : out.broken <;> simp [isJoining, hbroken] at hjoining
  | skip | giveBackLost | signOff =>
    unfold phaseOfClose at hjoining
    cases hbroken : out.broken <;> simp [isJoining, hbroken] at hjoining
  | _ => cases hjoining

/-- **A step writes on.** What a session logs in a step goes on from what it has logged before. -/
theorem Transition.life (h : Transition o s out next) (hfresh : s.IsFresh)
    (hlife : s.Life tried entries) :
    next.session.Life (tried ++ (s.attempt? next).toList) (entries ++ next.log) := by
  -- In most steps nothing is tried and nothing is logged, and nobody joins or leaves.
  have hsame {session : Session} (hattempt : s.attempt? next = none)
      (hjoined : session.joined = s.joined) (hpeer : session.peer = s.peer)
      (hcleanup : session.cleanup? = s.cleanup?) :
      session.Life (tried ++ (s.attempt? next).toList) (entries ++ []) := by
    rw [hattempt, Option.toList_none, List.append_nil, List.append_nil]
    exact hlife.congr hjoined hpeer hcleanup
  cases h with
  | reject hphase _ _ hreject =>
    obtain ⟨text, rfl⟩ := isError_of_rejection hreject
    have hserved := hlife.served (by rw [cleanup?, hphase])
    rw [attempt?, hphase]
    refine Served.life ?_ rfl
    exact (hserved.refuse rfl rfl rfl).congr rfl rfl
  | leave hphase _ _ _ hjoined =>
    have hserved := hlife.served (by rw [cleanup?, hphase])
    rw [attempt?, hphase, List.append_nil]
    refine Served.life ?_ rfl
    exact (hserved.tell hjoined rfl).congr rfl rfl
  | join hphase =>
    have hserved := hlife.served (by rw [cleanup?, hphase])
    have hnone := hfresh (by rw [isJoining, hphase])
    rw [attempt?, hphase]
    refine Served.life ?_ ?_
    · exact hserved.join (j := ⟨_, o.wall⟩) hnone rfl rfl
    · exact cleanup?_of_reply rfl
  | deny hphase =>
    have hserved := hlife.served (by rw [cleanup?, hphase])
    have hlabel : s.label = unknownLabel := by rw [label, hfresh (by rw [isJoining, hphase])]
    rw [attempt?, hphase]
    refine Served.life ?_ ?_
    · exact (hserved.refuse rfl rfl hlabel.symm).congr rfl rfl
    · exact cleanup?_of_reply rfl
  | cleanUp hphase =>
    have hserved := hlife.served (by rw [cleanup?, hphase])
    rw [attempt?, hphase, Option.toList_none, List.append_nil]
    exact hserved.cleanUp rfl rfl rfl
  | @skip e _ hphase hjoined =>
    -- There is nobody to take off the books, so both are done at once.
    have hserved := hlife.served (by rw [cleanup?, hphase])
    rw [attempt?, hphase, Option.toList_none, List.append_nil]
    have hreturning : Life { s with phase := .returning e } tried (entries ++ s.endEntries e) :=
      hserved.cleanUp rfl rfl rfl
    have hlog : (Session.signOff o { s with phase := .returning e } e out).log = [] := by
      simp only [Session.signOff, hjoined]
    rw [← List.append_nil (_ ++ _), ← hlog]
    exact hreturning.signOff rfl rfl rfl rfl
  | @giveBackLost e _ hphase =>
    have hbefore : s.cleanup? = some (e, false) := by
      rcases hphase with ⟨hphase, -⟩ | ⟨hphase, -⟩ <;> rw [cleanup?, hphase]
    rw [attempt?_of_cleanup hbefore, Option.toList_none, List.append_nil]
    exact hlife.signOff hbefore rfl rfl rfl
  | @signOff e _ hphase =>
    have hbefore : s.cleanup? = some (e, false) := by rw [cleanup?, hphase]
    rw [attempt?_of_cleanup hbefore, Option.toList_none, List.append_nil]
    exact hlife.signOff hbefore rfl rfl rfl
  | askLost hphase =>
    rcases hphase with hphase | hphase <;>
      exact hsame (by rw [attempt?, hphase]) rfl rfl (by simp only [cleanup?, hphase])
  | cancel hphase | notice hphase | expire hphase | runOut hphase | want hphase | request hphase
  | requestLost hphase | ask hphase | answer hphase | writeFail hphase | readOn hphase
  | bidFarewell hphase | giveBack hphase | close hphase | finish hphase =>
    exact hsame (by rw [attempt?, hphase]) rfl rfl (by simp only [cleanup?, hphase])
  | gather hphase | write hphase | shut hphase =>
    refine hsame ?_ rfl rfl rfl
    simp only [attempt?, hphase]

/-- What the registry answers is not logged. -/
theorem Hears.life (h : s.Hears s') (hlife : s.Life tried entries) : s'.Life tried entries := by
  cases h with
  | joining _ hphase | deregistering hphase =>
    exact hlife.congr rfl rfl (by simp only [cleanup?, hphase])
  | nothing => exact hlife

theorem Hears.isFresh (h : s.Hears s') (hfresh : s.IsFresh) : s'.IsFresh := by
  cases h with
  | joining _ hphase => exact fun _ => hfresh (by rw [isJoining, hphase])
  | deregistering => simp [IsFresh, isJoining]
  | nothing => exact hfresh

/-- A session that has just begun has logged nothing. -/
theorem life_begin (peer : String) (since : Nat) :
    Life { peer, phase := .reading since } [] [] :=
  (Served.stranger rfl .nil).life rfl

end Session

end Reckoner
