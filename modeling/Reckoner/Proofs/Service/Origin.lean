import Reckoner.Proofs.Service.Agreement
import Reckoner.Proofs.Service.Submission

/-!
# Where requests come from

A request outlives the session that has submitted it, and its client's name may have another owner
by then.  So what a request says is traced back to the move that has submitted it.

* `Service.Asks` — the session of a connection submits a request with its next step.
* `Service.Origin` — the move of a run that has submitted a request.
* `Service.origin_of_accepted` — every request that was taken in has one.
-/

namespace Reckoner

namespace Service

variable {s s₀ : Service} {m : Move} {moves : List Move} {r : Request}

/-- **Who asks.** The session of the connection that a request names is about to take a line with
    the expression of the request, in which any name may be given.  The client has joined under the
    name of the request, and the registry, as long as it runs, has it for the owner. -/
structure Asks (s : Service) (r : Request) (c : Connection) (session : Session) (j : Joined)
    (given : String) : Prop where
  connection : s.connections[r.connection]? = some c
  handler : c.handler = .session session
  joined : session.joined = some j
  client : r.client = j.name
  owner : s.registry.runs = true →
    s.registry.table.owner? r.client = some ⟨c.id, r.connection⟩
  line : ∃ input pulled line, session.Reads s.outlook c.output input (some pulled) ∧
    Session.lineOfPulled s.limits.longestLine pulled = some line ∧
    Command.ofLine line = .calculate given r.expression

/-- **Where a request comes from.** Some move of a run has submitted it. -/
inductive Origin (s₀ : Service) (moves : List Move) (r : Request) : Prop where
  /-- A session has. -/
  | session {before after : List Move} {c : Connection} {session : Session} {j : Joined}
      {given : String} (hmoves : moves = before ++ .handler r.connection :: after)
      (hasks : (s₀.applyAll before).Asks r c session j given)
  /-- Somebody outside the sessions has. -/
  | outside {before after : List Move} (hmoves : moves = before ++ .submit r :: after)
      (htakes : (s₀.applyAll before).takesRequest r = true)

/-- What a session asks for is on the line that it takes. -/
theorem reads_of_request {o : Outlook} {session : Session} {out : Channel}
    {client expression : String} (h : session.request? o out = some (client, expression)) :
    ∃ since j input pulled line given, session.phase = .reading since ∧
      session.joined = some j ∧ client = j.name ∧ session.Reads o out input (some pulled) ∧
      Session.lineOfPulled o.limits.longestLine pulled = some line ∧
      Command.ofLine line = .calculate given expression := by
  unfold Session.request? at h
  split at h
  · rename_i since j hphase hjoined
    split at h
    · cases h
    · rename_i hgoes
      simp only [Bool.or_eq_true, not_or, Bool.not_eq_true] at hgoes
      obtain ⟨⟨hcancelled, hbroken⟩, hwaiting⟩ := hgoes
      obtain ⟨pulled, hpulled, h⟩ := Option.bind_eq_some_iff.mp h
      obtain ⟨line, hline, h⟩ := Option.bind_eq_some_iff.mp h
      split at h
      · rename_i given expression' hcommand
        cases h
        have hpull : session.input.pull (lineLimit o.limits.longestLine)
            = ((session.input.pull (lineLimit o.limits.longestLine)).1, some pulled) := by
          rw [← hpulled]
        exact ⟨since, j, _, pulled, line, given, hphase, hjoined, rfl,
          ⟨hcancelled, hbroken, hwaiting, hpull⟩, hline, hcommand⟩
      · cases h
  · cases h

/-- What a session submits names its connection and the name that it has joined under. -/
theorem asks_of_submission {limits : SessionLimits} {queueCapacity i : Nat}
    (hs : Reachable limits queueCapacity s) (h : s.submission? (.handler i) = some r) :
    r.connection = i ∧ ∃ c session j given, s.Asks r c session j given := by
  obtain ⟨c, hc, h⟩ := Option.bind_eq_some_iff.mp h
  obtain ⟨session, hsession, h⟩ := Option.bind_eq_some_iff.mp h
  obtain ⟨⟨client, expression⟩, hrequest, h⟩ := Option.bind_eq_some_iff.mp h
  cases h
  have hsome : s.session? i = some session := by
    rw [session?, hc]
    exact hsession
  obtain ⟨c', hc', hhandler⟩ := session?_eq_some hsome
  rw [hc] at hc'
  cases hc'
  obtain ⟨since, j, input, pulled, line, given, hphase, hjoined, rfl, hreads, hline, hcommand⟩ :=
    reads_of_request hrequest
  have hback : session.hasGivenBack = false := by rw [Session.hasGivenBack, hphase]
  exact ⟨rfl, c, session, j, given, hc, hhandler, hjoined, rfl,
    fun hruns => (agreement_of_reachable hs hruns).owns hc hhandler hjoined hback,
    input, pulled, line, hreads, hline, hcommand⟩

/-- A request that was taken in was submitted by some move. -/
theorem submission_of_accepted (h : r ∈ s.acceptedIn moves) :
    ∃ before m after, moves = before ++ m :: after ∧
      (s.applyAll before).submission? m = some r := by
  induction moves generalizing s with
  | nil => cases h
  | cons m moves ih =>
    rw [acceptedIn, submissions, List.filterMap_append, List.mem_append] at h
    rcases h with h | h
    · refine ⟨[], m, moves, rfl, ?_⟩
      cases hsubmits : s.submission? m with
      | none => simp [hsubmits] at h
      | some request =>
        cases hrefusal : s.queue.refusal? with
        | none =>
          have hsame : r = request := by simpa [hsubmits, hrefusal] using h
          rw [hsame]
          exact hsubmits
        | some e => simp [hrefusal] at h
    · obtain ⟨before, m', after, rfl, hsubmits⟩ := ih h
      exact ⟨m :: before, m', after, rfl, hsubmits⟩

theorem origin_of_accepted {limits : SessionLimits} {queueCapacity : Nat}
    (h : r ∈ (start limits queueCapacity).acceptedIn moves) :
    Origin (start limits queueCapacity) moves r := by
  obtain ⟨before, m, after, hmoves, hsubmits⟩ := submission_of_accepted h
  cases m with
  | handler i =>
    obtain ⟨rfl, c, session, j, given, hasks⟩ :=
      asks_of_submission (Reachable.start.applyAll before) hsubmits
    exact .session hmoves hasks
  | submit request =>
    rw [submission?] at hsubmits
    split at hsubmits
    · cases hsubmits
      exact .outside hmoves ‹_›
    · cases hsubmits
  | _ => cases hsubmits

end Service

end Reckoner
