import Reckoner.Proofs.Service.Confinement
import Reckoner.Proofs.Service.Logging
import Reckoner.Proofs.Session.Reporting

/-!
# What a service writes and logs is one line

The texts of a client come into the service with the lines that it sends, and with the rest of what
happens on its connection.  From there they go through its session, the registry, the requests and
the worker, and on this way no line feed is added.

* `Move.IsPlain` — a move that brings no line feed, but for what clients send.
* `Service.Plain` — no session and no request has one, and no entry of the log.
* `Service.Plain.apply`, `Service.Plain.applyAll` — it is so after all such moves.
* `Service.oneLine_applyAll` — so what comes to an output are lines of responses.
-/

namespace Reckoner

/-- What a move brings from outside holds no line feed, but for what a client sends. -/
def Move.IsPlain : Move → Prop
  | .connect peer _ _ => '\n' ∉ peer.toList
  | .finish _ (.failure reason) => '\n' ∉ reason.toList
  | .submit r => r.IsLine
  | _ => True

namespace Service

/-- **Plain services.** Sessions are plain and tidy, and all requests and entries are one line. -/
structure Plain (s : Service) : Prop where
  sessions : ∀ {i : Nat} {session : Session}, s.session? i = some session →
    session.Plain (lineLimit s.limits.longestLine) ∧ session.Tidy
  requests : ∀ r ∈ s.queue.accepted, r.IsLine
  log : ∀ entry ∈ s.log, entry.2.IsLine

variable {s s' : Service} {m : Move} {i : Nat} {session : Session}

theorem plain_start (limits : SessionLimits) (queueCapacity : Nat) :
    (start limits queueCapacity).Plain :=
  ⟨nofun, nofun, nofun⟩

/-- A session is plain and tidy after a move. -/
theorem Plain.session_apply (h : s.Plain) (hm : m.IsPlain)
    (hsession : (s.apply m).session? i = some session) :
    session.Plain (lineLimit s.limits.longestLine) ∧ session.Tidy := by
  rcases session_of_move hsession with ⟨before, next, hstep, hbefore, rfl⟩ |
    ⟨-, (hsame | ⟨before, hbefore, htouched⟩) | ⟨peer, _, _, rfl, -, rfl⟩⟩
  · obtain ⟨c, -, -, htransition, -⟩ := apply_of_sessionStep hstep
    obtain ⟨hplain, htidy⟩ := h.sessions hbefore
    exact ⟨htransition.plain hplain, htransition.tidy htidy hplain⟩
  · exact h.sessions hsame
  · obtain ⟨hplain, htidy⟩ := h.sessions hbefore
    cases htouched with
    | hear reply =>
      have hhears := before.hears_hear reply
      exact ⟨hplain.hear hhears, htidy.hear hhears⟩
    | arrive chunk =>
      exact ⟨⟨hplain.framed.arrive chunk, hplain.joined, hplain.wanted, hplain.spoken⟩,
        htidy.arrive chunk⟩
    | finish ending =>
      refine ⟨⟨hplain.framed.finish ending, hplain.joined, hplain.wanted, hplain.spoken⟩,
        htidy.finish ?_⟩
      rintro reason rfl
      exact hm
  · exact ⟨Session.plain_begin peer _ _, Session.tidy_begin hm _⟩

/-- What is submitted is one line. -/
theorem Plain.submission (h : s.Plain) (hm : m.IsPlain) {r : Request}
    (hr : s.submission? m = some r) : r.IsLine := by
  cases m with
  | handler k =>
    obtain ⟨c, hc, hr⟩ := Option.bind_eq_some_iff.mp hr
    obtain ⟨session, hsession, hr⟩ := Option.bind_eq_some_iff.mp hr
    obtain ⟨⟨client, expression⟩, hrequest, hr⟩ := Option.bind_eq_some_iff.mp hr
    cases hr
    have hthere : s.session? k = some session := by rw [session?, hc, Option.bind_some, hsession]
    have hplain := (h.sessions hthere).1
    obtain ⟨_, j, _, _, line, given, -, hjoined, rfl, hreads, hline, hcommand⟩ :=
      reads_of_request hrequest
    refine ⟨hplain.joined hjoined,
      Command.notMem_of_fields (hreads.notMem hline hplain.framed) ?_⟩
    rw [hcommand]
    exact List.mem_cons_of_mem _ List.mem_cons_self
  | submit request =>
    rw [submission?] at hr
    split at hr
    · cases hr
      exact hm
    · cases hr
  | _ => cases hr

/-- What the worker logs is one line each. -/
theorem WorkerTransition.reports (h : WorkerTransition s s') (htaken : s.Taken)
    (hrequests : ∀ r ∈ s.queue.accepted, r.IsLine) {entry : LogSource × LogEntry}
    (hentry : entry ∈ s'.log) : entry ∈ s.log ∨ entry.2.IsLine := by
  -- The worker puts what it logs behind the rest.
  have hlogged {new : List LogEntry}
      (hentry : entry ∈ s.log ++ new.map fun entry => (LogSource.worker, entry))
      (hnew : ∀ entry ∈ new, entry.IsLine) : entry ∈ s.log ∨ entry.2.IsLine := by
    rcases List.mem_append.mp hentry with hbefore | hafter
    · exact .inl hbefore
    · obtain ⟨entry, hmem, rfl⟩ := List.mem_map.mp hafter
      exact .inr (hnew entry hmem)
  cases h with
  | stop => exact .inl hentry
  | @take request waiting _ _ _ hwaiting =>
    have hrequest := hrequests request (htaken.waiting request (by simp [hwaiting]))
    refine hlogged hentry ?_
    simp [hrequest.received, hrequest.evaluated]
  | @skip request waiting _ _ _ hwaiting =>
    have hrequest := hrequests request (htaken.waiting request (by simp [hwaiting]))
    refine hlogged hentry ?_
    simp [hrequest.received, hrequest.evaluated, hrequest.undelivered WriteError.isLine_broken]
  | answer | write | deliver => exact hlogged hentry nofun
  | @fail request _ _ _ _ _ hphase _ _ hprogress =>
    have hrequest := hrequests request
      (htaken.answered request (by rw [Worker.request?, hphase]; rfl))
    refine hlogged hentry ?_
    simp [hrequest.undelivered (Channel.isLine_of_poll hprogress)]

/-- **No move adds a line feed.** -/
theorem Plain.apply (h : s.Plain) (htaken : s.Taken) (hm : m.IsPlain) : (s.apply m).Plain := by
  refine ⟨fun hsession => ?_, fun r hr => ?_, fun entry hentry => ?_⟩
  · rw [(s.frame_apply m).limits]
    exact h.session_apply hm hsession
  · rw [accepted_apply, List.mem_append] at hr
    rcases hr with hr | hr
    · exact h.requests r hr
    · split at hr
      · exact h.submission hm (Option.mem_toList.mp hr)
      · cases hr
  · -- Only sessions and the worker log anything.
    by_cases hhandler : ∃ k, m = .handler k
    · obtain ⟨k, rfl⟩ := hhandler
      rw [log_of_handler, List.mem_append] at hentry
      rcases hentry with hentry | hentry
      · exact h.log entry hentry
      · obtain ⟨entry, hmem, rfl⟩ := List.mem_map.mp hentry
        cases hstep : s.sessionStep? k (.handler k) with
        | none =>
          rw [hstep] at hmem
          cases hmem
        | some result =>
          obtain ⟨c, hc, hhandler, htransition, -⟩ := apply_of_sessionStep hstep
          obtain ⟨hplain, htidy⟩ := h.sessions (session?_of_handler hc hhandler)
          rw [hstep] at hmem
          exact htransition.reports htidy hplain entry hmem
    by_cases hworker : m = .worker
    · subst hworker
      rcases s.apply_worker with ⟨heq, -⟩ | ⟨s', heq, hworker⟩ <;> rw [heq] at hentry
      · exact h.log entry hentry
      · exact (hworker.reports htaken h.requests hentry).elim (h.log entry) id
    · rw [log_of_other (fun k hk => hhandler ⟨k, hk⟩) hworker] at hentry
      exact h.log entry hentry

/-- It is so after every run. -/
theorem Plain.applyAll {limits : SessionLimits} {queueCapacity : Nat}
    (hs : Reachable limits queueCapacity s) (h : s.Plain) {moves : List Move}
    (hmoves : ∀ m ∈ moves, m.IsPlain) : (s.applyAll moves).Plain := by
  induction moves generalizing s with
  | nil => exact h
  | cons m moves ih =>
    have hm := hmoves m List.mem_cons_self
    exact ih (hs.move m) (h.apply (taken_of_reachable hs) hm)
      fun other hother => hmoves other (List.mem_cons_of_mem _ hother)

/-! ### What is written -/

/-- What a handler starts to write is one line. -/
theorem Plain.oneLine_of_starts (h : s.Plain) {c : Connection} (hc : s.connections[i]? = some c)
    {bytes : Bytes} (hstarts : c.handler.Starts (.line bytes)) : Response.OneLine bytes := by
  cases hhandler : c.handler with
  | session session =>
    have hplain := (h.sessions (session?_of_handler hc hhandler)).1
    rw [hhandler] at hstarts
    rcases hstarts with hclose | ⟨r, next, hphase, hline⟩
    · cases hclose
    · cases hline
      exact (hplain.spoken hphase).oneLine
  | refusal r =>
    rw [hhandler] at hstarts
    rcases hstarts with hline | hclose
    · cases hline
      exact (Response.isLine_error (by decide)).oneLine
    · cases hclose
  | outside | released =>
    rw [hhandler] at hstarts
    cases hstarts

/-- **Outputs are made of lines**, one for each response. -/
theorem oneLine_applyAll (limits : SessionLimits) (queueCapacity : Nat) {moves : List Move}
    (hmoves : ∀ m ∈ moves, m.IsPlain) {output : Channel}
    (houtput : ((start limits queueCapacity).applyAll moves).output? i = some output) :
    output.MadeOf Response.OneLine := by
  induction moves using List.reverseRecOn generalizing i output with
  | nil => cases houtput
  | append_singleton moves m ih =>
    have hbefore : ∀ m ∈ moves, m.IsPlain :=
      fun other hother => hmoves other (List.mem_append_left _ hother)
    have hs : Reachable limits queueCapacity ((start limits queueCapacity).applyAll moves) :=
      Reachable.start.applyAll moves
    have hplain := (plain_start limits queueCapacity).applyAll .start hbefore
    rw [applyAll_append] at houtput
    refine madeOf_apply hs (fun hc hwork => hplain.oneLine_of_starts hc hwork) ?_ (ih hbefore)
      houtput
    intro r hr
    have hrequest := hplain.requests r ((taken_of_reachable hs).answered r hr)
    exact (Request.isLine_reply hrequest.client).oneLine

end Service

end Reckoner
