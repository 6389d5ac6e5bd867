import Reckoner.Proofs.Channel.Contents
import Reckoner.Proofs.Service.Origin
import Reckoner.Proofs.Service.Outputs
import Reckoner.Proofs.Session.Responses
import Mathlib.Data.List.Induction

/-!
# Replies reach only who has asked

Names are given back and taken again, and requests outlive the sessions that have submitted them.
So there can be requests of several owners under one name.  Replies are not addressed by name,
though: a request names the connection that its session looks after.

* `Service.Taken` — the requests that are still to be answered are among those that were taken in,
  and each is answered with its own outcome.
* `Service.Meant` — the lines that are meant for a connection: notices, and the replies to the
  requests that came from it.
* `Service.madeOf_apply` — a move lets nothing else come to the output of the connection.
* `Service.replies_confined` — the reply to a request goes, under the name of the client who has
  asked, to the output of its session and to no other.
-/

namespace Reckoner

namespace Service

variable {s s' s₀ : Service} {m : Move} {moves : List Move} {i : Nat}

/-! ### Requests -/

/-- **Requests.** Whatever waits or is being answered was taken in, and the outcome is its own. -/
structure Taken (s : Service) : Prop where
  waiting : ∀ r ∈ s.queue.waiting, r ∈ s.queue.accepted
  answered : ∀ r ∈ s.worker.request?, r ∈ s.queue.accepted
  outcome : ∀ {r : Request} {outcome : Outcome}, (s.worker.phase = .answering r outcome ∨
    ∃ ticket, s.worker.phase = .replying r outcome ticket) → outcome = r.outcome

theorem taken_start (limits : SessionLimits) (queueCapacity : Nat) :
    (start limits queueCapacity).Taken := by
  constructor <;> simp [start, Worker.request?]

/-- A worker that answers no request, or a queue that has lost some. -/
theorem Taken.idle (h : s.Taken) (hwaiting : ∀ r ∈ s'.queue.waiting, r ∈ s.queue.waiting)
    (haccepted : s'.queue.accepted = s.queue.accepted) (hnone : s'.worker.request? = none) :
    s'.Taken := by
  refine ⟨?_, ?_, ?_⟩
  · rw [haccepted]
    exact fun r hr => h.waiting r (hwaiting r hr)
  · rw [hnone]
    exact fun _ => nofun
  · unfold Worker.request? at hnone
    rintro r outcome (hphase | ⟨ticket, hphase⟩) <;> simp [hphase] at hnone

theorem Taken.worker (h : s.Taken) (hstep : s.WorkerTransition s') : s'.Taken := by
  cases hstep with
  | take hphase hwaiting =>
    refine ⟨?_, ?_, ?_⟩
    · intro r hr
      exact h.waiting r (by rw [hwaiting]; exact List.mem_cons_of_mem _ hr)
    · intro r hr
      cases hr
      exact h.waiting _ (by rw [hwaiting]; exact List.mem_cons_self)
    · rintro r outcome (hphase | ⟨ticket, hphase⟩) <;> cases hphase
      rfl
  | skip hphase hwaiting =>
    refine h.idle ?_ rfl rfl
    intro r hr
    rw [hwaiting]
    exact List.mem_cons_of_mem _ hr
  | stop => exact h.idle nofun rfl rfl
  | answer hphase =>
    refine ⟨h.waiting, ?_, ?_⟩
    · intro r hr
      cases hr
      exact h.answered _ (by rw [Worker.request?, hphase]; rfl)
    · rintro r outcome (hphase' | ⟨ticket, hphase'⟩) <;> cases hphase'
      exact h.outcome (.inl hphase)
  | write => exact ⟨h.waiting, h.answered, h.outcome⟩
  | deliver | fail => exact h.idle (fun _ hr => hr) rfl rfl

theorem Taken.apply (h : s.Taken) (m : Move) : (s.apply m).Taken := by
  by_cases hworker : m = .worker
  · subst hworker
    rcases s.apply_worker with ⟨heq, -⟩ | ⟨s', heq, hstep⟩ <;> rw [heq]
    · exact h
    · exact h.worker hstep
  by_cases hkill : m = .killWorker
  · subst hkill
    show s.killWorker.Taken
    rcases s.killWorker_cases with ⟨heq, -⟩ | ⟨-, before, -, heq⟩ <;> rw [heq]
    · exact h
    · exact h.idle nofun rfl rfl
  obtain ⟨hqueue, hsame, -⟩ := apply_queue hworker hkill
  refine ⟨?_, ?_, ?_⟩
  · rw [hqueue]
    unfold takeIn
    split
    · intro r hr
      exact List.mem_append.mpr ((List.mem_append.mp hr).imp_left (h.waiting r))
    · exact h.waiting
  · rw [hsame, hqueue, accepted_takeIn]
    exact fun r hr => List.mem_append_left _ (h.answered r hr)
  · rw [hsame]
    exact h.outcome

theorem taken_of_reachable {limits : SessionLimits} {queueCapacity : Nat}
    (h : Reachable limits queueCapacity s) : s.Taken := by
  induction h with
  | start => exact taken_start limits queueCapacity
  | move m _ ih => exact ih.apply m

/-! ### Who writes what -/

/-- What handlers start is a notice, or the wish to close the output. -/
theorem notice_of_starts {limits : SessionLimits} {queueCapacity : Nat}
    (hs : Reachable limits queueCapacity s) {c : Connection} (hc : s.connections[i]? = some c)
    {work : Work} (h : c.handler.Starts work) :
    work = .close ∨ ∃ r : Response, r.IsNotice ∧ work = .line r.line := by
  cases hhandler : c.handler with
  | session session =>
    rw [hhandler] at h
    refine h.imp_right ?_
    rintro ⟨r, next, hphase, hwork⟩
    refine ⟨r, ?_, hwork⟩
    refine session_induction (P := fun session => session.SaysNotices) ?_ ?_ hs
      (session?_of_handler hc hhandler) hphase
    · intro peer since r next hphase
      cases hphase
    · intro s before after hchange hbefore
      cases hchange with
      | step htransition => exact htransition.saysNotices hbefore
      | hear reply => exact hbefore.hear reply
      | input => exact hbefore
  | refusal r =>
    rw [hhandler] at h
    exact h.symm.imp_right fun hwork => ⟨.busy, .busy, hwork⟩
  | outside | released =>
    rw [hhandler] at h
    cases h

/-- The reply that the worker writes is the one with the outcome of the request. -/
theorem Taken.output_of_worker (h : s.Taken) {after : Channel}
    (hafter : (s.apply .worker).output? i = some after) :
    ∃ before, s.output? i = some before ∧ (after = before ∨ ∃ r, r.connection = i ∧
      ((s.worker.phase = .answering r r.outcome ∧
          after = (before.startLine (r.reply r.outcome).line).1) ∨
        ∃ ticket, s.worker.phase = .replying r r.outcome ticket ∧
          after = (before.poll s.clock ticket).channel)) := by
  obtain ⟨before, hbefore, hstep⟩ := Service.output_of_worker hafter
  refine ⟨before, hbefore, hstep.imp_right ?_⟩
  rintro ⟨r, outcome, hi, ⟨hphase, hstart⟩ | ⟨ticket, hphase, hpoll⟩⟩
  · obtain rfl := h.outcome (.inl hphase)
    exact ⟨r, hi, .inl ⟨hphase, hstart⟩⟩
  · obtain rfl := h.outcome (.inr ⟨ticket, hphase⟩)
    exact ⟨r, hi, .inr ⟨ticket, hphase, hpoll⟩⟩

/-- Nobody but handlers and the worker has anything written. -/
theorem jobs_of_others {before after : Channel} (hworker : m ≠ .worker)
    (hhandler : ∀ k, m ≠ .handler k) (hbefore : s.output? i = some before)
    (hafter : (s.apply m).output? i = some after) :
    after.jobs.Sublist before.jobs ∧ after.committed = before.committed := by
  by_cases hkill : m = .killWorker
  · subst hkill
    have hafter : s.killWorker.output? i = some after := hafter
    rw [output?_killWorker, hbefore, Option.map_some, Option.some.injEq] at hafter
    rw [← hafter]
    split
    · exact ⟨List.filter_sublist, rfl⟩
    · exact ⟨List.Sublist.refl _, rfl⟩
  · obtain ⟨output, houtput, hjobs, hbuffer, haccepted⟩ :=
      (untouched_apply hhandler hworker hkill).kept hbefore
    rw [hafter] at houtput
    cases houtput
    exact ⟨hjobs ▸ List.Sublist.refl _, by rw [Channel.committed, hbuffer, haccepted]; rfl⟩

/-! ### Contents of outputs -/

/-- **What is meant for a connection.** After the given moves these are the lines that may be
    written to its output. -/
inductive Meant (s₀ : Service) (moves : List Move) (i : Nat) : Bytes → Prop where
  /-- A notice. -/
  | notice {r : Response} (h : r.IsNotice) : Meant s₀ moves i r.line
  /-- The reply to a request that came from this connection. -/
  | reply {r : Request} (hconnection : r.connection = i) (horigin : s₀.Origin moves r) :
      Meant s₀ moves i (r.reply r.outcome).line

theorem Origin.append {r : Request} (h : s₀.Origin moves r) (later : List Move) :
    s₀.Origin (moves ++ later) r := by
  cases h with
  | session hmoves hasks => exact .session (by rw [hmoves, List.append_assoc]; rfl) hasks
  | outside hmoves htakes => exact .outside (by rw [hmoves, List.append_assoc]; rfl) htakes

theorem Origin.asked {r : Request} (h : s₀.Origin moves r) (hnone : ∀ r, Move.submit r ∉ moves) :
    ∃ before after c session j given, moves = before ++ .handler r.connection :: after ∧
      (s₀.applyAll before).Asks r c session j given := by
  cases h with
  | session hmoves hasks => exact ⟨_, _, _, _, _, _, hmoves, hasks⟩
  | outside hmoves =>
    refine absurd ?_ (hnone r)
    rw [hmoves]
    exact List.mem_append_right _ List.mem_cons_self

theorem Meant.append {bytes : Bytes} (h : Meant s₀ moves i bytes) (later : List Move) :
    Meant s₀ (moves ++ later) i bytes := by
  cases h with
  | notice h => exact .notice h
  | reply hconnection horigin => exact .reply hconnection (horigin.append later)

/-- **Nothing else comes in.** A move keeps outputs made of lines, if what their handlers start is
    among those of each output, and the reply to the request that is being answered among those of
    the output that it names. -/
theorem madeOf_apply {limits : SessionLimits} {queueCapacity : Nat}
    (hs : Reachable limits queueCapacity s) {lines : Nat → Bytes → Prop}
    (hstarts : ∀ {i : Nat} {c : Connection} {bytes : Bytes}, s.connections[i]? = some c →
      c.handler.Starts (.line bytes) → lines i bytes)
    (hreply : ∀ r ∈ s.worker.request?, lines r.connection (r.reply r.outcome).line)
    (h : ∀ {i : Nat} {output : Channel}, s.output? i = some output → output.MadeOf (lines i))
    {after : Channel} (hafter : (s.apply m).output? i = some after) : after.MadeOf (lines i) := by
  have horderly {output : Channel} (houtput : s.output? i = some output) : output.Orderly := by
    obtain ⟨c, hc, rfl⟩ := output?_eq_some houtput
    exact ((sharing_of_reachable hs).shared hc).orderly
  by_cases hworker : m = .worker
  · subst hworker
    obtain ⟨before, hbefore, hstep⟩ := (taken_of_reachable hs).output_of_worker hafter
    rcases hstep with rfl | ⟨r, rfl, ⟨hphase, rfl⟩ | ⟨ticket, -, rfl⟩⟩
    · exact h hbefore
    · refine (h hbefore).start ?_
      rintro bytes hwork
      cases hwork
      exact hreply r (by rw [Worker.request?, hphase]; rfl)
    · exact (h hbefore).poll (horderly hbefore) _ _
  by_cases hhandler : ∃ k, m = .handler k
  · obtain ⟨k, rfl⟩ := hhandler
    obtain ⟨before, hbefore, hstep⟩ := output_of_handler hafter
    rcases hstep with rfl | ⟨rfl, c, hc, ⟨work, hwork, rfl⟩ | ⟨ticket, -, rfl⟩⟩
    · exact h hbefore
    · refine (h hbefore).start ?_
      rintro bytes rfl
      exact hstarts hc hwork
    · exact (h hbefore).poll (horderly hbefore) _ _
  have hhandler : ∀ k, m ≠ .handler k := fun k hm => hhandler ⟨k, hm⟩
  cases hbefore : s.output? i with
  | some before =>
    obtain ⟨hjobs, hsame⟩ := jobs_of_others hworker hhandler hbefore hafter
    exact (h hbefore).still hsame fun job hjob => .inl (hjobs.subset hjob)
  | none =>
    -- The output is new.
    by_cases hkill : m = .killWorker
    · subst hkill
      have hafter : s.killWorker.output? i = some after := hafter
      rw [output?_killWorker, hbefore] at hafter
      cases hafter
    · obtain ⟨capacity, timeout, rfl⟩ :=
        (untouched_apply hhandler hworker hkill).fresh hbefore hafter
      exact Channel.madeOf_create capacity timeout

/-- All that ever comes to the output of a connection is meant for it. -/
theorem madeOf_applyAll (limits : SessionLimits) (queueCapacity : Nat) (moves : List Move)
    {output : Channel}
    (houtput : ((start limits queueCapacity).applyAll moves).output? i = some output) :
    output.MadeOf (Meant (start limits queueCapacity) moves i) := by
  induction moves using List.reverseRecOn generalizing i output with
  | nil => cases houtput
  | append_singleton moves m ih =>
    have hs : Reachable limits queueCapacity ((start limits queueCapacity).applyAll moves) :=
      Reachable.start.applyAll moves
    have houtput : (((start limits queueCapacity).applyAll moves).apply m).output? i
        = some output := by rwa [applyAll, List.foldl_append] at houtput
    refine madeOf_apply hs ?_ ?_ ?_ houtput
    · intro i c bytes hc hstarts
      rcases notice_of_starts hs hc hstarts with hclose | ⟨r, hr, hline⟩
      · cases hclose
      · cases hline
        exact .notice hr
    · intro r hr
      have haccepted := (taken_of_reachable hs).answered r hr
      rw [accepted_applyAll] at haccepted
      exact .reply rfl ((origin_of_accepted haccepted).append [m])
    · intro i output houtput
      exact (ih houtput).mono fun hmeant => hmeant.append [m]

/-! ### Confinement -/

/-- **Confinement.** Where requests come from and where replies go, once a run has led from the
    first service to the last. -/
structure Confined (s₀ : Service) (moves : List Move) (s : Service) : Prop where
  /-- A request that waits or is being answered was submitted in the course of the run.  If a
      session did so, the request names its connection, and its client by the name that it had. -/
  origin : ∀ {r : Request}, r ∈ s.queue.waiting ∨ s.worker.request? = some r → s₀.Origin moves r
  /-- So if nobody outside the sessions submits any, all requests come from sessions. -/
  asked : (∀ r, Move.submit r ∉ moves) → ∀ {r : Request},
    r ∈ s.queue.waiting ∨ s.worker.request? = some r → ∃ before after c session j given,
      moves = before ++ .handler r.connection :: after ∧
        (s₀.applyAll before).Asks r c session j given
  /-- All that ever went to the output of a connection are notices, and replies to requests that
      came from this connection. -/
  contents : ∀ {i : Nat} {output : Channel}, s.output? i = some output →
    output.MadeOf (Meant s₀ moves i)
  /-- The worker writes to no output but that which its request names, and there only its reply. -/
  worker : ∀ {i : Nat} {after : Channel}, (s.apply .worker).output? i = some after →
    ∃ before, s.output? i = some before ∧ (after = before ∨ ∃ r, r.connection = i ∧
      ((s.worker.phase = .answering r r.outcome ∧
          after = (before.startLine (r.reply r.outcome).line).1) ∨
        ∃ ticket, s.worker.phase = .replying r r.outcome ticket ∧
          after = (before.poll s.clock ticket).channel))
  /-- Handlers write to no output but that of their connection, and only notices. -/
  handler : ∀ {i j : Nat} {after : Channel}, (s.apply (.handler i)).output? j = some after →
    ∃ before, s.output? j = some before ∧ (after = before ∨ i = j ∧
      ((∃ r : Response, r.IsNotice ∧ after = (before.startLine r.line).1) ∨
        after = before.startClose.1 ∨
        ∃ ticket, s.worker.ticketOn? j ≠ some ticket ∧
          after = (before.poll s.clock ticket).channel))
  /-- Nobody else writes. -/
  others : ∀ {m : Move} {i : Nat} {before after : Channel}, m ≠ .worker →
    (∀ k, m ≠ .handler k) → s.output? i = some before → (s.apply m).output? i = some after →
      after.jobs.Sublist before.jobs ∧ after.committed = before.committed

/-- **Replies reach only who has asked.** Whoever joins, leaves and joins again under whatever name,
    replies are confined to the outputs of those who have asked. -/
theorem replies_confined (limits : SessionLimits) (queueCapacity : Nat) (moves : List Move) :
    Confined (start limits queueCapacity) moves ((start limits queueCapacity).applyAll moves) := by
  have hs : Reachable limits queueCapacity ((start limits queueCapacity).applyAll moves) :=
    Reachable.start.applyAll moves
  have htaken := taken_of_reachable hs
  have horigin {r : Request} (hr : r ∈ ((start limits queueCapacity).applyAll moves).queue.waiting ∨
      ((start limits queueCapacity).applyAll moves).worker.request? = some r) :
      (start limits queueCapacity).Origin moves r := by
    have haccepted := hr.elim (htaken.waiting r) (htaken.answered r)
    rw [accepted_applyAll] at haccepted
    exact origin_of_accepted haccepted
  refine ⟨horigin, fun hnone _ hr => (horigin hr).asked hnone,
    madeOf_applyAll limits queueCapacity moves, htaken.output_of_worker, ?_, jobs_of_others⟩
  · intro i j after hafter
    obtain ⟨before, hbefore, hstep⟩ := output_of_handler hafter
    refine ⟨before, hbefore, hstep.imp_right ?_⟩
    rintro ⟨rfl, c, hc, ⟨work, hstarts, rfl⟩ | ⟨ticket, hticket, rfl⟩⟩
    · rcases notice_of_starts hs hc hstarts with rfl | ⟨r, hr, rfl⟩
      · exact ⟨rfl, .inr (.inl rfl)⟩
      · exact ⟨rfl, .inl ⟨r, hr, rfl⟩⟩
    · exact ⟨rfl, .inr (.inr ⟨ticket, ((sharing_of_reachable hs).shared hc).apart hticket, rfl⟩)⟩

/-- A client joins, asks under another name, and is gone; another one joins under the name that is
    free now, and asks as well.  Only then does the worker take up the requests. -/
def rejoinRun : List Move := List.flatten
  [[.connect "first" 64 1000, .arrive 0 (utf8 "JOIN:a\nCALC:b:1+1\n")],
    List.replicate 4 (.handler 0), [.registry], List.replicate 6 (.handler 0), [.finish 0 .eof],
    List.replicate 6 (.handler 0), [.registry], List.replicate 4 (.handler 0),
    [.connect "second" 64 1000, .arrive 1 (utf8 "JOIN:a\nCALC:a:2+2\n")],
    List.replicate 4 (.handler 1), [.registry], List.replicate 6 (.handler 1),
    List.replicate 12 .worker]

-- Both requests are the client's of the same name, and the second gets only what it has asked for.
example :
    (((start ⟨60000, 64⟩ 8).applyAll rejoinRun).worker.completions.map Completion.request,
      ((start ⟨60000, 64⟩ 8).applyAll rejoinRun).connections.map fun c => c.output.pipe.accepted)
    = ([⟨"a", "1+1", 0⟩, ⟨"a", "2+2", 1⟩],
      [utf8 "ACK:a:Welcome\n", utf8 "ACK:a:Welcome\nRES:a:4\n"]) := by decide +kernel

end Service

end Reckoner
