import Reckoner.Proofs.Service.Drain
import Reckoner.Proofs.Service.Order

/-!
# First in, first out

* `Service.Fifo` — what a run makes of the requests that it submits: each that is taken is answered
  exactly once and in its turn, and one that is refused leaves no trace.
* `Service.fifo` — every run of a service does so, unless its worker is ended by force.
-/

namespace Reckoner

namespace Service

variable {s : Service} {m : Move}

/-- A request that is refused changes nothing for the worker. -/
theorem apply_of_refused {request : Request} {e : QueueError}
    (hsubmits : s.submission? m = some request) (hrefused : s.queue.refusal? = some e) :
    (s.apply m).queue = s.queue ∧ (s.apply m).worker = s.worker ∧
      (s.apply m).workerLog = s.workerLog := by
  have hworker : m ≠ .worker := by rintro rfl; cases hsubmits
  have hkill : m ≠ .killWorker := by rintro rfl; cases hsubmits
  obtain ⟨hqueue, hsame⟩ := apply_queue (s := s) hworker hkill
  refine ⟨?_, hsame⟩
  simp only [hqueue, hsubmits, takeIn, hrefused]

/-- Once no request can come, no more are taken in. -/
theorem accepted_after (h : s.mayRequest = false) (schedule : Nat → Move) (n : Nat) :
    (s.after schedule n).queue.accepted = s.queue.accepted := by
  induction n with
  | zero => rfl
  | succ n ih =>
    rw [after_succ, accepted_apply, submission?_of_quiet (mayRequest_after h schedule n), ih]
    simp

/-- A worker that has stopped is done with all requests. -/
theorem Ordered.of_stopped (h : s.Ordered) (hstopped : s.worker.phase = .stopped) :
    s.worker.completions.map Completion.request = s.queue.accepted := by
  have horder := h.order
  rw [Worker.request?, hstopped, (h.stopped hstopped).2] at horder
  simpa using horder

theorem Ordered.getElem?_accepted (h : s.Ordered) {i : Nat} {c : Completion}
    (hc : s.worker.completions[i]? = some c) : s.queue.accepted[i]? = some c.request := by
  have hlt : i < (s.worker.completions.map Completion.request).length := by
    rw [List.length_map]
    exact (List.getElem?_eq_some_iff.mp hc).1
  rw [← h.order, List.append_assoc, List.getElem?_append_left hlt, List.getElem?_map, hc]
  rfl

/-- **First in, first out, exactly once.** What a run from `s₀` to `s` makes of the requests that
    its moves submit. -/
structure Fifo (s₀ : Service) (moves : List Move) (s : Service) : Prop where
  /-- Those that were taken in are done, being answered, or wait, in this order. -/
  order : s.worker.completions.map Completion.request ++ s.worker.request?.toList
    ++ s.queue.waiting = s₀.acceptedIn moves
  /-- What is published in place `i` bears the position `i`, and is about the request that was taken
      in as number `i`. -/
  position : ∀ (i : Nat) (c : Completion), s.worker.completions[i]? = some c →
    c.position = i ∧ (s₀.acceptedIn moves)[i]? = some c.request
  /-- A move publishes at most one thing, behind all others. -/
  publish : ∀ m, ∃ published, (s.apply m).worker.completions = s.worker.completions ++ published ∧
    published.length ≤ 1
  /-- A request leaves the queue only when the worker is done with the one before, and has no job on
      any output. -/
  dequeue : ∀ m, (s.apply m).worker.phase ≠ .killed →
    (s.apply m).queue.waiting.length < s.queue.waiting.length →
      m = .worker ∧ s.worker.request? = none ∧
        ∀ c ∈ s.connections, ∀ job ∈ c.output.jobs, c.handler.ticket? = some job.ticket
  /-- A request that is refused changes nothing for the worker. -/
  refused : ∀ m request e, s.submission? m = some request → s.queue.refusal? = some e →
    (s.apply m).queue = s.queue ∧ (s.apply m).worker = s.worker ∧
      (s.apply m).workerLog = s.workerLog
  /-- The worker has logged what there is to say of each request that is done, and of the one that
      it is at, and nothing else. -/
  log : ∃ blocks, List.Forall₂ Completion.Reports s.worker.completions blocks ∧
    s.workerLog = blocks.flatten ++ s.worker.opening
  /-- It has replied to requests that are done or that it is at, in order, at most once to each. -/
  replies : (s₀.repliesIn moves).Sublist
    (s.worker.completions.map Completion.request ++ s.worker.request?.toList)
  /-- Every line that it starts is such a reply. -/
  line : ∀ i before after, s.output? i = some before → (s.apply .worker).output? i = some after →
    after.nextTicket ≠ before.nextTicket → ∃ request outcome, s.reply? .worker = some request ∧
      request.connection = i ∧ after = (before.startLine (request.reply outcome).line).1
  /-- Once it has stopped, it is done with all requests. -/
  count : s.worker.phase = .stopped →
    s.worker.completions.length = (s₀.acceptedIn moves).length
  /-- Once no request can come any more, it stops along every fair schedule. -/
  stops : s.mayRequest = false → ∀ schedule, Fair s schedule →
    ∃ n, (s.after schedule n).worker.phase = .stopped ∧
      (s.after schedule n).worker.completions.length = (s₀.acceptedIn moves).length

/-- **Requests are answered in order, each exactly once.** This holds of every run from the start in
    which the worker is not ended by force, whatever clients, sessions and outputs do. -/
theorem fifo (limits : SessionLimits) (queueCapacity : Nat) (moves : List Move)
    (halive : ((start limits queueCapacity).applyAll moves).worker.phase ≠ .killed) :
    Fifo (start limits queueCapacity) moves ((start limits queueCapacity).applyAll moves) := by
  have haccepted : ((start limits queueCapacity).applyAll moves).queue.accepted
      = (start limits queueCapacity).acceptedIn moves := accepted_applyAll _ moves
  have hreplies := replies_sublist moves halive
  have hordered := (ordered_start limits queueCapacity).applyAll moves halive
  have hreachable : Reachable limits queueCapacity ((start limits queueCapacity).applyAll moves) :=
    Reachable.start.applyAll moves
  have hsharing := sharing_of_reachable hreachable
  -- From here on only what these facts say of the last state matters.
  generalize (start limits queueCapacity).applyAll moves = s at *
  refine ⟨?_, ?_, completions_apply s, ?_, ?_, hordered.log, hreplies, ?_, ?_, ?_⟩
  · rw [← haccepted, hordered.order]
  · intro i c hc
    rw [← haccepted]
    exact ⟨hordered.position hc, hordered.getElem?_accepted hc⟩
  · intro m hnext hless
    obtain ⟨hworker, hidle, hjobs⟩ := takes_when_idle hsharing hnext hless
    refine ⟨hworker, ?_, hjobs⟩
    rw [Worker.request?, hidle]
  · intro m request e hsubmits hrefused
    exact apply_of_refused hsubmits hrefused
  · intro i before after hbefore hafter hline
    exact line_of_worker hbefore hafter hline
  · intro hstopped
    rw [← haccepted, ← hordered.of_stopped hstopped, List.length_map]
  · intro hquiet schedule hfair
    obtain ⟨n, -, hstopped⟩ := stops_of_fair hsharing hquiet hfair 0
    refine ⟨n, hstopped, ?_⟩
    have hafter : (s.after schedule n).Ordered := hordered.applyAll _ (hfair.alive n)
    rw [← haccepted, ← accepted_after hquiet schedule n, ← hafter.of_stopped hstopped,
      List.length_map]

/-- A run in which there is room for one request at a time: the first can be answered, the second is
    refused, the third cannot be evaluated, and then no more can come. -/
def crowdedRun : List Move :=
  [.attach 64 1000, .submit ⟨"a", "1+1", 0⟩, .submit ⟨"a", "2+2", 0⟩, .worker,
    .submit ⟨"a", "1+", 0⟩, .worker, .worker, .worker, .worker, .release]

theorem fifo_crowdedRun :
    ((start ⟨1000, 64⟩ 1).applyAll crowdedRun).worker.phase ≠ .killed ∧
      (start ⟨1000, 64⟩ 1).acceptedIn crowdedRun = [⟨"a", "1+1", 0⟩, ⟨"a", "1+", 0⟩] ∧
      ∃ n, (((start ⟨1000, 64⟩ 1).applyAll crowdedRun).after roundRobin n).worker.phase = .stopped ∧
        (((start ⟨1000, 64⟩ 1).applyAll crowdedRun).after roundRobin n).worker.completions.length
          = 2 := by
  have halive : ((start ⟨1000, 64⟩ 1).applyAll crowdedRun).worker.phase ≠ .killed := by
    decide +kernel
  have haccepted : (start ⟨1000, 64⟩ 1).acceptedIn crowdedRun
      = [⟨"a", "1+1", 0⟩, ⟨"a", "1+", 0⟩] := by decide +kernel
  have hquiet : ((start ⟨1000, 64⟩ 1).applyAll crowdedRun).mayRequest = false := by decide +kernel
  have hfifo := fifo ⟨1000, 64⟩ 1 crowdedRun halive
  obtain ⟨n, hstopped, hcount⟩ := hfifo.stops hquiet roundRobin (fair_roundRobin halive)
  rw [haccepted] at hcount
  exact ⟨halive, haccepted, n, hstopped, hcount⟩

end Service

end Reckoner
