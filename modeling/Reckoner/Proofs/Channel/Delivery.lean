import Reckoner.Proofs.Channel.Silence
import Reckoner.Wire.Response

/-!
# Whole lines, one after the other

While nobody shuts a channel down, what its pipe takes is told by the calls alone: the lines that
were sent, in the order in which the calls took hold of the channel, and the first bytes of one
more line.

* `Traffic.grants` — the calls that take hold of the channel in a run, in this order.
* `Traffic.sentIn` — the lines of those calls that have sent theirs.
* `Traffic.InHand` — what the channel has in hand: no line, a part of one, or one that has failed.
* `Traffic.Delivers` — the invariant; `Traffic.Delivers.apply` is its step.
* `Traffic.InOrder` — what callers, the client and the pipe see of it.
* `Traffic.sends_in_order` — what it means for a run in which any number of callers send lines.
-/

namespace Reckoner

theorem Response.line_ne_nil (r : Response) : r.line ≠ [] := by simp [Response.line]

/-- The line of a call that has returned and was successful. -/
def Call.sent? (call : Call) : Option Bytes :=
  match call.work, call.stage with
  | .line bytes, .ended (.ok ()) => some bytes
  | _, _ => none

/-- All bytes are still there after a write, in the same order. -/
theorem Channel.write_accepted {c c' : Channel} {bytes rest : Bytes}
    (h : c.write bytes = some (c', rest)) : ∃ taken,
      c'.pipe.accepted = c.pipe.accepted ++ taken ∧
        taken ++ (c'.buffer ++ rest) = c.buffer ++ bytes := by
  obtain ⟨-, hsame, hbytes, -⟩ := write_eq_some h
  exact ⟨(c.offered bytes).take c.pipe.room, by rw [hsame]; rfl, hbytes⟩

/-- **What becomes of a line in hand.** Some of the bytes that are left go to the pipe.  If there
    are more, the line fails, which breaks the channel, or goes on; else it is sent. -/
theorem Channel.Operation.line_of_begun {c : Channel} {clock deadline : Nat} {job : Job}
    {others : List Job} {next : JobStep} (h : Operation c clock job others next)
    (hline : job.work.closes = false) (hbegun : job.deadline = some deadline)
    (hmore : c.buffer ++ job.work.rest ≠ []) : ∃ taken left,
      next.channel.pipe.accepted = c.pipe.accepted ++ taken ∧
        taken ++ left = c.buffer ++ job.work.rest ∧
        ((∃ e, next.progress = some (.error e) ∧ e ≠ .broken ∧ next.channel.broken = true ∧
            left ≠ []) ∨
          (next.progress = some (.ok ()) ∧ next.channel.broken = c.broken ∧ left = [] ∧
            next.channel.buffer = [] ∧ next.channel.jobs = others) ∨
          (next.progress = none ∧ next.channel.broken = c.broken ∧ left ≠ [] ∧
            ∃ job', next.channel.jobs = job' :: others ∧ job'.ticket = job.ticket ∧
              job'.deadline = some deadline ∧ next.channel.buffer ++ job'.work.rest = left)) := by
  cases h with
  | refuse _ hstart | begin _ hstart | hold _ hstart | shut _ hstart => simp [hbegun] at hstart
  | sever =>
    exact ⟨[], _, by simp, rfl,
      .inl ⟨.io brokenPipe, by simp [hline], nofun, by simp [hline], hmore⟩⟩
  | expire _ hwrite hleft =>
    obtain ⟨taken, htaken, hsame⟩ := write_accepted hwrite
    exact ⟨taken, _, by simpa using htaken, hsame,
      .inl ⟨.timeout c.limit, by simp [hline], nofun, by simp [hline], hleft⟩⟩
  | finish _ hwrite hnone =>
    obtain ⟨taken, htaken, hsame⟩ := write_accepted hwrite
    have hbroken := (write_frame hwrite).1
    refine ⟨taken, [], ?_, by rw [← hsame, hnone], .inr (.inl ⟨?_, ?_, rfl, ?_, ?_⟩)⟩
    · simpa [hline] using htaken
    · simp
    · simpa using hbroken
    · simpa using (List.append_eq_nil_iff.mp hnone).1
    · simp
  | proceed _ hwrite hleft =>
    obtain ⟨taken, htaken, hsame⟩ := write_accepted hwrite
    refine ⟨taken, _, htaken, hsame, .inr (.inr ⟨rfl, (write_frame hwrite).1, hleft, _, rfl, rfl,
      hbegun, ?_⟩)⟩
    cases hwork : job.work with
    | line => rfl
    | close => simp [hwork, Work.closes] at hline

namespace Traffic

variable {t : Traffic} {order : List Nat}

/-! ### Who sends, and in which order -/

/-- Whoever calls sends a response. -/
def Move.Sends : Move → Prop
  | .call work => ∃ r : Response, work = .line r.line
  | _ => True

/-- The call that a move lets take hold of the channel: its turn has come. -/
def grant? (t : Traffic) : Move → Option Nat
  | .poll k =>
    match t.calls[k]?, t.channel.jobs with
    | some ⟨_, .queued ticket⟩, job :: _ =>
      if job.ticket = ticket ∧ job.deadline = none then some k else none
    | _, _ => none
  | _ => none

/-- The calls that moves let take hold of the channel, in this order. -/
def grants (t : Traffic) : List Move → List Nat
  | [] => []
  | m :: moves => (t.grant? m).toList ++ (t.apply m).grants moves

/-- The lines of those calls that have sent theirs. -/
def sentIn (t : Traffic) (order : List Nat) : List Bytes :=
  order.filterMap fun k => t.calls[k]?.bind Call.sent?

theorem sentIn_append (t : Traffic) (order others : List Nat) :
    t.sentIn (order ++ others) = t.sentIn order ++ t.sentIn others :=
  List.filterMap_append

theorem sentIn_singleton {k : Nat} {call : Call} (hk : t.calls[k]? = some call) :
    t.sentIn [k] = call.sent?.toList := by
  rw [sentIn, List.filterMap_cons, hk, Option.bind_some]
  cases call.sent? <;> rfl

/-- Polling does an operation of the job of a call, which takes hold of the channel if it has not
    begun, or nothing. -/
theorem poll_grant (t : Traffic) (k : Nat) :
    t.poll k = t ∧ t.grant? (.poll k) = none ∨
      ∃ (work : Work) (job : Job) (others : List Job) (next : Channel.JobStep),
        t.calls[k]? = some ⟨work, .queued job.ticket⟩ ∧ t.channel.jobs = job :: others ∧
          Channel.Operation t.channel t.clock job others next ∧
          t.poll k = t.advance k work (.after job.ticket next.progress) next.channel ∧
          t.grant? (.poll k) = if job.deadline = none then some k else none := by
  cases hk : t.calls[k]? with
  | none => exact .inl (by simp [poll, grant?, hk])
  | some call =>
    obtain ⟨work, stage⟩ := call
    cases stage with
    | cleared | ended => exact .inl (by simp [poll, grant?, hk])
    | queued ticket =>
      rcases t.channel.operation_poll t.clock ticket with
        ⟨job, others, hjobs, rfl, hop⟩ | ⟨hturn, hpoll⟩
      · refine .inr ⟨work, job, others, _, rfl, hjobs, hop, ?_, ?_⟩
        · rw [poll, hk]
        · simp [grant?, hk, hjobs]
      · refine .inl ⟨?_, ?_⟩
        · rw [poll, hk]
          show t.advance k work (.after ticket (t.channel.poll t.clock ticket).progress)
            (t.channel.poll t.clock ticket).channel = t
          rw [hpoll]
          obtain ⟨hlt, hget⟩ := List.getElem?_eq_some_iff.mp hk
          show { t with calls := t.calls.set k ⟨work, .queued ticket⟩ } = t
          rw [← hget, List.set_getElem_self]
        · cases hjobs : t.channel.jobs with
          | nil => simp [grant?, hk, hjobs]
          | cons job others =>
            have hother := hturn job (by rw [hjobs]; rfl)
            simp [grant?, hk, hjobs, hother]

/-- A call that moves on without sending its line, or is not asked about, makes no difference. -/
theorem sentIn_advance {k : Nat} {old : Call} (hk : t.calls[k]? = some old) {work : Work}
    {stage : CallStage} (channel : Channel)
    (hsame : k ∈ order → Call.sent? ⟨work, stage⟩ = old.sent?) :
    (t.advance k work stage channel).sentIn order = t.sentIn order := by
  refine List.filterMap_congr fun k' hk' => ?_
  rw [getElem?_advance hk]
  split
  · rename_i heq
    subst heq
    rw [hk, Option.bind_some, Option.bind_some, hsame hk']
  · rfl

/-! ### The invariant -/

/-- What the channel has in hand, given the calls that have taken hold of it. -/
inductive InHand (t : Traffic) (order : List Nat) : Prop where
  /-- Nothing: every line that was begun is in the pipe. -/
  | nothing (hsound : t.channel.broken = false)
      (hunbegun : ∀ job ∈ t.channel.jobs, job.deadline = none) (hbuffer : t.channel.buffer = [])
      (haccepted : t.channel.pipe.accepted = (t.sentIn order).flatten)
  /-- A line, of which a part is in the pipe and the rest is still to be written. -/
  | line {k deadline : Nat} {earlier : List Nat} {bytes part : Bytes} {job : Job}
      {others : List Job} (hsound : t.channel.broken = false) (horder : order = earlier ++ [k])
      (hk : t.calls[k]? = some ⟨.line bytes, .queued job.ticket⟩)
      (hjobs : t.channel.jobs = job :: others) (hbegun : job.deadline = some deadline)
      (hbytes : part ++ (t.channel.buffer ++ job.work.rest) = bytes)
      (hleft : t.channel.buffer ++ job.work.rest ≠ [])
      (haccepted : t.channel.pipe.accepted = (t.sentIn order).flatten ++ part)
  /-- A line that has failed.  A part of it is in the pipe. -/
  | failure {k : Nat} {bytes part : Bytes} {e : WriteError} (hbroken : t.channel.broken = true)
      (hmem : k ∈ order) (hk : t.calls[k]? = some ⟨.line bytes, .ended (.error e)⟩)
      (he : e ≠ .broken) (hpart : part <+: bytes) (hne : part ≠ bytes)
      (haccepted : t.channel.pipe.accepted = (t.sentIn order).flatten ++ part)

/-- **Delivery.** Everybody sends responses, and the given calls have taken hold of the channel in
    this order, each once; all that was sent or failed is among them. -/
structure Delivers (t : Traffic) (order : List Nat) : Prop where
  coherent : t.Coherent
  sends : ∀ {k : Nat} {call : Call}, t.calls[k]? = some call →
    ∃ r : Response, call.work = .line r.line
  whole : ∀ job ∈ t.channel.jobs, job.deadline = none → ∀ {k : Nat} {call : Call},
    t.calls[k]? = some call → call.stage = .queued job.ticket → job.work = call.work
  nodup : order.Nodup
  granted : ∀ k ∈ order, ∃ call, t.calls[k]? = some call ∧ call.stage ≠ .cleared ∧
    ∀ job ∈ t.channel.jobs, call.stage = .queued job.ticket → job.deadline ≠ none
  sent : ∀ {k : Nat} {call : Call}, t.calls[k]? = some call → call.sent? ≠ none → k ∈ order
  once : ∀ {k k' : Nat} {call call' : Call}, t.calls[k]? = some call →
    t.calls[k']? = some call' → call.HasFailed → call'.HasFailed → k = k'
  inHand : t.InHand order

theorem delivers_start (capacity timeout : Nat) : Delivers (start capacity timeout) [] := by
  refine ⟨coherent_start capacity timeout, ?_, ?_, .nil, ?_, ?_, ?_, .nothing rfl nofun rfl rfl⟩ <;>
    simp [start, Channel.create]

/-! ### Moves that write nothing -/

/-- What the channel has in hand does not change while jobs queue up behind. -/
theorem InHand.mono {t' : Traffic} (h : t.InHand order)
    (hbroken : t'.channel.broken = t.channel.broken)
    (hbuffer : t'.channel.buffer = t.channel.buffer)
    (haccepted : t'.channel.pipe.accepted = t.channel.pipe.accepted)
    (hjobs : ∃ new, t'.channel.jobs = t.channel.jobs ++ new ∧ ∀ job ∈ new, job.deadline = none)
    (hsent : t'.sentIn order = t.sentIn order)
    (hcalls : ∀ {k : Nat} {call : Call}, t.calls[k]? = some call → call.stage ≠ .cleared →
      t'.calls[k]? = some call) : t'.InHand order := by
  obtain ⟨new, hnew, hnone⟩ := hjobs
  cases h with
  | nothing hsound hunbegun hempty hall =>
    refine .nothing (hbroken.trans hsound) ?_ (hbuffer.trans hempty)
      (by rw [haccepted, hall, hsent])
    intro job hjob
    rw [hnew, List.mem_append] at hjob
    exact hjob.elim (hunbegun job) (hnone job)
  | line hsound horder hk hfront hbegun hbytes hleft hall =>
    exact .line (hbroken.trans hsound) horder (hcalls hk nofun)
      (by rw [hnew, hfront, List.cons_append]) hbegun (by rwa [hbuffer]) (by rwa [hbuffer])
      (by rw [haccepted, hall, hsent])
  | failure hbad hmem hk he hpart hne hall =>
    exact .failure (hbroken.trans hbad) hmem (hcalls hk nofun) he hpart hne
      (by rw [haccepted, hall, hsent])

/-- A call that is made has no line sent yet. -/
theorem Delivers.call (h : t.Delivers order) (r : Response) :
    (t.apply (.call (.line r.line))).Delivers order := by
  have hsent : (t.apply (.call (.line r.line))).sentIn order = t.sentIn order := by
    refine List.filterMap_congr fun k hk => ?_
    obtain ⟨call, hcall, -, -⟩ := h.granted k hk
    rw [getElem?_call_of_some hcall, hcall]
  have hunsent : (Call.create t.channel (.line r.line)).sent? = none := by
    cases hb : t.channel.broken <;> simp [Call.create, Call.sent?, hb, Work.onBroken]
  refine ⟨h.coherent.call _, ?_, ?_, h.nodup, ?_, ?_, ?_, ?_⟩
  · intro k call hk
    rcases some_of_getElem?_call hk with hk | rfl
    · exact h.sends hk
    · exact ⟨r, rfl⟩
  · intro job hjob hnone k call hk hstage
    rcases some_of_getElem?_call hk with hk | rfl
    · exact h.whole job hjob hnone hk hstage
    · exact absurd hstage ((create_stage _ _).1 _)
  · intro k hk
    obtain ⟨call, hcall, hrest⟩ := h.granted k hk
    exact ⟨call, getElem?_call_of_some hcall _, hrest⟩
  · intro k call hk hcall
    rcases some_of_getElem?_call hk with hk | rfl
    · exact h.sent hk hcall
    · exact absurd hunsent hcall
  · intro k k' call call' hk hk' hfailed hfailed'
    rcases some_of_getElem?_call hk with hk | rfl
    · rcases some_of_getElem?_call hk' with hk' | rfl
      · exact h.once hk hk' hfailed hfailed'
      · exact absurd hfailed' (create_stage _ _).2
    · exact absurd hfailed (create_stage _ _).2
  · exact h.inHand.mono rfl rfl rfl ⟨[], (List.append_nil _).symm, by simp⟩ hsent
      fun hk _ => getElem?_call_of_some hk _

/-- A call that queues up brings its line along, whole. -/
theorem Delivers.enter (h : t.Delivers order) (k : Nat) :
    (t.apply (.enter k)).Delivers order := by
  have hcoherent := h.coherent.enter k
  show (t.enter k).Delivers order
  have hcoherent : (t.enter k).Coherent := hcoherent
  rcases t.enter_cases k with heq | ⟨work, hk, heq⟩
  · rwa [heq]
  rw [heq] at hcoherent ⊢
  have hcalls := getElem?_advance hk work (.queued t.channel.nextTicket) (t.channel.start work).1
  have hother {k' : Nat} {call : Call} (hk' : t.calls[k']? = some call)
      (hstage : call.stage ≠ .cleared) : k ≠ k' := by
    rintro rfl
    rw [hk] at hk'
    cases hk'
    exact hstage rfl
  refine ⟨hcoherent, ?_, ?_, h.nodup, ?_, ?_, ?_, ?_⟩
  · intro k' call hk'
    rw [hcalls] at hk'
    split at hk'
    · cases hk'
      obtain ⟨r, hr⟩ := h.sends hk
      exact ⟨r, hr⟩
    · exact h.sends hk'
  · intro job hjob hnone k' call hk' hstage
    rw [hcalls] at hk'
    rcases List.mem_append.mp hjob with hjob | hjob
    · have hlt := h.coherent.orderly.ticket_lt job hjob
      split at hk'
      · cases hk'
        have hticket := CallStage.queued.inj hstage
        omega
      · exact h.whole job hjob hnone hk' hstage
    · rw [List.mem_singleton.mp hjob] at hstage ⊢
      split at hk'
      · cases hk'
        rfl
      · exact absurd hstage (h.coherent.fresh hk')
  · intro k' hk'
    obtain ⟨call, hcall, hstage, hbegun⟩ := h.granted k' hk'
    refine ⟨call, by rw [hcalls, if_neg (hother hcall hstage), hcall], hstage, ?_⟩
    intro job hjob hticket
    rcases List.mem_append.mp hjob with hjob | hjob
    · exact hbegun job hjob hticket
    · rw [List.mem_singleton.mp hjob] at hticket
      exact absurd hticket (h.coherent.fresh hcall)
  · intro k' call hk' hsent
    rw [hcalls] at hk'
    split at hk'
    · cases hk'
      exact absurd (by cases work <;> rfl) hsent
    · exact h.sent hk' hsent
  · intro i j call call' hi hj hfailed hfailed'
    rw [hcalls] at hi hj
    split at hi
    · cases hi
      exact absurd hfailed (not_hasFailed_of_queued _ _)
    · split at hj
      · cases hj
        exact absurd hfailed' (not_hasFailed_of_queued _ _)
      · exact h.once hi hj hfailed hfailed'
  · refine h.inHand.mono rfl rfl rfl ⟨_, Channel.start_jobs .., ?_⟩ ?_ ?_
    · intro job hjob
      rw [List.mem_singleton.mp hjob]
    · exact sentIn_advance hk _ fun _ => by cases work <;> rfl
    · intro k' call hk' hstage
      rw [hcalls, if_neg (hother hk' hstage), hk']

/-! ### Operations -/

/-- Only lines are sent, so every job is one. -/
theorem Delivers.line_of_job (h : t.Delivers order) {job : Job} (hjob : job ∈ t.channel.jobs) :
    job.work.closes = false := by
  obtain ⟨k, call, hk, -, hkind⟩ := h.coherent.owner job hjob
  obtain ⟨r, hr⟩ := h.sends hk
  rw [← hkind, hr]
  rfl

section Operation

variable {k deadline : Nat} {work : Work} {job : Job} {others : List Job}
  {next : Channel.JobStep}

/-- If the job in front has begun, its line is the one in hand, and its call the last to take hold
    of the channel. -/
theorem Delivers.of_begun (h : t.Delivers order)
    (hk : t.calls[k]? = some ⟨work, .queued job.ticket⟩) (hjobs : t.channel.jobs = job :: others)
    (hbegun : job.deadline = some deadline) : ∃ (earlier : List Nat) (bytes part : Bytes),
      order = earlier ++ [k] ∧ k ∉ earlier ∧ work = .line bytes ∧
        part ++ (t.channel.buffer ++ job.work.rest) = bytes ∧
        t.channel.buffer ++ job.work.rest ≠ [] ∧
        t.channel.pipe.accepted = (t.sentIn earlier).flatten ++ part := by
  have hjob : job ∈ t.channel.jobs := by rw [hjobs]; exact List.mem_cons_self
  cases h.inHand with
  | nothing _ hunbegun => simp [hunbegun job hjob] at hbegun
  | failure hbroken =>
    simp [h.coherent.orderly.halted hbroken job hjob (h.line_of_job hjob)] at hbegun
  | @line k' _ earlier bytes part job' _ _ horder hk' hjobs' _ hbytes hleft haccepted =>
    rw [hjobs] at hjobs'
    cases hjobs'
    obtain rfl := h.coherent.unique hk hk' rfl rfl
    rw [hk] at hk'
    cases hk'
    have hfresh : k ∉ earlier := by
      have hnodup := h.nodup
      rw [horder, List.nodup_append] at hnodup
      exact fun hmem => hnodup.2.2 k hmem k (List.mem_singleton.mpr rfl) rfl
    have hsent : t.sentIn order = t.sentIn earlier := by
      rw [horder, sentIn_append, sentIn_singleton hk]
      exact List.append_nil _
    exact ⟨earlier, bytes, part, horder, hfresh, rfl, hbytes, hleft, by rw [haccepted, hsent]⟩

/-- If the channel is sound and the job in front has not begun, nothing is in hand. -/
theorem Delivers.of_unbegun (h : t.Delivers order) (hsound : t.channel.broken = false)
    (hjobs : t.channel.jobs = job :: others) (hunbegun : job.deadline = none) :
    t.channel.buffer = [] ∧ t.channel.pipe.accepted = (t.sentIn order).flatten := by
  cases h.inHand with
  | nothing _ _ hbuffer haccepted => exact ⟨hbuffer, haccepted⟩
  | failure hbroken => simp [hsound] at hbroken
  | line _ _ _ hjobs' hbegun =>
    rw [hjobs] at hjobs'
    cases hjobs'
    simp [hunbegun] at hbegun

/-- After an operation, the jobs that have not begun are behind. -/
theorem mem_others_of_unbegun (hop : Channel.Operation t.channel t.clock job others next)
    {other : Job} (hother : other ∈ next.channel.jobs) (hunbegun : other.deadline = none) :
    other ∈ others := by
  cases hop with
  | refuse | shut => exact hother
  | sever | expire => simpa using hother
  | finish => simpa using hother
  | begin | hold =>
    rcases List.mem_cons.mp hother with rfl | hother
    · cases hunbegun
    · exact hother
  | proceed hstart =>
    rcases List.mem_cons.mp hother with rfl | hother
    · rw [hstart] at hunbegun
      cases hunbegun
    · exact hother

/-- A line that fails, and not because one before it has failed, finds the channel sound. -/
theorem sound_of_failed (hop : Channel.Operation t.channel t.clock job others next)
    (hhalted : t.channel.broken = true → job.deadline = none) {e : WriteError}
    (hfailed : next.progress = some (.error e)) (he : e ≠ .broken) :
    t.channel.broken = false := by
  by_contra hbroken
  have hunbegun := hhalted (by simpa using hbroken)
  cases hop with
  | refuse =>
    cases hfailed
    exact he rfl
  | begin | hold | shut => cases hfailed
  | sever hstart | expire hstart | finish hstart | proceed hstart => simp [hunbegun] at hstart

/-- A call fails first only on a sound channel, where none has failed before. -/
theorem Delivers.none_failed_before (h : t.Delivers order) (hjobs : t.channel.jobs = job :: others)
    (hop : Channel.Operation t.channel t.clock job others next) {k' : Nat} {call : Call}
    (hk' : t.calls[k']? = some call)
    (hnow : Call.HasFailed ⟨work, .after job.ticket next.progress⟩) : ¬ call.HasFailed := by
  have hjob : job ∈ t.channel.jobs := by rw [hjobs]; exact List.mem_cons_self
  obtain ⟨e, hstage, he⟩ := hnow
  have hfailed : next.progress = some (.error e) := by
    cases hprogress : next.progress <;> simp_all [CallStage.after]
  have hsound := sound_of_failed hop
    (fun hbroken => h.coherent.orderly.halted hbroken job hjob (h.line_of_job hjob)) hfailed he
  intro hbefore
  have hbroken := h.coherent.broken_iff.mpr ((hasFailed_iff t).mpr ⟨k', call, hk', hbefore⟩)
  simp [hsound] at hbroken

/-- A call whose line has not begun has not had hold of the channel. -/
theorem Delivers.not_mem_of_unbegun (h : t.Delivers order)
    (hk : t.calls[k]? = some ⟨work, .queued job.ticket⟩) (hjobs : t.channel.jobs = job :: others)
    (hunbegun : job.deadline = none) : k ∉ order := by
  intro hmem
  obtain ⟨call, hcall, -, hbegun⟩ := h.granted k hmem
  rw [hk] at hcall
  cases hcall
  exact hbegun job (by rw [hjobs]; exact List.mem_cons_self) rfl hunbegun

/-- **One operation.** The call whose turn it is moves on.  It has hold of the channel from then
    on, if it did not have it before. -/
theorem Delivers.operation (h : t.Delivers order)
    (hk : t.calls[k]? = some ⟨work, .queued job.ticket⟩) (hjobs : t.channel.jobs = job :: others)
    (hop : Channel.Operation t.channel t.clock job others next)
    (hcoherent : (t.advance k work (.after job.ticket next.progress) next.channel).Coherent)
    {granted : List Nat} (hgranted : granted = if job.deadline = none then [k] else [])
    (hmem : k ∈ order ++ granted)
    (hinHand : (t.advance k work (.after job.ticket next.progress) next.channel).InHand
      (order ++ granted)) :
    (t.advance k work (.after job.ticket next.progress) next.channel).Delivers
      (order ++ granted) := by
  have hbehind {other : Job} (hother : other ∈ next.channel.jobs)
      (hunbegun : other.deadline = none) :
      other ∈ t.channel.jobs ∧ other.ticket ≠ job.ticket := by
    have hother := mem_others_of_unbegun hop hother hunbegun
    exact ⟨by rw [hjobs]; exact List.mem_cons_of_mem _ hother,
      h.coherent.orderly.ticket_ne hjobs other hother⟩
  have hcalls := getElem?_advance hk work (.after job.ticket next.progress) next.channel
  refine ⟨hcoherent, ?_, ?_, ?_, ?_, ?_, ?_, hinHand⟩
  · intro k' call hk'
    rw [hcalls] at hk'
    split at hk'
    · cases hk'
      obtain ⟨r, hr⟩ := h.sends hk
      exact ⟨r, hr⟩
    · exact h.sends hk'
  · intro other hother hunbegun k' call hk' hstage
    obtain ⟨hold, hne⟩ := hbehind hother hunbegun
    rw [hcalls] at hk'
    split at hk'
    · cases hk'
      exact absurd (ticket_eq_of_after hstage) hne
    · exact h.whole other hold hunbegun hk' hstage
  · rw [hgranted]
    split
    · rename_i hunbegun
      refine List.nodup_append.mpr ⟨h.nodup, by simp, ?_⟩
      intro k' hk' k'' hk'' hsame
      rw [hsame, List.mem_singleton.mp hk''] at hk'
      exact h.not_mem_of_unbegun hk hjobs hunbegun hk'
    · rw [List.append_nil]
      exact h.nodup
  · intro k' hk'
    rw [hcalls]
    split
    · refine ⟨_, rfl, ?_, ?_⟩
      · cases next.progress <;> simp [CallStage.after]
      · intro other hother hstage hunbegun
        exact (hbehind hother hunbegun).2 (ticket_eq_of_after hstage)
    · rename_i hne
      have hold : k' ∈ order := by
        refine (List.mem_append.mp hk').resolve_right ?_
        rw [hgranted]
        split <;> simp [Ne.symm hne]
      obtain ⟨call, hcall, hstage, hbegun⟩ := h.granted k' hold
      refine ⟨call, hcall, hstage, ?_⟩
      intro other hother hticket hunbegun
      exact hbegun other (hbehind hother hunbegun).1 hticket hunbegun
  · intro k' call hk' hsent
    rw [hcalls] at hk'
    split at hk'
    · rename_i hsame
      rwa [← hsame]
    · exact List.mem_append_left _ (h.sent hk' hsent)
  · intro i j call call' hi hj hfailed hfailed'
    rw [hcalls] at hi hj
    split at hi <;> split at hj
    · omega
    · cases hi
      exact absurd hfailed' (h.none_failed_before hjobs hop hj hfailed)
    · cases hj
      exact absurd hfailed (h.none_failed_before hjobs hop hi hfailed')
    · exact h.once hi hj hfailed hfailed'

/-- A line whose turn has come is refused on a broken channel.  Else it is in hand from then on. -/
theorem Delivers.inHand_of_unbegun (h : t.Delivers order)
    (hk : t.calls[k]? = some ⟨work, .queued job.ticket⟩) (hjobs : t.channel.jobs = job :: others)
    (hop : Channel.Operation t.channel t.clock job others next) (hunbegun : job.deadline = none) :
    (t.advance k work (.after job.ticket next.progress) next.channel).InHand (order ++ [k]) := by
  have hjob : job ∈ t.channel.jobs := by rw [hjobs]; exact List.mem_cons_self
  have hcalls := getElem?_advance hk work (.after job.ticket next.progress) next.channel
  have hline := h.line_of_job hjob
  -- This call was not sent before, and is not now.
  have hunsent : (t.advance k work (.after job.ticket next.progress) next.channel).sentIn
      (order ++ [k]) = t.sentIn order := by
    have hnow : Call.sent? ⟨work, .after job.ticket next.progress⟩ = none := by
      cases hop with
      | refuse | begin => cases work <;> rfl
      | hold hwork | shut hwork => simp [hwork, Work.closes] at hline
      | sever hstart | expire hstart | finish hstart | proceed hstart => simp [hunbegun] at hstart
    rw [sentIn_append, sentIn_advance hk next.channel fun _ => ?_,
      sentIn_singleton (by rw [hcalls, if_pos rfl]), hnow]
    · exact List.append_nil _
    · rw [hnow]
      cases work <;> rfl
  cases hop with
  | hold hwork | shut hwork => simp [hwork, Work.closes] at hline
  | sever hstart | expire hstart | finish hstart | proceed hstart => simp [hunbegun] at hstart
  | refuse _ _ hbroken =>
    cases h.inHand with
    | nothing hsound | line hsound => simp [hbroken] at hsound
    | @failure k' bytes part e _ hmem hk' he hpart hne haccepted =>
      have hother : k ≠ k' := by
        rintro rfl
        rw [hk] at hk'
        cases hk'
      refine .failure hbroken (List.mem_append_left _ hmem) ?_ he hpart hne ?_
      · rw [hcalls, if_neg hother, hk']
      · rw [hunsent]
        exact haccepted
  | @begin bytes rest c' _ hwork _ hsound hload =>
    obtain ⟨hempty, haccepted⟩ := h.of_unbegun hsound hjobs hunbegun
    obtain ⟨hsame, hbytes, -⟩ := Channel.load_eq hload
    rw [hempty, List.nil_append] at hbytes
    obtain ⟨r, hr⟩ := h.sends hk
    have hwhole : bytes = r.line := by
      have hall := h.whole job hjob hunbegun hk rfl
      rw [hwork] at hall
      exact Work.line.inj (hall.trans hr)
    have hbroken : c'.broken = false := by
      rw [hsame]
      exact hsound
    have hpipe : c'.pipe.accepted = t.channel.pipe.accepted := by rw [hsame]
    subst hr
    have hparts : [] ++ (c'.buffer ++ rest) = r.line := by rw [List.nil_append, hbytes, hwhole]
    refine .line hbroken rfl ?_ rfl rfl hparts ?_ ?_
    · rw [hcalls, if_pos rfl]
      rfl
    · show c'.buffer ++ rest ≠ []
      rw [hbytes, hwhole]
      exact r.line_ne_nil
    · rw [hunsent, List.append_nil]
      exact hpipe.trans haccepted

/-- The line in hand goes on into the pipe, is sent, or fails. -/
theorem Delivers.inHand_of_begun (h : t.Delivers order)
    (hk : t.calls[k]? = some ⟨work, .queued job.ticket⟩) (hjobs : t.channel.jobs = job :: others)
    (hop : Channel.Operation t.channel t.clock job others next)
    (hbegun : job.deadline = some deadline) :
    (t.advance k work (.after job.ticket next.progress) next.channel).InHand order := by
  have hjob : job ∈ t.channel.jobs := by rw [hjobs]; exact List.mem_cons_self
  have hcalls := getElem?_advance hk work (.after job.ticket next.progress) next.channel
  have hline := h.line_of_job hjob
  obtain ⟨earlier, bytes, part, rfl, hfresh, rfl, hbytes, hleft, haccepted⟩ :=
    h.of_begun hk hjobs hbegun
  have hsound : t.channel.broken = false := by
    by_contra hbroken
    have hunbegun := h.coherent.orderly.halted (by simpa using hbroken) job hjob hline
    simp [hbegun] at hunbegun
  -- All but this call are where they were, so what was sent before is known.
  have hsent : (t.advance k (.line bytes) (.after job.ticket next.progress) next.channel).sentIn
      (earlier ++ [k]) = t.sentIn earlier
        ++ (Call.sent? ⟨.line bytes, .after job.ticket next.progress⟩).toList := by
    rw [sentIn_append, sentIn_advance hk next.channel fun hmem => absurd hmem hfresh,
      sentIn_singleton (by rw [hcalls, if_pos rfl])]
  obtain ⟨taken, left, htaken, hsame, hnext⟩ := hop.line_of_begun hline hbegun hleft
  have hwhole : (part ++ taken) ++ left = bytes := by rw [List.append_assoc, hsame, hbytes]
  rcases hnext with ⟨e, hresult, he, hbroken, hmore⟩ |
    ⟨hresult, hbroken, rfl, hbuffer, hnext⟩ |
    ⟨hresult, hbroken, hmore, job', hnext, hticket, hbegun', rfl⟩ <;> rw [hresult] at hcalls hsent ⊢
  · refine .failure hbroken (List.mem_append_right _ (List.mem_singleton.mpr rfl)) ?_ he
      ⟨left, hwhole⟩ ?_ ?_
    · rw [hcalls, if_pos rfl]
      rfl
    · rintro rfl
      exact hmore (List.append_right_eq_self.mp hwhole)
    · rw [hsent]
      show next.channel.pipe.accepted = (_ ++ []).flatten ++ _
      rw [htaken, haccepted, List.append_nil, List.append_assoc]
  · refine .nothing (hbroken.trans hsound) ?_ hbuffer ?_
    · intro other hother
      have hother : other ∈ next.channel.jobs := hother
      rw [hnext] at hother
      exact (h.coherent.orderly.behind hjobs).2.2 other hother
    · rw [hsent]
      show next.channel.pipe.accepted = (_ ++ [bytes]).flatten
      rw [List.append_nil] at hwhole
      rw [htaken, haccepted, List.append_assoc, hwhole, List.flatten_append,
        List.flatten_singleton]
  · refine .line (hbroken.trans hsound) rfl ?_ hnext hbegun' hwhole hmore ?_
    · rw [hcalls, if_pos rfl, hticket]
      rfl
    · rw [hsent]
      show next.channel.pipe.accepted = (_ ++ []).flatten ++ _
      rw [htaken, haccepted, List.append_nil, List.append_assoc]

end Operation

/-! ### Runs -/

/-- **One move.** Whatever happens, the lines are delivered one after the other. -/
theorem Delivers.apply (h : t.Delivers order) {m : Move} (hm : m.Sends) :
    (t.apply m).Delivers (order ++ (t.grant? m).toList) := by
  have hcoherent := h.coherent.apply m
  cases m with
  | call work =>
    obtain ⟨r, rfl⟩ := hm
    simpa [grant?] using h.call r
  | enter k => simpa [grant?] using h.enter k
  | read limit =>
    show Delivers _ (order ++ [])
    rw [List.append_nil]
    refine ⟨hcoherent, h.sends, h.whole, h.nodup, h.granted, h.sent, h.once, ?_⟩
    refine h.inHand.mono rfl rfl ?_ ⟨[], (List.append_nil _).symm, by simp⟩ rfl fun hk _ => hk
    show (t.channel.pipe.read limit).1.accepted = _
    unfold Pipe.read
    split <;> rfl
  | deafen | wait =>
    show Delivers _ (order ++ [])
    rw [List.append_nil]
    exact ⟨hcoherent, h.sends, h.whole, h.nodup, h.granted, h.sent, h.once,
      h.inHand.mono rfl rfl rfl ⟨[], (List.append_nil _).symm, by simp⟩ rfl fun hk _ => hk⟩
  | poll k =>
    show (t.poll k).Delivers _
    have hcoherent : (t.poll k).Coherent := hcoherent
    rcases t.poll_grant k with ⟨hsame, hgrant⟩ |
      ⟨work, job, others, next, hk, hjobs, hop, hpoll, hgrant⟩
    · rw [hsame, hgrant, Option.toList_none, List.append_nil]
      exact h
    rw [hpoll] at hcoherent ⊢
    rw [hgrant]
    cases hstart : job.deadline with
    | none =>
      exact h.operation hk hjobs hop hcoherent (by rw [hstart]; rfl)
        (List.mem_append_right _ (List.mem_singleton.mpr rfl))
        (h.inHand_of_unbegun hk hjobs hop hstart)
    | some deadline =>
      obtain ⟨earlier, -, -, horder, -⟩ := h.of_begun hk hjobs hstart
      refine h.operation hk hjobs hop hcoherent (by rw [hstart]; rfl) ?_ ?_
      · rw [horder]
        simp
      · exact (List.append_nil order).symm ▸ h.inHand_of_begun hk hjobs hop hstart

theorem Delivers.applyAll (h : t.Delivers order) {moves : List Move}
    (hmoves : ∀ m ∈ moves, m.Sends) : (t.applyAll moves).Delivers (order ++ t.grants moves) := by
  induction moves generalizing t order with
  | nil =>
    rw [grants, List.append_nil]
    exact h
  | cons m moves ih =>
    have hfirst := h.apply (hmoves m List.mem_cons_self)
    have hall := ih hfirst fun m hm => hmoves m (List.mem_cons_of_mem _ hm)
    rwa [List.append_assoc] at hall

/-- What a call has returned does not change any more. -/
theorem getElem?_apply_of_ended {k : Nat} {call : Call} (hk : t.calls[k]? = some call)
    (hended : call.isOpen = false) (m : Move) : (t.apply m).calls[k]? = some call := by
  have hne {k' : Nat} {work : Work} {stage : CallStage}
      (hk' : t.calls[k']? = some ⟨work, stage⟩) (hopen : Call.isOpen ⟨work, stage⟩ = true) :
      k' ≠ k := by
    rintro rfl
    rw [hk] at hk'
    cases hk'
    simp [hended] at hopen
  cases m with
  | call work => exact getElem?_call_of_some hk work
  | enter k' =>
    show (t.enter k').calls[k]? = _
    rcases t.enter_cases k' with heq | ⟨work, hk', heq⟩ <;> rw [heq]
    · exact hk
    · rw [getElem?_advance hk', if_neg (hne hk' rfl), hk]
  | poll k' =>
    show (t.poll k').calls[k]? = _
    rcases t.poll_cases k' with heq | ⟨work, job, others, next, hk', -, -, heq⟩ <;> rw [heq]
    · exact hk
    · rw [getElem?_advance hk', if_neg (hne hk' rfl), hk]
  | read | deafen | wait => exact hk

theorem getElem?_applyAll_of_ended {k : Nat} {call : Call} (hk : t.calls[k]? = some call)
    (hended : call.isOpen = false) (moves : List Move) :
    (t.applyAll moves).calls[k]? = some call := by
  induction moves generalizing t with
  | nil => exact hk
  | cons m moves ih => exact ih (getElem?_apply_of_ended hk hended m)

/-- On a broken channel a call can return only that the channel is broken. -/
theorem Delivers.ended_apply (h : t.Delivers order) (hbroken : t.channel.broken = true) {m : Move}
    (hm : m.Sends) {k : Nat} {call : Call} (hk : (t.apply m).calls[k]? = some call)
    (hended : call.isOpen = false) :
    t.calls[k]? = some call ∨ call.stage = .ended (.error .broken) := by
  cases m with
  | call work =>
    obtain ⟨r, rfl⟩ := hm
    refine (some_of_getElem?_call hk).imp_right ?_
    rintro rfl
    rw [Call.create, hbroken]
    rfl
  | enter k' =>
    have hk : (t.enter k').calls[k]? = some call := hk
    rcases t.enter_cases k' with heq | ⟨work, hk', heq⟩ <;> rw [heq] at hk
    · exact .inl hk
    · rw [getElem?_advance hk'] at hk
      split at hk
      · cases hk
        cases hended
      · exact .inl hk
  | poll k' =>
    have hk : (t.poll k').calls[k]? = some call := hk
    rcases t.poll_cases k' with heq | ⟨work, job, others, next, hk', hjobs, hop, heq⟩ <;>
      rw [heq] at hk
    · exact .inl hk
    rw [getElem?_advance hk'] at hk
    split at hk
    · cases hk
      have hmem : job ∈ t.channel.jobs := by rw [hjobs]; exact List.mem_cons_self
      have hline := h.line_of_job hmem
      have hunbegun := h.coherent.front_halted hbroken hjobs hline
      cases hop with
      | refuse => exact .inr rfl
      | begin _ _ hsound => simp [hbroken] at hsound
      | hold hwork | shut hwork => simp [hwork, Work.closes] at hline
      | sever hstart | expire hstart | finish hstart | proceed hstart => simp [hunbegun] at hstart
    · exact .inl hk
  | read | deafen | wait => exact .inl hk

/-- Nobody shuts the channel down, so it cannot leak. -/
theorem Delivers.not_canLeak (h : t.Delivers order) : ¬ t.CanLeak := by
  rintro ⟨-, ⟨call, hcall, hwork, -⟩, -⟩
  obtain ⟨k, hk⟩ := List.mem_iff_getElem?.mp hcall
  obtain ⟨r, hr⟩ := h.sends hk
  rw [hwork] at hr
  cases hr

/-- Whoever returns on a broken channel is told that it is broken. -/
theorem Delivers.ended_applyAll (h : t.Delivers order) (hbroken : t.channel.broken = true)
    {moves : List Move} (hmoves : ∀ m ∈ moves, m.Sends) {k : Nat} {call : Call}
    (hk : (t.applyAll moves).calls[k]? = some call) (hended : call.isOpen = false) :
    t.calls[k]? = some call ∨ call.stage = .ended (.error .broken) := by
  induction moves generalizing t order with
  | nil => exact .inl hk
  | cons m moves ih =>
    have hfirst := hmoves m List.mem_cons_self
    have hrest : ∀ m ∈ moves, m.Sends := fun m hm => hmoves m (List.mem_cons_of_mem _ hm)
    rcases ih (h.apply hfirst) (broken_apply hbroken m) hrest hk with hk | hstage
    · exact h.ended_apply hbroken hfirst hk hended
    · exact .inr hstage

/-- **Lines in order.** What a channel looks like on which everybody sends responses, given the
    calls that have taken hold of it, in this order. -/
structure InOrder (t : Traffic) (order : List Nat) : Prop where
  /-- A call takes hold of the channel once at most, and whoever has sent a line has done so. -/
  holders : order.Nodup ∧ ∀ {k : Nat} {call : Call}, t.calls[k]? = some call →
    call.sent? ≠ none → k ∈ order
  /-- Until the channel breaks, the pipe has the lines that were sent, one after the other, and
      then the first part of the line of the call that has hold of the channel, if one has. -/
  whole : t.channel.broken = false → ∃ part,
    t.channel.pipe.accepted = (t.sentIn order).flatten ++ part ∧
      (part = [] ∨ ∃ (earlier : List Nat) (k ticket : Nat) (bytes : Bytes),
        order = earlier ++ [k] ∧ t.calls[k]? = some ⟨.line bytes, .queued ticket⟩ ∧
          part <+: bytes)
  /-- It breaks when a line fails, of which only a part is then in the pipe, behind all others. -/
  broken_iff : t.channel.broken = true ↔ t.HasFailed
  failed : ∀ {k : Nat} {bytes : Bytes} {e : WriteError},
    t.calls[k]? = some ⟨.line bytes, .ended (.error e)⟩ → e ≠ .broken → k ∈ order ∧
      ∃ part, part <+: bytes ∧ part ≠ bytes ∧
        t.channel.pipe.accepted = (t.sentIn order).flatten ++ part
  /-- No other line does, and what a call has returned is final. -/
  once : ∀ {k k' : Nat} {call call' : Call}, t.calls[k]? = some call →
    t.calls[k']? = some call' → call.HasFailed → call'.HasFailed → k = k'
  final : ∀ {k : Nat} {call : Call}, t.calls[k]? = some call → call.isOpen = false →
    ∀ moves, (t.applyAll moves).calls[k]? = some call
  /-- From then on the channel is broken, nothing more is written, and whoever returns is told that
      the channel is broken. -/
  later : t.channel.broken = true → ∀ moves : List Move, (∀ m ∈ moves, m.Sends) →
    (t.applyAll moves).channel.broken = true ∧
      (t.applyAll moves).channel.pipe.accepted = t.channel.pipe.accepted ∧
      ∀ {k : Nat} {call : Call}, (t.applyAll moves).calls[k]? = some call →
        call.isOpen = false → t.calls[k]? = some call ∨ call.stage = .ended (.error .broken)
  /-- Whoever calls then is told so at once. -/
  atOnce : t.channel.broken = true → ∀ bytes,
    t.apply (.call (.line bytes))
      = { t with calls := t.calls ++ [⟨.line bytes, .ended (.error .broken)⟩] }

theorem Delivers.inOrder (h : t.Delivers order) : t.InOrder order where
  holders := ⟨h.nodup, h.sent⟩
  broken_iff := h.coherent.broken_iff
  once := h.once
  final hk hended moves := getElem?_applyAll_of_ended hk hended moves
  whole hsound := by
    cases h.inHand with
    | nothing _ _ _ haccepted => exact ⟨[], by rw [haccepted, List.append_nil], .inl rfl⟩
    | line _ horder hk _ _ hbytes _ haccepted =>
      exact ⟨_, haccepted, .inr ⟨_, _, _, _, horder, hk, _, hbytes⟩⟩
    | failure hbroken => simp [hsound] at hbroken
  failed {k bytes e} hk he := by
    have hfailed : Call.HasFailed ⟨.line bytes, .ended (.error e)⟩ := ⟨e, rfl, he⟩
    have hbroken := h.coherent.broken_iff.mpr ((hasFailed_iff t).mpr ⟨k, _, hk, hfailed⟩)
    cases h.inHand with
    | nothing hsound | line hsound => simp [hbroken] at hsound
    | failure _ hmem hk' he' hpart hne haccepted =>
      obtain rfl := h.once hk hk' hfailed ⟨_, rfl, he'⟩
      rw [hk] at hk'
      cases hk'
      exact ⟨hmem, _, hpart, hne, haccepted⟩
  later hbroken moves hmoves :=
    ⟨(h.coherent.applyAll_of_broken hbroken moves).2.1,
      h.coherent.silent hbroken h.not_canLeak moves,
      fun hk hended => h.ended_applyAll hbroken hmoves hk hended⟩
  atOnce hbroken bytes := by rw [Traffic.apply, Call.create, hbroken]; rfl

/-- **Lines are delivered whole, one after the other.** Whatever the pipe holds and however long a
    line may take: when any number of callers send responses, while the client reads or goes away
    and time passes, the lines are in order, by the calls as they took hold of the channel. -/
theorem sends_in_order (capacity timeout : Nat) (moves : List Move)
    (hmoves : ∀ m ∈ moves, m.Sends) : ((start capacity timeout).applyAll moves).InOrder
      ((start capacity timeout).grants moves) :=
  ((delivers_start capacity timeout).applyAll hmoves).inOrder

/-- Four callers on a pipe for twenty bytes send lines of sixteen each.  The client does not read,
    so the second line takes too long. -/
def crampedRun : List Move :=
  [.call (.line Response.busy.line), .enter 0, .call (.line Response.busy.line), .enter 1,
    .call (.line Response.busy.line), .enter 2, .poll 0, .poll 0, .poll 1, .poll 1, .wait 5,
    .poll 1, .poll 2, .call (.line Response.busy.line)]

theorem inOrder_crampedRun : (∀ m ∈ crampedRun, m.Sends) ∧
    ((start 20 5).applyAll crampedRun).InOrder [0, 1, 2] ∧
    ((start 20 5).applyAll crampedRun).channel.pipe.accepted
      = Response.busy.line ++ Response.busy.line.take 4 ∧
    ((start 20 5).applyAll crampedRun).calls.map Call.stage
      = [.ended (.ok ()), .ended (.error (.timeout (.ofMillis 5))), .ended (.error .broken),
        .ended (.error .broken)] := by
  have hsends : ∀ m ∈ crampedRun, m.Sends := by
    intro m hm
    cases m with
    | call work => exact ⟨.busy, by simpa [crampedRun] using hm⟩
    | enter | poll | read | deafen | wait => trivial
  have hgrants : (start 20 5).grants crampedRun = [0, 1, 2] := by decide +kernel
  refine ⟨hsends, ?_, by decide +kernel, by decide +kernel⟩
  rw [← hgrants]
  exact sends_in_order 20 5 crampedRun hsends

end Traffic

end Reckoner
