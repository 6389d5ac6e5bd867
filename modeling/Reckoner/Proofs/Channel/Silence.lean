import Reckoner.Proofs.Channel.Coherence

/-!
# What a broken channel still writes

When a line fails, a part of it may be left in the buffer.  Nobody adds to it any more, but a call
to shut down that had seen the channel sound flushes it.

* `Channel.Operation.committed` — on a broken channel bytes only move from the buffer to the pipe.
* `Channel.Operation.accepted_of_line` — those who send write nothing any more.
* `Traffic.CanLeak` — the buffer holds bytes, and a call to shut down can still flush them.
* `Traffic.silent_iff` — a channel that has failed stays silent just when it cannot leak.
-/

namespace Reckoner

/-- Nothing can be put into the pipe, now or later. -/
def Pipe.IsStuck (p : Pipe) : Prop := p.isSevered = true ∨ p.capacity = 0

/-! ### Operations on a broken channel -/

namespace Channel

/-- All bytes that the pipe has taken so far, and those that would come next. -/
def committed (c : Channel) : Bytes := c.pipe.accepted ++ c.buffer

section Operation

variable {c : Channel} {clock : Nat} {job : Job} {others : List Job} {next : JobStep}

/-- Of the bytes that a write brings along the first come after all those before. -/
theorem committed_of_write {c' : Channel} {bytes rest : Bytes}
    (h : c.write bytes = some (c', rest)) :
    ∃ taken, taken ++ rest = bytes ∧ c'.committed = c.committed ++ taken := by
  obtain ⟨-, hsame, hbytes, taken, htaken⟩ := write_eq_some h
  refine ⟨taken, htaken, ?_⟩
  have haccepted : c'.pipe.accepted
      = c.pipe.accepted ++ (c.offered bytes).take c.pipe.room := by
    rw [hsame]
    rfl
  rw [← htaken, ← List.append_assoc, ← List.append_assoc, List.append_cancel_right_eq,
    htaken] at hbytes
  rw [committed, committed, haccepted, List.append_assoc, List.append_assoc, hbytes]

/-- A write that brings no bytes along only moves bytes from the buffer to the pipe. -/
theorem write_committed {c' : Channel} {rest : Bytes} (h : c.write [] = some (c', rest)) :
    c'.committed = c.committed := by
  obtain ⟨taken, htaken, hsame⟩ := committed_of_write h
  rw [hsame, (List.append_eq_nil_iff.mp htaken).1, List.append_nil]

/-- A job that has begun on a broken channel is to close it, and has no bytes of its own. -/
theorem rest_of_begun {deadline : Nat} (hhalted : job.work.closes = false → job.deadline = none)
    (hstart : job.deadline = some deadline) : job.work.closes = true ∧ job.work.rest = [] := by
  have hcloses : job.work.closes = true := by
    by_contra hline
    simp [hhalted (by simpa using hline)] at hstart
  exact ⟨hcloses, Work.rest_of_closes hcloses⟩

/-- **A broken channel takes no more bytes.** Those in the buffer may go to the pipe, but none
    are added to them. -/
theorem Operation.committed (h : Operation c clock job others next) (hbroken : c.broken = true)
    (hhalted : job.work.closes = false → job.deadline = none) :
    next.channel.committed = c.committed := by
  cases h with
  | refuse | hold | shut => rfl
  | begin _ _ hsound => simp [hbroken] at hsound
  | sever => simp [Channel.committed]
  | expire hstart hwrite =>
    rw [(rest_of_begun hhalted hstart).2] at hwrite
    simpa [Channel.committed] using write_committed hwrite
  | finish hstart hwrite =>
    obtain ⟨hcloses, hrest⟩ := rest_of_begun hhalted hstart
    rw [hrest] at hwrite
    simpa [Channel.committed, hcloses, Pipe.close] using write_committed hwrite
  | proceed hstart hwrite =>
    rw [(rest_of_begun hhalted hstart).2] at hwrite
    have hsame := write_committed hwrite
    exact hsame

/-- A line that finds the channel broken writes nothing. -/
theorem Operation.accepted_of_line (h : Operation c clock job others next)
    (hbroken : c.broken = true) (hhalted : job.work.closes = false → job.deadline = none)
    (hline : job.work.closes = false) : next.channel.pipe.accepted = c.pipe.accepted := by
  have hunbegun := hhalted hline
  cases h with
  | refuse => rfl
  | begin _ _ hsound => simp [hbroken] at hsound
  | hold hwork | shut hwork => simp [hwork, Work.closes] at hline
  | sever hstart | expire hstart | finish hstart | proceed hstart => simp [hunbegun] at hstart

/-- A job that has begun puts as much of what it has to offer into the pipe as there is room for. -/
theorem Operation.accepted_of_begun (h : Operation c clock job others next) {deadline : Nat}
    (hbegun : job.deadline = some deadline) (hsound : c.pipe.isSevered = false) :
    next.channel.pipe.accepted
      = c.pipe.accepted ++ (c.offered job.work.rest).take c.pipe.room := by
  cases h with
  | refuse _ hstart | begin _ hstart | hold _ hstart | shut _ hstart => simp [hbegun] at hstart
  | sever _ hsevered => simp [hsound] at hsevered
  | expire _ hwrite =>
    rw [fail_channel, (write_eq_some hwrite).2.1]
    rfl
  | finish _ hwrite =>
    rw [complete_channel, (write_eq_some hwrite).2.1]
    cases job.work.closes <;> rfl
  | proceed _ hwrite =>
    rw [(write_eq_some hwrite).2.1]
    rfl

/-- Nothing is put into a stuck pipe, and it stays stuck. -/
theorem Operation.stuck (h : Operation c clock job others next) (hstuck : c.pipe.IsStuck) :
    next.channel.pipe.accepted = c.pipe.accepted ∧ next.channel.pipe.IsStuck := by
  have hwritten {c' : Channel} {bytes rest : Bytes} (hwrite : c.write bytes = some (c', rest)) :
      c'.pipe = c.pipe := by
    obtain ⟨hsound, hsame, -, -⟩ := write_eq_some hwrite
    have hcapacity : c.pipe.capacity = 0 := by simpa [Pipe.IsStuck, hsound] using hstuck
    have hroom : c.pipe.room = 0 := by rw [Pipe.room, hcapacity, Nat.zero_sub]
    rw [hsame, hroom, List.take_zero, Pipe.put_nil]
  cases h with
  | refuse | hold => exact ⟨rfl, hstuck⟩
  | begin _ _ _ hload =>
    rw [(load_eq hload).1]
    exact ⟨rfl, hstuck⟩
  | shut => exact ⟨rfl, .inl (by simp [conclude, Pipe.close, Pipe.isSevered])⟩
  | sever => exact ⟨by simp, by simpa using hstuck⟩
  | expire _ hwrite =>
    rw [fail_channel]
    exact ⟨by rw [hwritten hwrite], by rwa [hwritten hwrite]⟩
  | finish _ hwrite =>
    rw [complete_channel, hwritten hwrite]
    cases job.work.closes with
    | false => exact ⟨rfl, hstuck⟩
    | true => exact ⟨rfl, .inl (by simp [Pipe.close, Pipe.isSevered])⟩
  | proceed _ hwrite => exact ⟨by rw [hwritten hwrite], by rwa [hwritten hwrite]⟩

end Operation

end Channel

namespace Traffic

variable {t : Traffic}

/-- A call to shut down has not returned. -/
def IsClosing (t : Traffic) : Prop := ∃ call ∈ t.calls, call.work = .close ∧ call.isOpen = true

/-- **The channel can leak.** The buffer holds bytes, a call to shut down has not returned and so
    will flush them, and the pipe can take them. -/
def CanLeak (t : Traffic) : Prop :=
  t.channel.buffer ≠ [] ∧ t.IsClosing ∧ ¬ t.channel.pipe.IsStuck

/-! ### One move -/

/-- A call that moves on does not become a call to shut down, and does not come back. -/
theorem isClosing_of_advance {k : Nat} {work : Work} {stage stage' : CallStage} {channel : Channel}
    (hk : t.calls[k]? = some ⟨work, stage⟩) (hopen : Call.isOpen ⟨work, stage⟩ = true)
    (h : (t.advance k work stage' channel).IsClosing) : t.IsClosing := by
  obtain ⟨call, hcall, hwork, hcallOpen⟩ := h
  rcases List.mem_or_eq_of_mem_set hcall with hcall | rfl
  · exact ⟨call, hcall, hwork, hcallOpen⟩
  · exact ⟨_, List.mem_of_getElem? hk, hwork, hopen⟩

/-- Nobody starts to shut down a broken channel. -/
theorem isClosing_of_apply (hbroken : t.channel.broken = true) (m : Move)
    (h : (t.apply m).IsClosing) : t.IsClosing := by
  cases m with
  | call work =>
    obtain ⟨call, hcall, hwork, hopen⟩ := h
    rcases List.mem_append.mp hcall with hcall | hcall
    · exact ⟨call, hcall, hwork, hopen⟩
    · rw [List.mem_singleton.mp hcall] at hopen
      simp [Call.create, hbroken, Call.isOpen] at hopen
  | enter k =>
    have h : (t.enter k).IsClosing := h
    rcases t.enter_cases k with heq | ⟨work, hk, heq⟩
    · rwa [heq] at h
    · rw [heq] at h
      exact isClosing_of_advance hk rfl h
  | poll k =>
    have h : (t.poll k).IsClosing := h
    rcases t.poll_cases k with heq | ⟨work, job, others, next, hk, -, -, heq⟩
    · rwa [heq] at h
    · rw [heq] at h
      exact isClosing_of_advance hk rfl h
  | read | deafen | wait => exact h

/-- The job in front of a broken channel has begun only if it is to close it. -/
theorem Coherent.front_halted (h : Coherent t) (hbroken : t.channel.broken = true) {job : Job}
    {others : List Job} (hjobs : t.channel.jobs = job :: others) :
    job.work.closes = false → job.deadline = none :=
  h.orderly.halted hbroken job (by rw [hjobs]; exact List.mem_cons_self)

/-- A broken channel stays so. -/
theorem broken_apply (hbroken : t.channel.broken = true) (m : Move) :
    (t.apply m).channel.broken = true := by
  cases m with
  | enter k =>
    show (t.enter k).channel.broken = true
    rcases t.enter_cases k with heq | ⟨work, -, heq⟩ <;> rw [heq]
    · exact hbroken
    · exact hbroken
  | poll k =>
    show (t.poll k).channel.broken = true
    rcases t.poll_cases k with heq | ⟨work, job, others, next, -, -, hop, heq⟩ <;> rw [heq]
    · exact hbroken
    · exact hop.broken.mpr (.inl hbroken)
  | call | read | deafen | wait => exact hbroken

/-- Whatever happens on a broken channel, the pipe takes only bytes that are in the buffer. -/
theorem Coherent.committed_apply (h : Coherent t) (hbroken : t.channel.broken = true) (m : Move) :
    (t.apply m).channel.committed = t.channel.committed ∧
      t.channel.pipe.accepted <+: (t.apply m).channel.pipe.accepted := by
  cases m with
  | enter k =>
    show (t.enter k).channel.committed = _ ∧ _ <+: (t.enter k).channel.pipe.accepted
    rcases t.enter_cases k with heq | ⟨work, -, heq⟩ <;> rw [heq] <;>
      exact ⟨rfl, List.prefix_rfl⟩
  | poll k =>
    show (t.poll k).channel.committed = _ ∧ _ <+: (t.poll k).channel.pipe.accepted
    rcases t.poll_cases k with heq | ⟨work, job, others, next, -, hjobs, hop, heq⟩ <;> rw [heq]
    · exact ⟨rfl, List.prefix_rfl⟩
    · exact ⟨hop.committed hbroken (h.front_halted hbroken hjobs), hop.accepted_prefix⟩
  | read limit =>
    show (t.channel.pipe.read limit).1.accepted ++ t.channel.buffer = _ ∧
      _ <+: (t.channel.pipe.read limit).1.accepted
    unfold Pipe.read
    split <;> exact ⟨rfl, List.prefix_rfl⟩
  | call | deafen | wait => exact ⟨rfl, List.prefix_rfl⟩

/-- A stuck pipe stays stuck. -/
theorem stuck_apply (hstuck : t.channel.pipe.IsStuck) (m : Move) :
    (t.apply m).channel.pipe.IsStuck := by
  cases m with
  | enter k =>
    show (t.enter k).channel.pipe.IsStuck
    rcases t.enter_cases k with heq | ⟨work, -, heq⟩ <;> rw [heq] <;> exact hstuck
  | poll k =>
    show (t.poll k).channel.pipe.IsStuck
    rcases t.poll_cases k with heq | ⟨work, job, others, next, -, -, hop, heq⟩ <;> rw [heq]
    · exact hstuck
    · exact (hop.stuck hstuck).2
  | read limit =>
    show (t.channel.pipe.read limit).1.IsStuck
    unfold Pipe.read
    split <;> exact hstuck
  | deafen => exact .inl (by simp [apply, modifyPipe, Pipe.deafen, Pipe.isSevered])
  | call | wait => exact hstuck

/-- If the buffer of a broken channel is empty, it stays so, and nothing is written. -/
theorem Coherent.apply_of_empty (h : Coherent t) (hbroken : t.channel.broken = true)
    (hempty : t.channel.buffer = []) (m : Move) : (t.apply m).channel.buffer = [] ∧
      (t.apply m).channel.pipe.accepted = t.channel.pipe.accepted := by
  -- What the pipe takes comes out of the buffer, so it is nothing.
  obtain ⟨hsame, part, hpart⟩ := h.committed_apply hbroken m
  rw [Channel.committed, Channel.committed, hempty, ← hpart, List.append_assoc] at hsame
  have hnone := List.append_cancel_left hsame
  obtain ⟨rfl, hbuffer⟩ := List.append_eq_nil_iff.mp hnone
  exact ⟨hbuffer, by rw [← hpart, List.append_nil]⟩

/-- A broken channel that cannot leak never can. -/
theorem Coherent.canLeak_of_apply (h : Coherent t) (hbroken : t.channel.broken = true) (m : Move)
    (hleak : (t.apply m).CanLeak) : t.CanLeak := by
  obtain ⟨hbuffer, hclosing, hpipe⟩ := hleak
  refine ⟨?_, isClosing_of_apply hbroken m hclosing, fun hstuck => hpipe (stuck_apply hstuck m)⟩
  intro hempty
  exact hbuffer (h.apply_of_empty hbroken hempty m).1

/-- **Who writes on a broken channel.** It is a call to shut down, on a channel that can leak. -/
theorem Coherent.leak_of_apply (h : Coherent t) (hbroken : t.channel.broken = true) {m : Move}
    (hne : (t.apply m).channel.pipe.accepted ≠ t.channel.pipe.accepted) :
    t.CanLeak ∧ ∃ (k : Nat) (call : Call), m = .poll k ∧ t.calls[k]? = some call ∧
      call.work = .close := by
  have hbuffer : t.channel.buffer ≠ [] :=
    fun hempty => hne (h.apply_of_empty hbroken hempty m).2
  cases m with
  | call | deafen | wait => exact absurd rfl hne
  | read limit =>
    refine absurd ?_ hne
    show (t.channel.pipe.read limit).1.accepted = _
    unfold Pipe.read
    split <;> rfl
  | enter k =>
    refine absurd ?_ hne
    show (t.enter k).channel.pipe.accepted = _
    rcases t.enter_cases k with heq | ⟨work, -, heq⟩ <;> rw [heq]
    rfl
  | poll k =>
    have hne : (t.poll k).channel.pipe.accepted ≠ t.channel.pipe.accepted := hne
    rcases t.poll_cases k with heq | ⟨work, job, others, next, hk, hjobs, hop, heq⟩ <;>
      rw [heq] at hne
    · exact absurd rfl hne
    -- A line writes nothing on a broken channel, so the call is to shut down.
    have hcloses : work.closes = true := by
      rw [← h.front_kind hk hjobs]
      by_contra hline
      exact hne (hop.accepted_of_line hbroken (h.front_halted hbroken hjobs) (by simpa using hline))
    have hwork : work = .close := by
      cases work with
      | line bytes => cases hcloses
      | close => rfl
    have hstuck : ¬ t.channel.pipe.IsStuck := fun hstuck => hne (hop.stuck hstuck).1
    exact ⟨⟨hbuffer, ⟨_, List.mem_of_getElem? hk, hwork, rfl⟩, hstuck⟩, k, _, rfl, hk, hwork⟩

/-! ### A leak happens -/

/-- The call that the first job belongs to can do the next operation of it. -/
theorem Coherent.front (h : Coherent t) {job : Job} {others : List Job}
    (hjobs : t.channel.jobs = job :: others) : ∃ (k : Nat) (next : Channel.JobStep),
      Channel.Operation t.channel t.clock job others next ∧
        (t.apply (.poll k)).channel = next.channel := by
  obtain ⟨k, ⟨work, stage⟩, hk, hstage, -⟩ := h.owner job (by rw [hjobs]; exact List.mem_cons_self)
  cases hstage
  rcases t.channel.operation_poll t.clock job.ticket with ⟨job', others', hjobs', -, hop⟩ | ⟨hne, -⟩
  · rw [hjobs] at hjobs'
    cases hjobs'
    refine ⟨k, _, hop, ?_⟩
    show (t.poll k).channel = _
    rw [Traffic.poll, hk]
    rfl
  · exact absurd rfl (hne job (by rw [hjobs]; rfl))

/-- A closing job that has begun flushes if there is room. -/
theorem Coherent.writes_of_begun (h : Coherent t) (hbuffer : t.channel.buffer ≠ [])
    (hsound : t.channel.pipe.isSevered = false) (hroom : 0 < t.channel.pipe.room) {job : Job}
    {others : List Job} {deadline : Nat} (hjobs : t.channel.jobs = job :: others)
    (hbegun : job.deadline = some deadline) :
    ∃ k, (t.apply (.poll k)).channel.pipe.accepted ≠ t.channel.pipe.accepted := by
  obtain ⟨k, next, hop, hnext⟩ := h.front hjobs
  refine ⟨k, ?_⟩
  rw [hnext, hop.accepted_of_begun hbegun hsound, Channel.offered,
    if_neg (by simpa using hbuffer)]
  intro hsame
  have hnone := List.self_eq_append_right.mp hsame.symm
  rcases List.take_eq_nil_iff.mp hnone with hzero | hempty
  · omega
  · exact hbuffer hempty

/-- It does so at the latest when the client has read everything. -/
theorem Coherent.leaks_of_begun (h : Coherent t) (hbuffer : t.channel.buffer ≠ [])
    (hpipe : ¬ t.channel.pipe.IsStuck) {job : Job} {others : List Job} {deadline : Nat}
    (hjobs : t.channel.jobs = job :: others) (hbegun : job.deadline = some deadline) :
    ∃ moves, (t.applyAll moves).channel.pipe.accepted ≠ t.channel.pipe.accepted := by
  simp only [Pipe.IsStuck, not_or, Bool.not_eq_true] at hpipe
  obtain ⟨hsound, hcapacity⟩ := hpipe
  -- The client reads all that is in the pipe, and then there is room.
  have hhears : t.channel.pipe.deaf = false := by
    simp only [Pipe.isSevered, Bool.or_eq_false_iff] at hsound
    exact hsound.1
  let n := t.channel.pipe.unread.length
  have hread : (t.channel.pipe.read n).1
      = { t.channel.pipe with unread := t.channel.pipe.unread.drop n } := by
    simp [Pipe.read, hhears]
  have hpipe' : (t.apply (.read n)).channel.pipe
      = { t.channel.pipe with unread := t.channel.pipe.unread.drop n } := hread
  have hroom : 0 < (t.apply (.read n)).channel.pipe.room := by
    rw [hpipe', Pipe.room, List.length_drop]
    show 0 < t.channel.pipe.capacity - (n - n)
    omega
  have hsound' : (t.apply (.read n)).channel.pipe.isSevered = false := by
    rw [hpipe']
    exact hsound
  obtain ⟨k, hk⟩ := (h.apply (.read n)).writes_of_begun hbuffer hsound' hroom hjobs hbegun
  refine ⟨[.read n, .poll k], ?_⟩
  rw [applyAll_cons, applyAll_cons, applyAll_nil]
  rwa [hpipe'] at hk

/-- The jobs before the closing job come to an end, and then it begins. -/
theorem Coherent.leaks_of_job (h : Coherent t) (hbroken : t.channel.broken = true)
    (hbuffer : t.channel.buffer ≠ []) (hpipe : ¬ t.channel.pipe.IsStuck)
    (hjob : ∃ job ∈ t.channel.jobs, job.work.closes = true) :
    ∃ moves, (t.applyAll moves).channel.pipe.accepted ≠ t.channel.pipe.accepted := by
  induction hjobs : t.channel.jobs generalizing t with
  | nil => simp [hjobs] at hjob
  | cons job others ih =>
    obtain ⟨k, next, hop, hnext⟩ := h.front hjobs
    have hcoherent := h.apply (.poll k)
    cases hbegun : job.deadline with
    | some deadline => exact h.leaks_of_begun hbuffer hpipe hjobs hbegun
    | none =>
      cases hop with
      | refuse hwork =>
        -- The line fails, and the job behind it has its turn.
        have hbehind : ∃ job ∈ others, job.work.closes = true := by
          obtain ⟨closing, hmem, hcloses⟩ := hjob
          rw [hjobs, List.mem_cons] at hmem
          rcases hmem with rfl | hmem
          · simp [hwork, Work.closes] at hcloses
          · exact ⟨closing, hmem, hcloses⟩
        have hchannel : (t.apply (.poll k)).channel = { t.channel with jobs := others } := hnext
        obtain ⟨moves, hmoves⟩ := ih hcoherent (by rw [hchannel]; exact hbroken)
          (by rw [hchannel]; exact hbuffer) (by rw [hchannel]; exact hpipe)
          (by rw [hchannel]; exact hbehind) (by rw [hchannel])
        refine ⟨.poll k :: moves, ?_⟩
        rw [applyAll_cons]
        rwa [hchannel] at hmoves
      | begin _ _ hsound => simp [hbroken] at hsound
      | hold hwork =>
        obtain ⟨moves, hmoves⟩ := hcoherent.leaks_of_begun (by rw [hnext]; exact hbuffer)
          (by rw [hnext]; exact hpipe) (by rw [hnext]) rfl
        refine ⟨.poll k :: moves, ?_⟩
        rw [applyAll_cons]
        rwa [hnext] at hmoves
      | shut _ _ hempty => exact absurd hempty hbuffer
      | sever hstart | expire hstart | finish hstart | proceed hstart => simp [hbegun] at hstart

/-- A broken channel that can leak may do so. -/
theorem Coherent.leaks (h : Coherent t) (hbroken : t.channel.broken = true)
    (hleak : t.CanLeak) :
    ∃ moves, (t.applyAll moves).channel.pipe.accepted ≠ t.channel.pipe.accepted := by
  obtain ⟨hbuffer, ⟨⟨work, stage⟩, hcall, hwork, hopen⟩, hpipe⟩ := hleak
  obtain ⟨k, hk⟩ := List.mem_iff_getElem?.mp hcall
  cases hwork
  cases stage with
  | ended result => cases hopen
  | queued ticket =>
    obtain ⟨job, hjob, -, hkind⟩ := h.hasJob hk rfl
    exact h.leaks_of_job hbroken hbuffer hpipe ⟨job, hjob, hkind⟩
  | cleared =>
    -- It has looked before the channel broke, and may still queue up.
    have hentered : (t.apply (.enter k)).channel = (t.channel.start .close).1 := by
      show (t.enter k).channel = _
      rw [Traffic.enter, hk]
      rfl
    obtain ⟨moves, hmoves⟩ := (h.apply (.enter k)).leaks_of_job (by rw [hentered]; exact hbroken)
      (by rw [hentered]; exact hbuffer) (by rw [hentered]; exact hpipe)
      ⟨⟨t.channel.nextTicket, .close, none⟩, by rw [hentered]; simp, rfl⟩
    refine ⟨.enter k :: moves, ?_⟩
    rw [applyAll_cons]
    rwa [hentered] at hmoves

/-! ### Silence -/

/-- What holds of a broken channel at every later time. -/
theorem Coherent.applyAll_of_broken (h : Coherent t) (hbroken : t.channel.broken = true)
    (moves : List Move) : Coherent (t.applyAll moves) ∧
      (t.applyAll moves).channel.broken = true ∧
      (t.applyAll moves).channel.committed = t.channel.committed ∧
      t.channel.pipe.accepted <+: (t.applyAll moves).channel.pipe.accepted ∧
      ((t.applyAll moves).CanLeak → t.CanLeak) := by
  induction moves generalizing t with
  | nil => exact ⟨h, hbroken, rfl, List.prefix_rfl, id⟩
  | cons m moves ih =>
    obtain ⟨hcommitted, hprefix⟩ := h.committed_apply hbroken m
    obtain ⟨hcoherent, hlater, hsame, hgrown, hleak⟩ := ih (h.apply m) (broken_apply hbroken m)
    exact ⟨hcoherent, hlater, hsame.trans hcommitted, hprefix.trans hgrown,
      fun hcan => h.canLeak_of_apply hbroken m (hleak hcan)⟩

/-- A broken channel that cannot leak stays silent. -/
theorem Coherent.silent (h : Coherent t) (hbroken : t.channel.broken = true)
    (hleak : ¬ t.CanLeak) (moves : List Move) :
    (t.applyAll moves).channel.pipe.accepted = t.channel.pipe.accepted := by
  induction moves generalizing t with
  | nil => rfl
  | cons m moves ih =>
    have hsame : (t.apply m).channel.pipe.accepted = t.channel.pipe.accepted := by
      by_contra hne
      exact hleak (h.leak_of_apply hbroken hne).1
    rw [applyAll_cons, ih (h.apply m) (broken_apply hbroken m)
      (fun hcan => hleak (h.canLeak_of_apply hbroken m hcan)), hsame]

/-- **When a channel that has failed stays silent.** Once a line could not be written, whoever
    calls and whatever else happens: the pipe takes no further byte just if the channel cannot leak.
    If it can, the bytes that follow are the first of those in the buffer, and only calls to shut
    down put them there. -/
theorem silent_iff {capacity timeout : Nat} (h : Reachable capacity timeout t)
    (hfailed : t.HasFailed) :
    ((∀ moves, (t.applyAll moves).channel.pipe.accepted = t.channel.pipe.accepted) ↔
        ¬ t.CanLeak) ∧
      (∀ moves, ∃ part, part <+: t.channel.buffer ∧
        (t.applyAll moves).channel.pipe.accepted = t.channel.pipe.accepted ++ part) ∧
      ∀ moves m, (t.applyAll (moves ++ [m])).channel.pipe.accepted
          ≠ (t.applyAll moves).channel.pipe.accepted →
        ∃ (k : Nat) (call : Call), m = .poll k ∧ (t.applyAll moves).calls[k]? = some call ∧
          call.work = .close := by
  have hcoherent := coherent_of_reachable h
  have hbroken := hcoherent.broken_iff.mpr hfailed
  refine ⟨⟨?_, hcoherent.silent hbroken⟩, ?_, ?_⟩
  · intro hsilent hleak
    obtain ⟨moves, hmoves⟩ := hcoherent.leaks hbroken hleak
    exact hmoves (hsilent moves)
  · intro moves
    obtain ⟨-, -, hsame, ⟨part, hpart⟩, -⟩ := hcoherent.applyAll_of_broken hbroken moves
    refine ⟨part, ?_, hpart.symm⟩
    rw [Channel.committed, Channel.committed, ← hpart, List.append_assoc] at hsame
    exact ⟨_, List.append_cancel_left hsame⟩
  · intro moves m hne
    obtain ⟨hlater, hstill, -, -, -⟩ := hcoherent.applyAll_of_broken hbroken moves
    rw [applyAll_append, applyAll_cons, applyAll_nil] at hne
    exact (hlater.leak_of_apply hstill hne).2

/-- A run on a pipe for one byte: a line of two bytes, and a call to shut down behind it.  The
    line takes too long. -/
def failingRun : List Move :=
  [.call (.line [1, 2]), .enter 0, .call .close, .enter 1, .poll 0, .poll 0, .wait 5, .poll 0]

theorem hasFailed_failingRun : ((start 1 5).applyAll failingRun).HasFailed :=
  ⟨⟨.line [1, 2], .ended (.error (.timeout (.ofMillis 5)))⟩, by decide, _, rfl, by decide⟩

/-- The call to shut down writes the second byte of the line that has failed. -/
theorem accepted_failingRun : ((start 1 5).applyAll failingRun).HasFailed ∧
    ((start 1 5).applyAll failingRun).channel.pipe.accepted = [1] ∧
    ((start 1 5).applyAll (failingRun ++ [.read 1, .poll 1, .poll 1])).channel.pipe.accepted
      = [1, 2] :=
  ⟨hasFailed_failingRun, by decide, by decide⟩

theorem not_silent_failingRun : Reachable 1 5 ((start 1 5).applyAll failingRun) ∧
    ((start 1 5).applyAll failingRun).HasFailed ∧
    ¬ ∀ moves, (((start 1 5).applyAll failingRun).applyAll moves).channel.pipe.accepted
      = ((start 1 5).applyAll failingRun).channel.pipe.accepted := by
  have hreachable : Reachable 1 5 ((start 1 5).applyAll failingRun) := Reachable.start.applyAll _
  refine ⟨hreachable, hasFailed_failingRun, ?_⟩
  intro hsilent
  refine (silent_iff hreachable hasFailed_failingRun).1.mp hsilent ⟨by decide, ?_, ?_⟩
  · exact ⟨⟨.close, .queued 1⟩, by decide, rfl, rfl⟩
  · rintro (hsevered | hcapacity)
    · exact absurd hsevered (by decide)
    · exact absurd hcapacity (by decide)

end Traffic

end Reckoner
