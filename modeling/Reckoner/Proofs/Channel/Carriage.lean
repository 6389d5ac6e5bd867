import Reckoner.Proofs.Channel.Delivery
import Reckoner.Proofs.Channel.Orderly

/-!
# What a channel carries

The lines that were given to a channel are in its pipe, in its buffer, or still with their jobs, in
the order in which they were given to it.  This is also said of the first jobs alone, so that it can
be told of one line that it is not in the pipe yet, whatever has come after it.

* `Channel.owed` — the bytes that some jobs have still to write.
* `Channel.Carries` — some lines are in the channel, but for what the given jobs have to write.
* `Channel.Carries.startLine`, `Channel.Carries.poll` — a new line and an operation keep it so.
* `Channel.Carries.begins`, `Channel.Carries.short` — what that says of the pipe.
* `Channel.Withholds` — the last of some lines is not in the pipe, and will not be unless a certain
  job is done with it.
* `Channel.Withholds.poll` — an operation keeps it so, or that job is done.
-/

namespace Reckoner

namespace Channel

/-- The bytes that the jobs have still to write. -/
def owed (queue : List Job) : Bytes := (queue.map fun job => job.work.rest).flatten

@[simp] theorem owed_nil : owed [] = [] := rfl

@[simp] theorem owed_cons (job : Job) (queue : List Job) :
    owed (job :: queue) = job.work.rest ++ owed queue := rfl

@[simp] theorem owed_append (queue others : List Job) :
    owed (queue ++ others) = owed queue ++ owed others := by
  simp [owed]

end Channel

/-- The job has not begun, and if it is to write a line, then not an empty one. -/
structure Job.Waits (job : Job) : Prop where
  unbegun : job.deadline = none
  rest_ne_nil : job.work.closes = false → job.work.rest ≠ []

namespace Channel

/-- **Carrying lines.** All bytes of the lines are in the pipe or the buffer, or the jobs given, the
    first ones of the channel, have them still to write. -/
inductive Carries (c : Channel) (queue : List Job) (lines : List Bytes) : Prop where
  /-- No line has been begun and not been ended. -/
  | between (hsound : c.broken = false) (hwaits : ∀ job ∈ queue, job.Waits)
      (hbuffer : c.buffer = []) (hbytes : c.pipe.accepted ++ owed queue = lines.flatten)
  /-- The first job has begun its line, and has not ended it. -/
  | amid {job : Job} {others : List Job} {deadline : Nat} (hsound : c.broken = false)
      (hqueue : queue = job :: others) (hbegun : job.deadline = some deadline)
      (hline : job.work.closes = false) (hleft : c.buffer ++ job.work.rest ≠ [])
      (hwaits : ∀ other ∈ others, other.Waits)
      (hbytes : c.committed ++ owed queue = lines.flatten)
  /-- A line has failed, and only the first bytes are there. -/
  | failed (hbroken : c.broken = true) (hbegins : c.committed <+: lines.flatten)

variable {c c' : Channel} {queue back : List Job} {lines : List Bytes}

theorem carries_create (capacity timeout : Nat) : (create capacity timeout).Carries [] [] :=
  .between rfl nofun rfl rfl

/-- What the client does to the pipe, and jobs that come behind, do not matter. -/
theorem Carries.congr (h : c.Carries queue lines) (hbroken : c'.broken = c.broken)
    (hbuffer : c'.buffer = c.buffer) (haccepted : c'.pipe.accepted = c.pipe.accepted) :
    c'.Carries queue lines := by
  have hcommitted : c'.committed = c.committed := by rw [committed, committed, haccepted, hbuffer]
  cases h with
  | between hsound hwaits hempty hbytes =>
    exact .between (hbroken.trans hsound) hwaits (hbuffer.trans hempty) (haccepted ▸ hbytes)
  | amid hsound hqueue hbegun hline hleft hwaits hbytes =>
    exact .amid (hbroken.trans hsound) hqueue hbegun hline (hbuffer ▸ hleft) hwaits
      (hcommitted ▸ hbytes)
  | failed hbad hbegins => exact .failed (hbroken.trans hbad) (hcommitted ▸ hbegins)

/-- Another job queues up with its line. -/
theorem Carries.push (h : c.Carries queue lines) {job : Job} (hjob : job.Waits)
    {more : List Bytes} (hmore : more.flatten = job.work.rest) :
    c.Carries (queue ++ [job]) (lines ++ more) := by
  have howed : owed [job] = job.work.rest := List.append_nil _
  cases h with
  | between hsound hwaits hempty hbytes =>
    refine .between hsound ?_ hempty ?_
    · intro other hother
      rcases List.mem_append.mp hother with hother | hother
      · exact hwaits other hother
      · rwa [List.mem_singleton.mp hother]
    · rw [owed_append, ← List.append_assoc, hbytes, howed, List.flatten_append, hmore]
  | @amid front others deadline hsound hqueue hbegun hline hleft hwaits hbytes =>
    refine .amid hsound (by rw [hqueue]; rfl) hbegun hline hleft ?_ ?_
    · intro other hother
      rcases List.mem_append.mp hother with hother | hother
      · exact hwaits other hother
      · rwa [List.mem_singleton.mp hother]
    · rw [owed_append, ← List.append_assoc, hbytes, howed, List.flatten_append, hmore]
  | failed hbroken hbegins =>
    refine .failed hbroken (hbegins.trans ?_)
    rw [List.flatten_append]
    exact List.prefix_append ..

theorem Carries.startLine (h : c.Carries c.jobs lines) {bytes : Bytes} (hbytes : bytes ≠ []) :
    (c.startLine bytes).1.Carries (c.startLine bytes).1.jobs (lines ++ [bytes]) := by
  have hwaits : Job.Waits ⟨c.nextTicket, .line bytes, none⟩ := ⟨rfl, fun _ => hbytes⟩
  have hline : [bytes].flatten = bytes := List.append_nil _
  exact (h.push hwaits hline).congr rfl rfl rfl

theorem Carries.startClose (h : c.Carries c.jobs lines) :
    c.startClose.1.Carries c.startClose.1.jobs lines := by
  have hwaits : Job.Waits ⟨c.nextTicket, .close, none⟩ := ⟨rfl, nofun⟩
  have hnothing : ([] : List Bytes).flatten = [] := rfl
  have hpushed := h.push hwaits hnothing
  rw [List.append_nil] at hpushed
  exact hpushed.congr rfl rfl rfl

/-! ### What is in the pipe -/

theorem Carries.begins (h : c.Carries queue lines) : c.pipe.accepted <+: lines.flatten := by
  cases h with
  | between hsound hwaits hempty hbytes => exact ⟨_, hbytes⟩
  | amid hsound hqueue hbegun hline hleft hwaits hbytes =>
    rw [committed, List.append_assoc] at hbytes
    exact ⟨_, hbytes⟩
  | failed hbroken hbegins => exact (List.prefix_append ..).trans hbegins

/-- Where all jobs are done, all lines are there. -/
theorem Carries.whole (h : c.Carries [] lines) (hsound : c.broken = false) :
    c.pipe.accepted = lines.flatten := by
  cases h with
  | between _ hwaits hempty hbytes => rwa [owed_nil, List.append_nil] at hbytes
  | amid _ hqueue => cases hqueue
  | failed hbroken => simp [hsound] at hbroken

/-- As long as one of the jobs has to write a line, they are not all there. -/
theorem Carries.short (h : c.Carries queue lines) (hsound : c.broken = false) {job : Job}
    (hjob : job ∈ queue) (hline : job.work.closes = false) :
    c.pipe.accepted.length < lines.flatten.length := by
  cases h with
  | between _ hwaits hempty hbytes =>
    have howed : owed queue ≠ [] := by
      intro hnone
      refine (hwaits job hjob).rest_ne_nil hline (List.flatten_eq_nil_iff.mp hnone _ ?_)
      exact List.mem_map_of_mem hjob
    have := List.length_pos_iff.mpr howed
    rw [← hbytes, List.length_append]
    omega
  | amid _ hqueue hbegun hfirst hleft hwaits hbytes =>
    have := List.length_pos_iff.mpr hleft
    rw [List.length_append] at this
    rw [← hbytes, hqueue, owed_cons, committed]
    simp only [List.length_append]
    omega
  | failed hbroken => simp [hsound] at hbroken

/-! ### Operations -/

section Operation

variable {clock : Nat} {job : Job} {others : List Job} {next : JobStep}

/-- What comes into the buffer and the pipe are the first bytes that the job has to write. -/
theorem Operation.committed_begins (h : Operation c clock job others next) :
    next.channel.committed <+: c.committed ++ job.work.rest := by
  have hwritten {written : Channel} {bytes rest : Bytes}
      (hwrite : c.write bytes = some (written, rest)) :
      written.committed <+: c.committed ++ bytes := by
    obtain ⟨taken, rfl, hsame⟩ := committed_of_write hwrite
    rw [hsame, ← List.append_assoc]
    exact List.prefix_append ..
  cases h with
  | refuse | hold | shut => exact List.prefix_append ..
  | @begin bytes rest c' _ hwork _ _ hload =>
    obtain ⟨hsame, hbytes, -⟩ := load_eq hload
    refine ⟨rest, ?_⟩
    have haccepted : c'.pipe.accepted = c.pipe.accepted := by rw [hsame]
    show c'.pipe.accepted ++ c'.buffer ++ rest = _
    rw [List.append_assoc, hbytes, haccepted, hwork, Channel.committed, List.append_assoc]
    rfl
  | sever =>
    rw [fail_channel]
    exact List.prefix_append ..
  | expire _ hwrite =>
    rw [fail_channel]
    have hbegins := hwritten hwrite
    exact hbegins
  | finish _ hwrite =>
    have hbegins := hwritten hwrite
    rw [complete_channel]
    cases job.work.closes <;> exact hbegins
  | proceed _ hwrite =>
    have hbegins := hwritten hwrite
    exact hbegins

/-- What has failed stays as it is. -/
theorem Carries.operation_failed (hbroken : c.broken = true)
    (hbegins : c.committed <+: lines.flatten) (horderly : c.Orderly) (hfront : job ∈ c.jobs)
    (hop : Operation c clock job others next) (queue : List Job) :
    next.channel.Carries queue lines := by
  refine .failed (hop.broken.mpr (.inl hbroken)) ?_
  rwa [hop.committed hbroken (horderly.halted hbroken job hfront)]

/-- A job that waited begins.  A closing job finds nothing to flush. -/
theorem Carries.operation_between (hsound : c.broken = false) (hjob : job.Waits)
    (hwaits : ∀ other ∈ queue, other.Waits) (hbuffer : c.buffer = [])
    (hbytes : c.pipe.accepted ++ owed (job :: queue) = lines.flatten)
    (hop : Operation c clock job others next) :
    (∃ result, next.progress = some result ∧ next.channel.jobs = others ∧
        next.channel.Carries queue lines) ∨
      next.progress = none ∧ ∃ job', next.channel.jobs = job' :: others ∧
        next.channel.Carries (job' :: queue) lines := by
  have hunbegun := hjob.unbegun
  cases hop with
  | refuse _ _ hbroken => simp [hsound] at hbroken
  | hold _ _ hleft => exact absurd hbuffer hleft
  | sever hstart | expire hstart | finish hstart | proceed hstart => simp [hunbegun] at hstart
  | shut hwork =>
    refine .inl ⟨_, rfl, rfl, .between hsound hwaits hbuffer ?_⟩
    rw [owed_cons, hwork] at hbytes
    exact hbytes
  | @begin bytes rest c' _ hwork _ _ hload =>
    obtain ⟨hsame, hloaded, -⟩ := load_eq hload
    have haccepted : c'.pipe.accepted = c.pipe.accepted := by rw [hsame]
    have hbroken : c'.broken = c.broken := by rw [hsame]
    have hne : bytes ≠ [] := by
      have := hjob.rest_ne_nil (by rw [hwork]; rfl)
      rwa [hwork] at this
    rw [hbuffer, List.nil_append] at hloaded
    refine .inr ⟨rfl, _, rfl, .amid (hbroken.trans hsound) rfl rfl rfl ?_ hwaits ?_⟩
    · show c'.buffer ++ rest ≠ []
      rwa [hloaded]
    · show c'.pipe.accepted ++ c'.buffer ++ (rest ++ owed queue) = _
      rw [List.append_assoc, ← List.append_assoc c'.buffer, hloaded, haccepted, ← hbytes, owed_cons,
        hwork]
      rfl

/-- A job that has begun gets on, and what is left of its line is in the buffer or with it. -/
theorem Carries.operation_amid {deadline : Nat} (hsound : c.broken = false)
    (hbegun : job.deadline = some deadline) (hline : job.work.closes = false)
    (hleft : c.buffer ++ job.work.rest ≠ []) (hwaits : ∀ other ∈ queue, other.Waits)
    (hbytes : c.committed ++ owed (job :: queue) = lines.flatten)
    (hop : Operation c clock job others next) :
    (∃ result, next.progress = some result ∧ next.channel.jobs = others ∧
        next.channel.Carries queue lines) ∨
      next.progress = none ∧ ∃ job', next.channel.jobs = job' :: others ∧
        next.channel.Carries (job' :: queue) lines := by
  rw [owed_cons, ← List.append_assoc] at hbytes
  -- Some bytes of the line go into the pipe, and the others are left.
  obtain ⟨taken, left, haccepted, htaken, hcases⟩ := hop.line_of_begun hline hbegun hleft
  have hgone : next.channel.pipe.accepted ++ (left ++ owed queue) = lines.flatten := by
    rw [haccepted, ← hbytes, committed, List.append_assoc, List.append_assoc c.pipe.accepted,
      ← htaken]
    simp only [List.append_assoc]
  rcases hcases with ⟨e, hprogress, he, hbroken, -⟩ | ⟨hprogress, hbroken, rfl, hbuffer, hjobs⟩ |
    ⟨hprogress, hbroken, hmore, job', hjobs, hticket, hdeadline, hrest⟩
  · have hjobs : next.channel.jobs = others := by
      rcases hop.jobs with ⟨result, -, hjobs⟩ | ⟨hnone, -⟩
      · exact hjobs
      · simp [hprogress] at hnone
    refine .inl ⟨_, hprogress, hjobs, .failed hbroken ?_⟩
    rw [← hbytes]
    exact hop.committed_begins.trans (List.prefix_append ..)
  · exact .inl ⟨_, hprogress, hjobs,
      .between (hbroken.trans hsound) hwaits hbuffer hgone⟩
  · have hkind : job'.work.closes = false := by
      rcases hop.jobs with ⟨result, hsome, -⟩ | ⟨-, job'', hjobs', -, hsame⟩
      · simp [hprogress] at hsome
      · rw [hjobs] at hjobs'
        cases hjobs'
        rw [hsame, hline]
    refine .inr ⟨hprogress, job', hjobs,
      .amid (hbroken.trans hsound) rfl hdeadline hkind (hrest ▸ hmore) hwaits ?_⟩
    rw [committed, owed_cons, List.append_assoc, ← List.append_assoc next.channel.buffer, hrest]
    exact hgone

/-- The first of the jobs takes its turn. -/
theorem Carries.operation (h : c.Carries (job :: queue) lines) (horderly : c.Orderly)
    (hfront : job ∈ c.jobs) (hop : Operation c clock job others next) :
    (∃ result, next.progress = some result ∧ next.channel.jobs = others ∧
        next.channel.Carries queue lines) ∨
      next.progress = none ∧ ∃ job', next.channel.jobs = job' :: others ∧
        next.channel.Carries (job' :: queue) lines := by
  cases h with
  | between hsound hwaits hbuffer hbytes =>
    exact operation_between hsound (hwaits job List.mem_cons_self)
      (fun other hother => hwaits other (List.mem_cons_of_mem _ hother)) hbuffer hbytes hop
  | amid hsound hqueue hbegun hline hleft hwaits hbytes =>
    cases hqueue
    exact operation_amid hsound hbegun hline hleft hwaits hbytes hop
  | failed hbroken hbegins =>
    have hstill := operation_failed hbroken hbegins horderly hfront hop
    rcases hop.jobs with ⟨result, hresult, hjobs⟩ | ⟨hnone, job', hjobs, -⟩
    · exact .inl ⟨result, hresult, hjobs, hstill queue⟩
    · exact .inr ⟨hnone, job', hjobs, hstill (job' :: queue)⟩

/-- **Polling.** Whoever polls, the jobs that come first still have the lines, or the first of them
    is done with it. -/
theorem Carries.poll (h : c.Carries queue lines) (horderly : c.Orderly)
    (hjobs : c.jobs = queue ++ back) (hback : queue = [] → back = []) (clock ticket : Nat) :
    ∃ queue', (c.poll clock ticket).channel.jobs = queue' ++ back ∧
      (c.poll clock ticket).channel.Carries queue' lines ∧
      ((∃ job result, queue = job :: queue' ∧ job.ticket = ticket ∧
          (c.poll clock ticket).progress = some result) ∨
        (c.poll clock ticket).progress = none ∧
          queue'.map (fun job => (job.ticket, job.work.closes))
            = queue.map fun job => (job.ticket, job.work.closes)) := by
  rcases c.operation_poll clock ticket with ⟨job, others, hfirst, hticket, hop⟩ | ⟨-, hpoll⟩
  · obtain ⟨tail, rfl, rfl⟩ : ∃ tail, queue = job :: tail ∧ others = tail ++ back := by
      rw [hfirst] at hjobs
      cases queue with
      | nil =>
        rw [hback rfl] at hjobs
        cases hjobs
      | cons first tail =>
        cases hjobs
        exact ⟨tail, rfl, rfl⟩
    have hfront : job ∈ c.jobs := by rw [hfirst]; exact List.mem_cons_self
    rcases h.operation horderly hfront hop with
      ⟨result, hresult, hnext, hcarries⟩ | ⟨hnone, job', hnext, hcarries⟩
    · exact ⟨tail, hnext, hcarries, .inl ⟨job, result, rfl, hticket, hresult⟩⟩
    · refine ⟨job' :: tail, hnext, hcarries, .inr ⟨hnone, ?_⟩⟩
      rcases hop.jobs with ⟨result, hsome, -⟩ | ⟨-, job'', hjobs', hsame, hkind⟩
      · simp [hnone] at hsome
      · rw [hnext] at hjobs'
        cases hjobs'
        rw [List.map_cons, List.map_cons, hsame, hkind]
  · rw [hpoll]
    exact ⟨queue, hjobs, h, .inr ⟨rfl, rfl⟩⟩

/-- On a channel that is not broken, whatever fails breaks it. -/
theorem Operation.breaks (h : Operation c clock job others next) (hsound : c.broken = false)
    {e : WriteError} (hfails : next.progress = some (.error e)) : next.channel.broken = true := by
  refine h.broken.mpr (.inr ⟨e, hfails, ?_⟩)
  rintro rfl
  cases h with
  | refuse _ _ hbroken => simp [hsound] at hbroken
  | begin | hold | shut | proceed => cases hfails
  | sever | expire =>
    rw [fail_progress] at hfails
    split at hfails <;> cases hfails
  | finish => simp at hfails

/-- When the first job breaks the channel, its line is not all there. -/
theorem Carries.short_of_break (h : c.Carries (job :: queue) lines) (hsound : c.broken = false)
    (hop : Operation c clock job others next) (hbroken : next.channel.broken = true) :
    next.channel.pipe.accepted.length < lines.flatten.length := by
  obtain ⟨e, hprogress, he⟩ := (hop.broken.mp hbroken).resolve_left (by simp [hsound])
  cases h with
  | between _ hwaits =>
    -- A job that has not begun fails only where the channel was broken before.
    have hunbegun := (hwaits job List.mem_cons_self).unbegun
    cases hop with
    | refuse _ _ hbad => simp [hsound] at hbad
    | begin | hold => cases hprogress
    | shut => cases hprogress
    | sever hstart | expire hstart | finish hstart | proceed hstart => simp [hunbegun] at hstart
  | amid _ hqueue hbegun hline hleft hwaits hbytes =>
    cases hqueue
    obtain ⟨taken, left, haccepted, htaken, hcases⟩ := hop.line_of_begun hline hbegun hleft
    have hmore : left ≠ [] := by
      rcases hcases with ⟨-, -, -, -, hmore⟩ | ⟨hdone, -⟩ | ⟨hnone, -⟩
      · exact hmore
      · simp [hprogress] at hdone
      · simp [hprogress] at hnone
    have hpositive := List.length_pos_iff.mpr hmore
    have hlength := congrArg List.length htaken
    rw [haccepted, ← hbytes, owed_cons, committed]
    simp only [List.length_append] at hlength ⊢
    omega
  | failed hbad => simp [hsound] at hbad

end Operation

theorem broken_of_poll (hbroken : c.broken = true) (clock ticket : Nat) :
    (c.poll clock ticket).channel.broken = true := by
  rcases c.operation_poll clock ticket with ⟨job, others, -, -, hop⟩ | ⟨-, hpoll⟩
  · exact hop.broken.mpr (.inl hbroken)
  · rwa [hpoll]

/-- Where a line fails, the channel is broken. -/
theorem broken_of_error {clock ticket : Nat} {e : WriteError}
    (hfails : (c.poll clock ticket).progress = some (.error e)) :
    (c.poll clock ticket).channel.broken = true := by
  rcases c.operation_poll clock ticket with ⟨job, others, -, -, hop⟩ | ⟨-, hpoll⟩
  · cases hbroken : c.broken with
    | true => exact hop.broken.mpr (.inl hbroken)
    | false => exact hop.breaks hbroken hfails
  · rw [hpoll] at hfails
    cases hfails

/-- When one of the jobs that come first breaks the channel, their lines are not all there. -/
theorem Carries.short_of_poll {clock ticket : Nat} (h : c.Carries queue lines)
    (hsound : c.broken = false) (hjobs : c.jobs = queue ++ back) (hne : queue ≠ [])
    (hbroken : (c.poll clock ticket).channel.broken = true) :
    (c.poll clock ticket).channel.pipe.accepted.length < lines.flatten.length := by
  rcases c.operation_poll clock ticket with ⟨job, others, hfirst, -, hop⟩ | ⟨-, hpoll⟩
  · obtain ⟨first, tail, rfl⟩ := List.exists_cons_of_ne_nil hne
    rw [hfirst] at hjobs
    cases hjobs
    exact h.short_of_break hsound hop hbroken
  · rw [hpoll, hsound] at hbroken
    cases hbroken

/-- Only a job to close the channel closes its pipe. -/
theorem Operation.closed {clock : Nat} {job : Job} {others : List Job} {next : JobStep}
    (h : Operation c clock job others next) (hclosed : next.channel.pipe.closed = true) :
    c.pipe.closed = true ∨ job.work.closes = true := by
  have hwritten {written : Channel} {bytes rest : Bytes}
      (hwrite : c.write bytes = some (written, rest)) :
      written.pipe.closed = c.pipe.closed := by
    obtain ⟨-, hsame, -, -⟩ := write_eq_some hwrite
    rw [hsame]
    rfl
  cases h with
  | refuse | hold => exact .inl hclosed
  | begin _ _ _ hload =>
    obtain ⟨hsame, -, -⟩ := load_eq hload
    rw [hsame] at hclosed
    exact .inl hclosed
  | shut hwork => exact .inr (by rw [hwork]; rfl)
  | sever =>
    rw [fail_channel] at hclosed
    exact .inl hclosed
  | expire _ hwrite =>
    rw [fail_channel] at hclosed
    exact .inl ((hwritten hwrite).symm.trans hclosed)
  | finish _ hwrite =>
    rw [complete_channel] at hclosed
    cases hcloses : job.work.closes with
    | true => exact .inr rfl
    | false =>
      rw [hcloses] at hclosed
      exact .inl ((hwritten hwrite).symm.trans hclosed)
  | proceed _ hwrite => exact .inl ((hwritten hwrite).symm.trans hclosed)

theorem closed_of_poll {clock ticket : Nat}
    (hclosed : (c.poll clock ticket).channel.pipe.closed = true) :
    c.pipe.closed = true ∨ ∃ job ∈ c.jobs, job.work.closes = true := by
  rcases c.operation_poll clock ticket with ⟨job, others, hjobs, -, hop⟩ | ⟨-, hpoll⟩
  · exact (hop.closed hclosed).imp_right fun hcloses =>
      ⟨job, by rw [hjobs]; exact List.mem_cons_self, hcloses⟩
  · rw [hpoll] at hclosed
    exact .inl hclosed

/-! ### A line that is not there -/

/-- **Holding back.** The lines are not all in the pipe: the job of the ticket has the last of them
    still to write, or one of them has failed.  No job is to close the channel, so nothing that was
    left in the buffer can get there. -/
structure Withholds (c : Channel) (ticket : Nat) (lines : List Bytes) : Prop where
  writes : ∀ job ∈ c.jobs, job.work.closes = false
  held : (c.broken = false ∧ ∃ front own back, c.jobs = front ++ own :: back ∧
      own.ticket = ticket ∧ c.Carries (front ++ [own]) lines) ∨
    c.broken = true ∧ c.pipe.accepted.length < lines.flatten.length

variable {ticket : Nat}

theorem Withholds.short (h : c.Withholds ticket lines) :
    c.pipe.accepted.length < lines.flatten.length := by
  rcases h.held with ⟨hsound, front, own, back, hjobs, -, hcarries⟩ | ⟨-, hshort⟩
  · exact hcarries.short hsound (List.mem_append_right _ List.mem_cons_self)
      (h.writes own (by rw [hjobs]; simp))
  · exact hshort

/-- A line that was just given to the channel is not in the pipe. -/
theorem withholds_startLine (h : c.Carries c.jobs lines)
    (hwrites : ∀ job ∈ c.jobs, job.work.closes = false) {bytes : Bytes} (hbytes : bytes ≠ []) :
    (c.startLine bytes).1.Withholds c.nextTicket (lines ++ [bytes]) := by
  refine ⟨?_, ?_⟩
  · intro job hjob
    rcases List.mem_append.mp hjob with hjob | hjob
    · exact hwrites job hjob
    · rw [List.mem_singleton.mp hjob]
      rfl
  · cases hbroken : c.broken with
    | false =>
      exact .inl ⟨hbroken, c.jobs, ⟨c.nextTicket, .line bytes, none⟩, [], rfl, rfl,
        h.startLine hbytes⟩
    | true =>
      refine .inr ⟨hbroken, ?_⟩
      have hle := h.begins.length_le
      have hpositive := List.length_pos_iff.mpr hbytes
      show c.pipe.accepted.length < _
      simp only [List.flatten_append, List.flatten_singleton, List.length_append]
      omega

/-- What the client does to the pipe does not matter. -/
theorem Withholds.congr (h : c.Withholds ticket lines) (hbroken : c'.broken = c.broken)
    (hbuffer : c'.buffer = c.buffer) (haccepted : c'.pipe.accepted = c.pipe.accepted)
    (hjobs : c'.jobs = c.jobs) : c'.Withholds ticket lines := by
  refine ⟨by rw [hjobs]; exact h.writes, ?_⟩
  rw [hbroken, haccepted, hjobs]
  refine h.held.imp_left ?_
  rintro ⟨hsound, front, own, back, heq, hticket, hcarries⟩
  exact ⟨hsound, front, own, back, heq, hticket, hcarries.congr hbroken hbuffer haccepted⟩

/-- Nor do the lines that come behind. -/
theorem Withholds.startLine (h : c.Withholds ticket lines) (bytes : Bytes) :
    (c.startLine bytes).1.Withholds ticket lines := by
  refine ⟨?_, ?_⟩
  · intro job hjob
    rcases List.mem_append.mp hjob with hjob | hjob
    · exact h.writes job hjob
    · rw [List.mem_singleton.mp hjob]
      rfl
  · refine h.held.imp_left ?_
    rintro ⟨hsound, front, own, back, hjobs, hticket, hcarries⟩
    refine ⟨hsound, front, own, back ++ [⟨c.nextTicket, .line bytes, none⟩], ?_, hticket,
      hcarries.congr rfl rfl rfl⟩
    show c.jobs ++ [_] = _
    rw [hjobs, List.append_assoc]
    rfl

/-- On a broken channel no line puts anything into the pipe. -/
theorem accepted_of_poll (hwrites : ∀ job ∈ c.jobs, job.work.closes = false)
    (horderly : c.Orderly) (hbroken : c.broken = true) (clock ticket : Nat) :
    (c.poll clock ticket).channel.pipe.accepted = c.pipe.accepted := by
  rcases c.operation_poll clock ticket with ⟨job, others, hjobs, -, hop⟩ | ⟨-, hpoll⟩
  · have hfront : job ∈ c.jobs := by rw [hjobs]; exact List.mem_cons_self
    exact hop.accepted_of_line hbroken (horderly.halted hbroken job hfront) (hwrites job hfront)
  · rw [hpoll]

/-- Jobs with the same tickets have the same last ticket. -/
theorem last_of_same {f : Job → Nat × Bool} (hf : ∀ job, (f job).1 = job.ticket)
    {front : List Job} {own : Job} (h : queue.map f = (front ++ [own]).map f) :
    ∃ front' own', queue = front' ++ [own'] ∧ own'.ticket = own.ticket := by
  rw [List.map_append, List.map_singleton, List.map_eq_append_iff] at h
  obtain ⟨front', last, rfl, -, hlast⟩ := h
  obtain ⟨own', rest, rfl, hown, hrest⟩ := List.map_eq_cons_iff.mp hlast
  rw [List.map_eq_nil_iff.mp hrest]
  exact ⟨front', own', rfl, by rw [← hf, ← hf, hown]⟩

/-- **It stays so.** Whoever polls, the lines are held back, unless it is the job of the ticket and
    it is done, on a channel that is not broken. -/
theorem Withholds.poll (h : c.Withholds ticket lines) (horderly : c.Orderly) (clock own : Nat) :
    (c.poll clock own).channel.Withholds ticket lines ∨
      c.broken = false ∧ own = ticket ∧ (c.poll clock own).progress = some (.ok ()) := by
  have hwrites : ∀ job ∈ (c.poll clock own).channel.jobs, job.work.closes = false := by
    intro job hjob
    obtain ⟨before, hbefore, -, hkind⟩ := mem_of_poll hjob
    rw [← hkind]
    exact h.writes before hbefore
  rcases h.held with ⟨hsound, front, mine, back, hjobs, hmine, hcarries⟩ | ⟨hbroken, hshort⟩
  swap
  · refine .inl ⟨hwrites, .inr ⟨broken_of_poll hbroken clock own, ?_⟩⟩
    rwa [accepted_of_poll h.writes horderly hbroken]
  have hsplit : c.jobs = (front ++ [mine]) ++ back := by
    rw [hjobs, List.append_assoc]
    rfl
  cases hbroken : (c.poll clock own).channel.broken with
  | true =>
    exact .inl ⟨hwrites, .inr ⟨hbroken, hcarries.short_of_poll hsound hsplit (by simp) hbroken⟩⟩
  | false =>
    obtain ⟨queue', hnext, hcarries', hcases⟩ := hcarries.poll horderly hsplit (by simp) clock own
    -- Unless the last of the jobs is done, it is still the last of those that are left.
    have hstill (front' : List Job) (mine' : Job) (hqueue : queue' = front' ++ [mine'])
        (hmine' : mine'.ticket = ticket) : (c.poll clock own).channel.Withholds ticket lines := by
      refine ⟨hwrites, .inl ⟨hbroken, front', mine', back, ?_, hmine', hqueue ▸ hcarries'⟩⟩
      rw [hnext, hqueue, List.append_assoc]
      rfl
    rcases hcases with ⟨first, result, hqueue, hown, hresult⟩ | ⟨-, hsame⟩
    · cases front with
      | nil =>
        cases hqueue
        refine .inr ⟨hsound, hown.symm.trans hmine, ?_⟩
        cases result with
        | ok => exact hresult
        | error e =>
          rw [broken_of_error hresult] at hbroken
          cases hbroken
      | cons first' front =>
        cases hqueue
        exact .inl (hstill front mine rfl hmine)
    · obtain ⟨front', mine', hqueue, hmine'⟩ := last_of_same (fun _ => rfl) hsame
      exact .inl (hstill front' mine' hqueue (hmine'.trans hmine))

end Channel

end Reckoner
