import Reckoner.Proofs.Channel.Silence

/-!
# What a channel is made of

A line goes into a channel from its beginning on, and as long as it does nothing else goes in.  So
whatever happens, all that went in are beginnings of lines that were to be written.

* `Channel.Beginning` — the first bytes of one of some lines.
* `Channel.MadeOf` — what went into a channel, and what is still to go in, is made of such lines.
* `Channel.MadeOf.start`, `Channel.MadeOf.poll` — a new line and an operation keep it so.
-/

namespace Reckoner

namespace Channel

/-- The first bytes of one of the lines. -/
def Beginning (lines : Bytes → Prop) (part : Bytes) : Prop := ∃ line, lines line ∧ part <+: line

/-- **Made of lines.** What went into the buffer and the pipe are beginnings of the lines, one after
    the other.  Of a line that has begun to go in, the rest is still to be written; a line that has
    not is to be written as a whole. -/
structure MadeOf (c : Channel) (lines : Bytes → Prop) : Prop where
  whole : ∀ job ∈ c.jobs, job.deadline = none → ∀ {bytes : Bytes}, job.work = .line bytes →
    lines bytes
  parts : ∃ parts : List Bytes, c.committed = parts.flatten ∧
    (∀ part ∈ parts, Beginning lines part) ∧
      ∀ job ∈ c.jobs, job.deadline ≠ none → ∀ {rest : Bytes}, job.work = .line rest →
        ∃ earlier part, parts = earlier ++ [part] ∧ lines (part ++ rest)

variable {c c' : Channel} {lines lines' : Bytes → Prop}

theorem madeOf_create (capacity timeout : Nat) : (create capacity timeout).MadeOf lines :=
  ⟨nofun, [], rfl, nofun, nofun⟩

/-- There may be more lines. -/
theorem MadeOf.mono (h : c.MadeOf lines) (hlines : ∀ {bytes}, lines bytes → lines' bytes) :
    c.MadeOf lines' := by
  obtain ⟨hwhole, parts, hcommitted, hparts, hbegun⟩ := h
  refine ⟨fun job hjob hnone _ hwork => hlines (hwhole job hjob hnone hwork), parts, hcommitted,
    ?_, ?_⟩
  · intro part hpart
    obtain ⟨line, hline, hprefix⟩ := hparts part hpart
    exact ⟨line, hlines hline, hprefix⟩
  · intro job hjob hsome rest hwork
    obtain ⟨earlier, part, hlast, hline⟩ := hbegun job hjob hsome hwork
    exact ⟨earlier, part, hlast, hlines hline⟩

/-- No bytes go in, and no jobs come up but those to close the channel. -/
theorem MadeOf.still (h : c.MadeOf lines) (hcommitted : c'.committed = c.committed)
    (hjobs : ∀ job ∈ c'.jobs, job ∈ c.jobs ∨ job.work = .close) : c'.MadeOf lines := by
  obtain ⟨hwhole, parts, hsame, hparts, hbegun⟩ := h
  refine ⟨?_, parts, hcommitted.trans hsame, hparts, ?_⟩
  · intro job hjob hnone bytes hwork
    rcases hjobs job hjob with hold | hclose
    · exact hwhole job hold hnone hwork
    · rw [hclose] at hwork
      cases hwork
  · intro job hjob hsome rest hwork
    rcases hjobs job hjob with hold | hclose
    · exact hbegun job hold hsome hwork
    · rw [hclose] at hwork
      cases hwork

theorem MadeOf.start (h : c.MadeOf lines) {work : Work}
    (hwork : ∀ {bytes}, work = .line bytes → lines bytes) : (c.start work).1.MadeOf lines := by
  obtain ⟨hwhole, parts, hsame, hparts, hbegun⟩ := h
  refine ⟨?_, parts, hsame, hparts, ?_⟩
  · intro job hjob hnone bytes hbytes
    rw [start_jobs, List.mem_append, List.mem_singleton] at hjob
    rcases hjob with hjob | rfl
    · exact hwhole job hjob hnone hbytes
    · exact hwork hbytes
  · intro job hjob hsome rest hrest
    rw [start_jobs, List.mem_append, List.mem_singleton] at hjob
    rcases hjob with hjob | rfl
    · exact hbegun job hjob hsome hrest
    · exact absurd rfl hsome

section Operation

variable {clock : Nat} {job : Job} {others : List Job} {next : JobStep}

/-- More of a line goes in: after `part` of it, which is the last that went in, come the bytes
    `taken`, and `rest` is left. -/
theorem madeOf_of_more {earlier : List Bytes} {part taken rest : Bytes}
    (hbefore : c.committed = earlier.flatten ++ part)
    (hafter : c'.committed = c.committed ++ taken)
    (hearlier : ∀ part ∈ earlier, Beginning lines part) (hline : lines (part ++ (taken ++ rest)))
    (hjobs : ∀ job ∈ c'.jobs,
      (job.deadline = none ∧ ∀ {bytes : Bytes}, job.work = .line bytes → lines bytes) ∨
        (job.deadline ≠ none ∧ job.work = .line rest)) : c'.MadeOf lines := by
  rw [← List.append_assoc] at hline
  refine ⟨?_, earlier ++ [part ++ taken], ?_, ?_, ?_⟩
  · intro job hjob hnone bytes hwork
    rcases hjobs job hjob with ⟨-, hwhole⟩ | ⟨hsome, -⟩
    · exact hwhole hwork
    · exact absurd hnone hsome
  · rw [hafter, hbefore, List.append_assoc, List.flatten_append, List.flatten_singleton]
  · intro p hp
    rcases List.mem_append.mp hp with hp | hp
    · exact hearlier p hp
    · rw [List.mem_singleton.mp hp]
      exact ⟨_, hline, List.prefix_append ..⟩
  · intro job hjob hsome rest' hwork
    rcases hjobs job hjob with ⟨hnone, -⟩ | ⟨-, hrest⟩
    · exact absurd hnone hsome
    · rw [hrest] at hwork
      cases hwork
      exact ⟨earlier, _, rfl, hline⟩

/-- A job that has begun writes: of a line more goes in, and else there is nothing to go in. -/
theorem MadeOf.write (h : c.MadeOf lines) (hjob : job ∈ c.jobs) {deadline : Nat}
    (hstart : job.deadline = some deadline) {written : Channel} {rest : Bytes}
    (hwrite : c.write job.work.rest = some (written, rest))
    (hcommitted : c'.committed = written.committed)
    (hjobs : ∀ left ∈ c'.jobs, left = { job with work := job.work.withRest rest } ∨
      (left ∈ c.jobs ∧ left.deadline = none)) : c'.MadeOf lines := by
  obtain ⟨parts, hsame, hparts, hbegun⟩ := h.parts
  obtain ⟨taken, htaken, hgrown⟩ := committed_of_write hwrite
  cases hwork : job.work with
  | close =>
    rw [hwork] at htaken
    obtain ⟨rfl, rfl⟩ := List.append_eq_nil_iff.mp htaken
    refine h.still (by rw [hcommitted, hgrown, List.append_nil]) ?_
    intro left hleft
    rcases hjobs left hleft with rfl | ⟨hmem, -⟩
    · exact .inr (by rw [hwork]; rfl)
    · exact .inl hmem
  | line bytes =>
    rw [hwork] at htaken
    obtain ⟨earlier, part, rfl, hline⟩ := hbegun job hjob (by simp [hstart]) hwork
    rw [List.flatten_append, List.flatten_singleton] at hsame
    refine madeOf_of_more hsame (hcommitted.trans hgrown)
      (fun p hp => hparts p (List.mem_append_left _ hp)) (by rwa [htaken]) ?_
    intro left hleft
    rcases hjobs left hleft with rfl | ⟨hmem, hnone⟩
    · exact .inr ⟨by simp [hstart], by rw [hwork]; rfl⟩
    · exact .inl ⟨hnone, h.whole left hmem hnone⟩

theorem MadeOf.operation (h : c.MadeOf lines) (horderly : c.Orderly)
    (hjobs : c.jobs = job :: others) (hop : Operation c clock job others next) :
    next.channel.MadeOf lines := by
  have hfront : job ∈ c.jobs := by
    rw [hjobs]
    exact List.mem_cons_self
  have hbehind : ∀ other ∈ others, other ∈ c.jobs ∧ other.deadline = none := by
    intro other hother
    exact ⟨by rw [hjobs]; exact List.mem_cons_of_mem _ hother,
      (horderly.behind hjobs).2.2 other hother⟩
  cases hop with
  | refuse | shut => exact h.still rfl fun other hother => .inl (hbehind other hother).1
  | sever =>
    exact h.still (by simp [Channel.committed])
      fun other hother => .inl (hbehind other (by simpa using hother)).1
  | hold hwork =>
    refine h.still rfl ?_
    intro left hleft
    rcases List.mem_cons.mp hleft with rfl | hleft
    · exact .inr hwork
    · exact .inl (hbehind left hleft).1
  | @begin bytes rest c' _ hwork hstart _ hload =>
    -- The line is a new part, of which the bytes that are loaded have gone in.
    obtain ⟨parts, hcommitted, hparts, -⟩ := h.parts
    obtain ⟨hsame, hbytes, taken, htaken⟩ := load_eq hload
    have hline := h.whole job hfront hstart hwork
    refine madeOf_of_more (hcommitted.trans (List.append_nil _).symm) ?_ hparts
      (by rwa [List.nil_append, htaken]) ?_
    · rw [← htaken, ← List.append_assoc, List.append_cancel_right_eq] at hbytes
      show c'.pipe.accepted ++ c'.buffer = c.pipe.accepted ++ c.buffer ++ taken
      rw [hbytes, ← List.append_assoc, hsame]
    · intro left hleft
      rcases List.mem_cons.mp hleft with rfl | hleft
      · exact .inr ⟨by simp, rfl⟩
      · obtain ⟨hmem, hnone⟩ := hbehind left hleft
        exact .inl ⟨hnone, h.whole left hmem hnone⟩
  | expire hstart hwrite =>
    exact h.write hfront hstart hwrite (by simp [Channel.committed])
      fun left hleft => .inr (hbehind left (by simpa using hleft))
  | finish hstart hwrite =>
    refine h.write hfront hstart hwrite ?_
      fun left hleft => .inr (hbehind left (by simpa using hleft))
    rw [complete_channel]
    cases job.work.closes <;> rfl
  | proceed hstart hwrite =>
    refine h.write hfront hstart hwrite rfl ?_
    intro left hleft
    exact (List.mem_cons.mp hleft).imp_right (hbehind left)

theorem MadeOf.poll (h : c.MadeOf lines) (horderly : c.Orderly) (clock ticket : Nat) :
    (c.poll clock ticket).channel.MadeOf lines := by
  rcases c.operation_poll clock ticket with ⟨job, others, hjobs, -, hop⟩ | ⟨-, hpoll⟩
  · exact h.operation horderly hjobs hop
  · rwa [hpoll]

end Operation

end Channel

end Reckoner
