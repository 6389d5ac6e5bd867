import Reckoner.Channel.Basic
import Mathlib.Data.List.Basic

/-!
# What one operation of a job does

Every operation on an output channel is `Channel.poll`, so everything that can be said about
channels comes down to what it does.  It is said once here:

* `Pipe.put` — a pipe with more bytes in it.
* `Channel.write_eq_some` — writing moves bytes on, from the line through the buffer to the pipe,
  and loses none.
* `Channel.Operation` — all that the job whose turn it is can do, as a relation.
* `Channel.operation_poll` — `Channel.poll` does one of these, or nothing when it is not the
  job's turn.
-/

namespace Reckoner

/-! ### Pipes -/

namespace Pipe

/-- The pipe with more bytes in it. -/
def put (p : Pipe) (part : Bytes) : Pipe :=
  { p with unread := p.unread ++ part, accepted := p.accepted ++ part }

@[simp] theorem put_nil (p : Pipe) : p.put [] = p := by simp [put]

theorem write_eq_some {p p' : Pipe} {bytes rest : Bytes} (h : p.write bytes = some (p', rest)) :
    p.isSevered = false ∧ p' = p.put (bytes.take p.room) ∧ rest = bytes.drop p.room := by
  unfold write at h
  split at h
  · cases h
  · rename_i hsevered
    cases h
    exact ⟨by simpa using hsevered, rfl, rfl⟩

theorem write_eq_none {p : Pipe} {bytes : Bytes} (h : p.write bytes = none) :
    p.isSevered = true := by
  unfold write at h
  split at h
  · assumption
  · cases h

end Pipe

/-! ### Work -/

namespace Work

/-- The work is to close the channel. -/
def closes : Work → Bool
  | line _ => false
  | close => true

@[simp] theorem closes_withRest (w : Work) (rest : Bytes) :
    (w.withRest rest).closes = w.closes := by
  cases w <;> rfl

/-- There are no bytes that the closing job brings along. -/
theorem rest_of_closes {w : Work} (h : w.closes = true) : w.rest = [] := by
  cases w with
  | line rest => cases h
  | close => rfl

end Work

namespace Channel

/-! ### Writing -/

/-- Loading changes nothing but the buffer, and the bytes go there or are given back. -/
theorem load_eq {c c' : Channel} {bytes rest : Bytes} (h : c.load bytes = (c', rest)) :
    c' = { c with buffer := c'.buffer } ∧ c'.buffer ++ rest = c.buffer ++ bytes ∧
      rest <:+ bytes := by
  unfold load at h
  split at h
  · cases h
    exact ⟨rfl, by simp, List.nil_suffix⟩
  · cases h
    exact ⟨rfl, rfl, List.suffix_rfl⟩

/-- The bytes that the next write offers to the pipe: the buffer, or the line if that is empty. -/
def offered (c : Channel) (bytes : Bytes) : Bytes := if c.buffer.isEmpty then bytes else c.buffer

/-- **Writing moves bytes on.** Nothing but the pipe and the buffer changes.  Of the bytes offered
    as many go to the pipe as there is room for, and all others stay, in the buffer or in the rest
    of the line, in the same order. -/
theorem write_eq_some {c c' : Channel} {bytes rest : Bytes}
    (h : c.write bytes = some (c', rest)) :
    c.pipe.isSevered = false ∧
      c' = { c with
        pipe := c.pipe.put ((c.offered bytes).take c.pipe.room), buffer := c'.buffer } ∧
      (c.offered bytes).take c.pipe.room ++ (c'.buffer ++ rest) = c.buffer ++ bytes ∧
      rest <:+ bytes := by
  unfold write at h
  by_cases hempty : c.buffer.isEmpty
  · -- The bytes go to the pipe directly, and what is left may be loaded.
    have hbuffer : c.buffer = [] := List.isEmpty_iff.mp hempty
    rw [if_pos hempty, Option.map_eq_some_iff] at h
    obtain ⟨⟨pipe, left⟩, hwrite, hload⟩ := h
    obtain ⟨hsevered, rfl, rfl⟩ := Pipe.write_eq_some hwrite
    obtain ⟨hsame, hbytes, hrest⟩ := load_eq hload
    rw [offered, if_pos hempty]
    exact ⟨hsevered, hsame, by rw [hbytes, hbuffer]; simp, hrest.trans (List.drop_suffix ..)⟩
  · rw [if_neg hempty, Option.map_eq_some_iff] at h
    obtain ⟨⟨pipe, left⟩, hwrite, hload⟩ := h
    obtain ⟨hsevered, rfl, rfl⟩ := Pipe.write_eq_some hwrite
    rw [offered, if_neg hempty]
    -- The line is loaded only once the whole buffer is in the pipe.
    by_cases hleft : (c.buffer.drop c.pipe.room).isEmpty
    · simp only [if_pos hleft] at hload
      obtain ⟨hsame, hbytes, hrest⟩ := load_eq hload
      refine ⟨hsevered, hsame, ?_, hrest⟩
      rw [hbytes, ← List.append_assoc, List.take_append_drop]
    · simp only [if_neg hleft] at hload
      cases hload
      refine ⟨hsevered, rfl, ?_, List.suffix_rfl⟩
      rw [← List.append_assoc, List.take_append_drop]

theorem write_eq_none {c : Channel} {bytes : Bytes} (h : c.write bytes = none) :
    c.pipe.isSevered = true := by
  unfold write at h
  split at h
  · exact Pipe.write_eq_none (Option.map_eq_none_iff.mp h)
  · exact Pipe.write_eq_none (Option.map_eq_none_iff.mp h)

/-! ### Operations -/

/-- **What the job whose turn it is can do.** The last index is the step that the operation
    leads to; how much effort it took does not matter here. -/
inductive Operation (c : Channel) (clock : Nat) (job : Job) (others : List Job) : JobStep → Prop
    where
  /-- A line that comes to a broken channel fails. -/
  | refuse {bytes : Bytes} {n : Nat} (hwork : job.work = .line bytes) (hstart : job.deadline = none)
      (hbroken : c.broken = true) :
      Operation c clock job others (c.conclude others (.error .broken) n)
  /-- A line takes hold of the channel, and is loaded if it is short. -/
  | begin {bytes rest : Bytes} {c' : Channel} {n : Nat} (hwork : job.work = .line bytes)
      (hstart : job.deadline = none) (hbroken : c.broken = false)
      (hload : c.load bytes = (c', rest)) :
      Operation c clock job others
        ⟨{ c' with jobs := { job with work := .line rest, deadline := some (clock + c.timeout) }
            :: others }, none, n⟩
  /-- The closing job takes hold of the channel, for there are bytes to be flushed. -/
  | hold {n : Nat} (hwork : job.work = .close) (hstart : job.deadline = none)
      (hbuffer : c.buffer ≠ []) :
      Operation c clock job others
        ⟨{ c with jobs := { job with deadline := some (clock + c.timeout) } :: others }, none, n⟩
  /-- The closing job closes the pipe at once. -/
  | shut {n : Nat} (hwork : job.work = .close) (hstart : job.deadline = none)
      (hbuffer : c.buffer = []) :
      Operation c clock job others ({ c with pipe := c.pipe.close }.conclude others (.ok ()) n)
  /-- The job finds an end of the pipe gone. -/
  | sever {deadline n : Nat} (hstart : job.deadline = some deadline)
      (hsevered : c.pipe.isSevered = true) :
      Operation c clock job others (c.fail job.work others (.io brokenPipe) n)
  /-- The job writes, but the pipe is full and the time is up. -/
  | expire {deadline n : Nat} {c' : Channel} {rest : Bytes} (hstart : job.deadline = some deadline)
      (hwrite : c.write job.work.rest = some (c', rest)) (hleft : c'.buffer ++ rest ≠ [])
      (hroom : c'.pipe.room = 0) (htime : deadline ≤ clock) :
      Operation c clock job others (c'.fail job.work others (.timeout c.limit) n)
  /-- The job writes its last bytes. -/
  | finish {deadline n : Nat} {c' : Channel} {rest : Bytes} (hstart : job.deadline = some deadline)
      (hwrite : c.write job.work.rest = some (c', rest)) (hleft : c'.buffer ++ rest = []) :
      Operation c clock job others (c'.complete job.work others n)
  /-- The job writes, and has to go on. -/
  | proceed {deadline n : Nat} {c' : Channel} {rest : Bytes} (hstart : job.deadline = some deadline)
      (hwrite : c.write job.work.rest = some (c', rest)) (hleft : c'.buffer ++ rest ≠ [])
      (htime : c'.pipe.room = 0 → clock < deadline) :
      Operation c clock job others
        ⟨{ c' with jobs := { job with work := job.work.withRest rest } :: others }, none, n⟩

theorem operation_takeHold (c : Channel) (clock : Nat) {job : Job} (others : List Job)
    (hstart : job.deadline = none) :
    Operation c clock job others (c.takeHold clock job others) := by
  unfold takeHold
  cases hwork : job.work with
  | line bytes =>
    by_cases hbroken : c.broken
    · simp only [if_pos hbroken]
      exact .refuse hwork hstart hbroken
    · simp only [if_neg hbroken]
      exact .begin hwork hstart (by simpa using hbroken) rfl
  | close =>
    by_cases hbuffer : c.buffer.isEmpty
    · simp only [if_pos hbuffer]
      exact .shut hwork hstart (List.isEmpty_iff.mp hbuffer)
    · simp only [if_neg hbuffer]
      rw [← hwork]
      exact .hold hwork hstart fun h => hbuffer (List.isEmpty_iff.mpr h)

theorem operation_carryOn (c : Channel) (clock : Nat) {deadline : Nat} {job : Job}
    (others : List Job) (hstart : job.deadline = some deadline) :
    Operation c clock job others (c.carryOn clock deadline job others) := by
  unfold carryOn
  cases hwrite : c.write job.work.rest with
  | none => exact .sever hstart (write_eq_none hwrite)
  | some result =>
    obtain ⟨c', rest⟩ := result
    have hlimit : c'.limit = c.limit := by
      obtain ⟨-, hsame, -, -⟩ := write_eq_some hwrite
      rw [hsame]
      rfl
    by_cases hdone : rest.isEmpty && c'.buffer.isEmpty
    · simp only [if_pos hdone]
      refine .finish hstart hwrite ?_
      simp only [Bool.and_eq_true, List.isEmpty_iff] at hdone
      rw [hdone.1, hdone.2, List.append_nil]
    · have hleft : c'.buffer ++ rest ≠ [] := by
        intro h
        simp [List.append_eq_nil_iff.mp h] at hdone
      simp only [if_neg hdone]
      by_cases htime : c'.pipe.room = 0 ∧ deadline ≤ clock
      · simp only [if_pos htime]
        rw [hlimit]
        exact .expire hstart hwrite hleft htime.1 htime.2
      · simp only [if_neg htime]
        exact .proceed hstart hwrite hleft fun hroom => by omega

/-- **One operation.** If it is the turn of the job of a ticket, polling does one of its operations;
    else it does nothing. -/
theorem operation_poll (c : Channel) (clock ticket : Nat) :
    (∃ job others, c.jobs = job :: others ∧ job.ticket = ticket ∧
        Operation c clock job others (c.poll clock ticket)) ∨
      ((∀ job ∈ c.jobs.head?, job.ticket ≠ ticket) ∧ c.poll clock ticket = ⟨c, none, 0⟩) := by
  unfold poll
  cases hjobs : c.jobs with
  | nil => exact .inr ⟨by simp, rfl⟩
  | cons job others =>
    by_cases hticket : job.ticket = ticket
    · refine .inl ⟨job, others, rfl, hticket, ?_⟩
      simp only [hticket, ne_eq, not_true_eq_false, if_false]
      cases hstart : job.deadline with
      | none => exact operation_takeHold c clock others hstart
      | some deadline => exact operation_carryOn c clock others hstart
    · exact .inr ⟨by simpa using hticket, by simp [hticket]⟩

/-! ### What operations have in common -/

/-- A job that fails breaks the channel if it was to write a line. -/
@[simp] theorem fail_channel (c : Channel) (w : Work) (others : List Job) (e : WriteError)
    (n : Nat) : (c.fail w others e n).channel
      = { c with broken := c.broken || !w.closes, jobs := others } := by
  cases w <;> simp [fail, conclude, Work.closes]

@[simp] theorem fail_progress (c : Channel) (w : Work) (others : List Job) (e : WriteError)
    (n : Nat) : (c.fail w others e n).progress
      = some (if w.closes then .ok () else .error e) := by
  cases w <;> rfl

@[simp] theorem complete_channel (c : Channel) (w : Work) (others : List Job) (n : Nat) :
    (c.complete w others n).channel
      = { c with pipe := if w.closes then c.pipe.close else c.pipe, jobs := others } := by
  cases w <;> rfl

@[simp] theorem complete_progress (c : Channel) (w : Work) (others : List Job) (n : Nat) :
    (c.complete w others n).progress = some (.ok ()) := by
  cases w <;> rfl

section Operation

variable {c : Channel} {clock : Nat} {job : Job} {others : List Job} {next : JobStep}

/-- The job stays in front, as the same kind of job under the same ticket, until it has a result;
    then the next one has its turn. -/
theorem Operation.jobs (h : Operation c clock job others next) :
    (∃ result, next.progress = some result ∧ next.channel.jobs = others) ∨
      (next.progress = none ∧ ∃ job', next.channel.jobs = job' :: others ∧
        job'.ticket = job.ticket ∧ job'.work.closes = job.work.closes) := by
  cases h with
  | refuse hwork hstart hbroken => exact .inl ⟨_, rfl, rfl⟩
  | begin hwork hstart hbroken hload => exact .inr ⟨rfl, _, rfl, rfl, by rw [hwork]; rfl⟩
  | hold hwork hstart hbuffer => exact .inr ⟨rfl, _, rfl, rfl, rfl⟩
  | shut hwork hstart hbuffer => exact .inl ⟨_, rfl, rfl⟩
  | sever hstart hsevered => exact .inl ⟨_, fail_progress .., by simp⟩
  | expire hstart hwrite hleft hroom htime => exact .inl ⟨_, fail_progress .., by simp⟩
  | finish hstart hwrite hleft => exact .inl ⟨_, complete_progress .., by simp⟩
  | proceed hstart hwrite hleft htime => exact .inr ⟨rfl, _, rfl, rfl, by simp⟩

/-- What a write leaves alone. -/
theorem write_frame {c c' : Channel} {bytes rest : Bytes} (h : c.write bytes = some (c', rest)) :
    c'.broken = c.broken ∧ c'.nextTicket = c.nextTicket ∧ c'.timeout = c.timeout ∧
      c'.pipe.capacity = c.pipe.capacity ∧ c.pipe.accepted <+: c'.pipe.accepted := by
  obtain ⟨-, hsame, -, -⟩ := write_eq_some h
  rw [hsame]
  exact ⟨rfl, rfl, rfl, rfl, List.prefix_append ..⟩

theorem Operation.nextTicket (h : Operation c clock job others next) :
    next.channel.nextTicket = c.nextTicket := by
  cases h with
  | refuse | hold | shut => rfl
  | begin _ _ _ hload => rw [(load_eq hload).1]
  | sever => simp
  | expire _ hwrite => simpa using (write_frame hwrite).2.1
  | finish _ hwrite => simpa using (write_frame hwrite).2.1
  | proceed _ hwrite => exact (write_frame hwrite).2.1

/-- The channel breaks when a line fails, but not because the channel was broken already. -/
theorem Operation.broken (h : Operation c clock job others next) :
    next.channel.broken = true ↔
      c.broken = true ∨ ∃ e, next.progress = some (.error e) ∧ e ≠ .broken := by
  cases h with
  | refuse | hold | shut => simp [conclude]
  | begin _ _ _ hload => rw [(load_eq hload).1]; simp
  | sever => cases hw : job.work <;> simp [Work.closes]
  | expire _ hwrite =>
    have hsame := (write_frame hwrite).1
    cases hw : job.work <;> simp [Work.closes, hsame]
  | finish _ hwrite => simp [(write_frame hwrite).1]
  | proceed _ hwrite => simp [(write_frame hwrite).1]

/-- On a broken channel a line that has not begun fails, so only a closing job goes on. -/
theorem Operation.closes_of_broken (h : Operation c clock job others next)
    (hbroken : c.broken = true) (hhalted : job.work.closes = false → job.deadline = none)
    (hnone : next.progress = none) : job.work.closes = true := by
  by_contra hline
  have hunbegun := hhalted (by simpa using hline)
  cases h with
  | refuse => cases hnone
  | begin _ _ hsound => simp [hbroken] at hsound
  | hold hwork => simp [hwork, Work.closes] at hline
  | shut => cases hnone
  | sever hstart | expire hstart | finish hstart | proceed hstart => simp [hunbegun] at hstart

/-- The pipe only ever takes bytes in addition. -/
theorem Operation.accepted_prefix (h : Operation c clock job others next) :
    c.pipe.accepted <+: next.channel.pipe.accepted := by
  cases h with
  | refuse | hold | shut => exact List.prefix_rfl
  | begin _ _ _ hload =>
    have hpipe := congrArg (fun c => c.pipe.accepted) (load_eq hload).1
    exact ⟨[], by rw [List.append_nil]; exact hpipe.symm⟩
  | sever => simp
  | expire _ hwrite => simpa using (write_frame hwrite).2.2.2.2
  | finish _ hwrite =>
    have hprefix := (write_frame hwrite).2.2.2.2
    rw [complete_channel]
    split <;> exact hprefix
  | proceed _ hwrite => exact (write_frame hwrite).2.2.2.2

end Operation

end Channel

end Reckoner
