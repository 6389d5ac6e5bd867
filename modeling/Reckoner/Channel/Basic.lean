import Reckoner.Channel.Pipe
import Reckoner.Text.Span

/-!
# Output channels

The lines for one client come from two sides: its session and the evaluation of its requests.
Both write through one `Channel`, which takes up one job at a time, in the order they were
started, so that lines are never mixed.

* `Channel.startLine`, `Channel.startClose` — queue up a job and give out a ticket for it.
* `Channel.poll` — does the next operation of the job of a ticket, if its turn has come: it takes
  hold of the channel, and then writes to the pipe, once or more often.
* `Channel.abandon` — gives up the job of a ticket.

A line that cannot be written in time, or to a client that is gone, breaks the channel: lines
that come later, or were waiting, fail at once and write nothing.  The time allowed for a job
starts when its turn comes.

Short lines pass through a buffer, long ones go to the pipe directly.  A job to close flushes the
buffer first, and it does so even if the line before it has broken the channel meanwhile.
-/

namespace Reckoner

/-! ### Errors -/

/-- Why a line was not written. -/
inductive WriteError where
  /-- The pipe refused it. -/
  | io (reason : String)
  /-- It took longer than allowed. -/
  | timeout (limit : Span)
  /-- A line before it has failed. -/
  | broken
  deriving DecidableEq, Repr

/-- The error in words. -/
def WriteError.message : WriteError → String
  | io reason => "I/O error: " ++ reason
  | timeout limit => "Write timed out after " ++ limit.text
  | broken => "Output channel broken by an earlier failed write"

/-- The reason that a severed pipe gives. -/
def brokenPipe : String := "broken pipe"

/-! ### Jobs -/

/-- What a job has to do. -/
inductive Work where
  /-- Write a line; these of its bytes are neither in the buffer nor in the pipe. -/
  | line (rest : Bytes)
  /-- Close the pipe. -/
  | close
  deriving DecidableEq

namespace Work

/-- The bytes that are left to write. -/
def rest : Work → Bytes
  | line rest => rest
  | close => []

/-- The same with other bytes left to write. -/
def withRest : Work → Bytes → Work
  | line _, rest => line rest
  | close, _ => close

end Work

/-- A job on a channel. -/
structure Job where
  /-- The ticket that was given out for it. -/
  ticket : Nat
  /-- What is left to do. -/
  work : Work
  /-- When it has to be done; set once its turn has come. -/
  deadline : Option Nat := none
  deriving DecidableEq

/-! ### Channels -/

/-- How many bytes the buffer holds. -/
def bufferSize : Nat := 8192

/-- The output side of a connection. -/
structure Channel where
  /-- Where the bytes go. -/
  pipe : Pipe
  /-- How many milliseconds a job may take. -/
  timeout : Nat
  /-- A line has failed. -/
  broken : Bool := false
  /-- Bytes of a line that are not in the pipe yet. -/
  buffer : Bytes := []
  /-- The jobs, the one whose turn it is first. -/
  jobs : List Job := []
  /-- The next ticket. -/
  nextTicket : Nat := 0
  deriving DecidableEq

namespace Channel

/-- A channel on a new pipe. -/
def create (capacity timeout : Nat) : Channel := { pipe := { capacity }, timeout }

/-- The time that a job may take. -/
def limit (c : Channel) : Span := .ofMillis c.timeout

/-! ### Starting and abandoning jobs -/

/-- Puts a job behind the others. -/
def start (c : Channel) (work : Work) : Channel × Nat :=
  ({ c with jobs := c.jobs ++ [{ ticket := c.nextTicket, work }], nextTicket := c.nextTicket + 1 },
    c.nextTicket)

/-- Starts a line.  Whoever does so looks first whether the channel is broken. -/
def startLine (c : Channel) (line : Bytes) : Channel × Nat := c.start (.line line)

/-- Starts to close.  On a broken channel there is nothing to do. -/
def startClose (c : Channel) : Channel × Nat := c.start .close

/-- The job of a ticket is neither done nor given up. -/
def hasJob (c : Channel) (ticket : Nat) : Bool := c.jobs.any fun job => job.ticket = ticket

/-- Gives up a job.  What it has put into the buffer stays there. -/
def abandon (c : Channel) (ticket : Nat) : Channel :=
  { c with jobs := c.jobs.filter fun job => job.ticket ≠ ticket }

/-! ### Writing -/

/-- Puts the bytes of a line into the buffer, if they are few enough to go through it and fit
    behind what it holds.  Those that are not are given back. -/
def load (c : Channel) (bytes : Bytes) : Channel × Bytes :=
  if bytes.length < bufferSize ∧ c.buffer.length + bytes.length ≤ bufferSize then
    ({ c with buffer := c.buffer ++ bytes }, [])
  else (c, bytes)

/-- Writes to the pipe once: what is in the buffer, or if there is nothing, the bytes given.  The
    bytes that are in neither of them then are given back.  There is no result if the pipe is
    severed. -/
def write (c : Channel) (bytes : Bytes) : Option (Channel × Bytes) :=
  if c.buffer.isEmpty then
    (c.pipe.write bytes).map fun (pipe, rest) => { c with pipe }.load rest
  else
    (c.pipe.write c.buffer).map fun (pipe, buffer) =>
      if buffer.isEmpty then { c with pipe, buffer }.load bytes else ({ c with pipe, buffer }, bytes)

/-! ### Carrying on -/

/-- What has become of a job: nothing yet, or that it was done or has failed. -/
abbrev Progress := Option (Except WriteError Unit)

/-- What a step of a job leads to. -/
structure JobStep where
  /-- The channel after it. -/
  channel : Channel
  /-- What has become of the job. -/
  progress : Progress := none
  /-- How many operations it took.  To find that the time is up is one, too. -/
  effort : Nat

/-- The job is done, or has failed; the next has its turn. -/
def conclude (c : Channel) (others : List Job) (result : Except WriteError Unit)
    (effort : Nat) : JobStep :=
  ⟨{ c with jobs := others }, some result, effort⟩

/-- A job fails.  That breaks the channel if it was to write a line, and is passed over if it was
    to close. -/
def fail (c : Channel) (work : Work) (others : List Job) (e : WriteError) (effort : Nat) :
    JobStep :=
  match work with
  | .line _ => { c with broken := true }.conclude others (.error e) effort
  | .close => c.conclude others (.ok ()) effort

/-- The turn of a job has come, and it takes hold of the channel.  A line fails if the channel was
    broken meanwhile.  If nothing is to be flushed, the pipe is closed at once. -/
def takeHold (c : Channel) (clock : Nat) (job : Job) (others : List Job) : JobStep :=
  let deadline := some (clock + c.timeout)
  match job.work with
  | .line bytes =>
    if c.broken then c.conclude others (.error .broken) 1
    else
      let (c, rest) := c.load bytes
      ⟨{ c with jobs := { job with work := .line rest, deadline } :: others }, none, 1⟩
  | .close =>
    if c.buffer.isEmpty then { c with pipe := c.pipe.close }.conclude others (.ok ()) 1
    else ⟨{ c with jobs := { job with deadline } :: others }, none, 1⟩

/-- The job is at its end: all its bytes are in the pipe. -/
def complete (c : Channel) (work : Work) (others : List Job) (effort : Nat) : JobStep :=
  match work with
  | .line _ => c.conclude others (.ok ()) effort
  | .close => { c with pipe := c.pipe.close }.conclude others (.ok ()) effort

/-- A job that has hold of the channel writes once.  Only if the pipe is full then, the deadline is
    looked at. -/
def carryOn (c : Channel) (clock deadline : Nat) (job : Job) (others : List Job) : JobStep :=
  let effort := if c.pipe.room = 0 then 0 else 1
  match c.write job.work.rest with
  | none => c.fail job.work others (.io brokenPipe) 1
  | some (c, rest) =>
    if rest.isEmpty && c.buffer.isEmpty then c.complete job.work others effort
    else if c.pipe.room = 0 ∧ deadline ≤ clock then
      c.fail job.work others (.timeout c.limit) (effort + 1)
    else ⟨{ c with jobs := { job with work := job.work.withRest rest } :: others }, none, effort⟩

/-- Does the next operation of the job of a ticket, if its turn has come. -/
def poll (c : Channel) (clock ticket : Nat) : JobStep :=
  match c.jobs with
  | [] => ⟨c, none, 0⟩
  | job :: others =>
    if job.ticket ≠ ticket then ⟨c, none, 0⟩
    else
      match job.deadline with
      | none => c.takeHold clock job others
      | some deadline => c.carryOn clock deadline job others

/-- The job of a ticket need not wait. -/
def isReady (c : Channel) (clock : Nat) (ticket : Nat) : Bool :=
  match c.jobs with
  | [] => false
  | job :: _ =>
    job.ticket = ticket &&
      (c.pipe.isSevered || 0 < c.pipe.room || (job.deadline.getD 0) ≤ clock)

/-- When the job whose turn it is has to be done. -/
def deadline? (c : Channel) : Option Nat := c.jobs.head?.bind Job.deadline

/-- The channel as reports show it. -/
def debugText (c : Channel) : String :=
  "SessionWriter \x7b write_timeout: " ++ c.limit.text ++ ", broken: " ++ toString c.broken ++
    ", .. \x7d"

end Channel

end Reckoner
