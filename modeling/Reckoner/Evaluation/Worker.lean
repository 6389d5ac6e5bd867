import Reckoner.Evaluation.Queue
import Reckoner.News

/-!
# The evaluation worker

One worker takes requests out of the queue, one at a time, and answers each before it takes the
next.  So all requests of all sessions are answered in the order they were taken in.

* `Worker.take` — takes up a request and evaluates it.
* `Worker.startReply` — starts the reply.
* `Worker.proceed` — carries on with the reply.
* `Worker.completions` — what became of the requests so far, in order.
* `Worker.completionsSince` — what of it a subscriber is told who looks again.
-/

namespace Reckoner

/-- What the worker is doing. -/
inductive WorkerPhase where
  /-- It waits for a request. -/
  | idle
  /-- It is about to write a reply. -/
  | answering (request : Request) (outcome : Outcome)
  /-- It writes a reply. -/
  | replying (request : Request) (outcome : Outcome) (ticket : Nat)
  /-- It has ended, for no one can send requests any more. -/
  | stopped
  /-- It was ended by force. -/
  | killed
  deriving DecidableEq

/-- The worker. -/
structure Worker where
  /-- What it is doing. -/
  phase : WorkerPhase := .idle
  /-- What became of the requests so far. -/
  completions : List Completion := []
  deriving DecidableEq

/-- What a step of the worker leads to. -/
structure WorkerStep where
  /-- The worker after it. -/
  worker : Worker
  /-- The output channel of the request. -/
  output : Channel
  /-- What is logged. -/
  log : List LogEntry := []
  /-- How many operations it took. -/
  effort : Nat := 0

namespace Worker

/-- The worker has ended. -/
def hasEnded (w : Worker) : Bool := w.phase = .stopped || w.phase = .killed

/-- How many completions are kept for subscribers. -/
def keptCompletions : Nat := 256

/-- What a subscriber is told who has seen so many completions. -/
def completionsSince (w : Worker) (seen : Nat) : News Completion :=
  .since keptCompletions w.completions seen

/-- The request that the worker is answering. -/
def request? (w : Worker) : Option Request :=
  match w.phase with
  | .answering request _ | .replying request _ _ => some request
  | .idle | .stopped | .killed => none

/-- The worker after a reply went out or failed. -/
def complete (w : Worker) (request : Request) (outcome : Outcome) (delivered : Bool) : Worker :=
  { phase := .idle,
    completions := w.completions ++ [⟨w.completions.length, request, outcome, delivered⟩] }

/-- Takes up a request.  If the output is broken already, that is all. -/
def take (w : Worker) (request : Request) (output : Channel) : WorkerStep :=
  let outcome := request.outcome
  let log := [request.receivedEntry, request.evaluatedEntry outcome]
  if output.broken then
    { worker := w.complete request outcome false, output,
      log := log ++ [request.undeliveredEntry .broken], effort := 1 }
  else { worker := { w with phase := .answering request outcome }, output, log, effort := 1 }

/-- Starts a reply. -/
def startReply (w : Worker) (request : Request) (outcome : Outcome) (output : Channel) :
    WorkerStep :=
  let (output, ticket) := output.startLine (request.reply outcome).line
  { worker := { w with phase := .replying request outcome ticket }, output }

/-- Carries on with a reply. -/
def proceed (w : Worker) (clock : Nat) (request : Request) (outcome : Outcome) (ticket : Nat)
    (output : Channel) : WorkerStep :=
  let job := output.poll clock ticket
  let (worker, log) := match job.progress with
    | none => (w, [])
    | some (.ok ()) => (w.complete request outcome true, [])
    | some (.error e) => (w.complete request outcome false, [request.undeliveredEntry e])
  { worker, output := job.channel, log, effort := job.effort }

end Worker

end Reckoner
