import Reckoner.Proofs.Channel.Job
import Reckoner.Proofs.Expr.Faults
import Reckoner.Proofs.Wire.OneLine
import Reckoner.Session.Basic

/-!
# Every log entry is one line

An entry tells the label of a client, and in its detail some words of the program, numbers, and
texts of the client.  None of them holds a line feed if the texts of the client do not.

* `LogEntry.IsLine`, `LogEntry.IsLine.notMem_text` — an entry that is one line.
* `WriteError.IsLine`, `SessionError.IsLine` — errors with a message of one line.
* `Channel.isLine_of_poll` — the errors that writing leads to are such.
* `Request.IsLine` — a request whose entries are all one line.
-/

namespace Reckoner

/-- There is no line feed in the entry. -/
structure LogEntry.IsLine (e : LogEntry) : Prop where
  client : '\n' ∉ e.client.toList
  detail : '\n' ∉ e.detail.toList

/-- Nor is there one in its text. -/
theorem LogEntry.IsLine.notMem_text {e : LogEntry} (h : e.IsLine) (moment : Timestamp) :
    '\n' ∉ (e.text moment.text).toList := by
  have hkind : '\n' ∉ e.kind.label.toList := by cases e.kind <;> decide
  have hmoment : '\n' ∉ ("[" ++ moment.text ++ "] ").toList :=
    notMem_append (notMem_append (by decide) moment.notMem_text) (by decide)
  have hclient : '\n' ∉ ("[" ++ moment.text ++ "] " ++ e.kind.label ++ " - " ++ e.client).toList :=
    notMem_append (notMem_append (notMem_append hmoment hkind) (by decide)) h.client
  exact notMem_append (notMem_append hclient (by decide)) h.detail

/-! ### Errors -/

/-- There is no line feed in the message of the error. -/
def WriteError.IsLine (e : WriteError) : Prop := '\n' ∉ e.message.toList

theorem WriteError.isLine_broken : broken.IsLine := by
  show '\n' ∉ (message broken).toList
  decide

theorem WriteError.isLine_timeout (limit : Span) : (timeout limit).IsLine :=
  notMem_append (by decide) limit.notMem_text

/-- What writing to a pipe can fail with is told on one line. -/
theorem Channel.isLine_of_poll {c : Channel} {clock ticket : Nat} {e : WriteError}
    (h : (c.poll clock ticket).progress = some (.error e)) : e.IsLine := by
  rcases c.operation_poll clock ticket with ⟨job, others, -, -, hop⟩ | ⟨-, hnone⟩
  · generalize c.poll clock ticket = next at hop h
    cases hop with
    | refuse =>
      cases h
      exact WriteError.isLine_broken
    | sever =>
      rw [fail_progress] at h
      split at h <;> cases h
      show '\n' ∉ (WriteError.io brokenPipe).message.toList
      decide
    | expire =>
      rw [fail_progress] at h
      split at h <;> cases h
      exact WriteError.isLine_timeout c.limit
    | finish =>
      rw [complete_progress] at h
      cases h
    | begin | hold | shut | proceed => cases h
  · rw [hnone] at h
    cases h

theorem QueueError.notMem_message (e : QueueError) : '\n' ∉ e.message.toList := by
  cases e with
  | full capacity =>
    exact notMem_append (notMem_append (by decide) (notMem_toString capacity)) (by decide)
  | closed => decide

/-- There is no line feed in the message of the error. -/
def SessionError.IsLine (e : SessionError) : Prop := '\n' ∉ e.message.toList

namespace SessionError

theorem isLine_io {reason : String} (h : '\n' ∉ reason.toList) : (io reason).IsLine :=
  notMem_append (by decide) h

theorem isLine_timeout (limit : Span) : (timeout limit).IsLine :=
  notMem_append (by decide) limit.notMem_text

theorem isLine_lineTooLong (longest : Nat) : (lineTooLong longest).IsLine :=
  notMem_append (notMem_append (by decide) (notMem_toString longest)) (by decide)

theorem isLine_write {e : WriteError} (h : e.IsLine) : (write e).IsLine :=
  notMem_append (by decide) h

theorem isLine_registryClosed : registryClosed.IsLine := by
  show '\n' ∉ (message registryClosed).toList
  decide

theorem isLine_queueClosed : queueClosed.IsLine := by
  show '\n' ∉ (message queueClosed).toList
  decide

end SessionError

/-- Of a malformed line at most a part is repeated. -/
theorem Malformed.notMem_message {line : String} {reason : Malformed} (hline : '\n' ∉ line.toList)
    (h : Command.ofLine line = .malformed reason) : '\n' ∉ reason.message.toList := by
  cases reason with
  | unknownCommand keyword =>
    refine notMem_append (by decide) (Command.notMem_of_fields hline ?_)
    rw [h]
    exact List.mem_cons_self
  | missingSeparator | missingExpression | emptyName => decide

/-! ### Requests -/

namespace Request

/-- There is no line feed in the request. -/
structure IsLine (r : Request) : Prop where
  client : '\n' ∉ r.client.toList
  expression : '\n' ∉ r.expression.toList

variable {r : Request}

theorem IsLine.received (h : r.IsLine) : r.receivedEntry.IsLine :=
  ⟨h.client, notMem_append (by decide) h.expression⟩

theorem isLine_of_outcome {e : EvalError} (h : r.outcome = .error e) : e.IsLine := by
  rw [outcome] at h
  cases hvalue : evaluate r.expression with
  | error first =>
    rw [hvalue] at h
    cases h
    exact isLine_of_evaluate hvalue
  | ok v =>
    rw [hvalue] at h
    cases h

theorem IsLine.evaluated (h : r.IsLine) : (r.evaluatedEntry r.outcome).IsLine := by
  cases houtcome : r.outcome with
  | ok value =>
    exact ⟨h.client, notMem_append (notMem_append h.expression (by decide)) (notMem_value houtcome)⟩
  | error e =>
    have hmessage : e.IsLine := isLine_of_outcome houtcome
    exact ⟨h.client, notMem_append
      (notMem_append (notMem_append (by decide) h.expression) (by decide)) hmessage⟩

theorem IsLine.undelivered (h : r.IsLine) {e : WriteError} (he : e.IsLine) :
    (r.undeliveredEntry e).IsLine :=
  ⟨h.client, notMem_append (by decide) he⟩

end Request

end Reckoner
