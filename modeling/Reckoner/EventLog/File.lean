import Reckoner.EventLog.Entry
import Reckoner.Files.Tree
import Reckoner.Text.Quoted

/-!
# The log file

Entries go to a file, one line each, or nowhere if there is none.  Opening the file makes the
directories above it and empties it, so each run of the service has a log of its own.
-/

namespace Reckoner

/-- The log file cannot be opened. -/
structure EventLogError where
  /-- The path of the file. -/
  path : String
  /-- What is wrong with it. -/
  reason : String
  deriving DecidableEq, Repr

/-- The error in words. -/
def EventLogError.message (e : EventLogError) : String :=
  "Failed to open event log at " ++ e.path ++ ": " ++ e.reason

/-- Where entries go. -/
structure EventLog where
  /-- The path of the file, if there is one. -/
  path : Option String := none
  deriving DecidableEq, Repr

namespace EventLog

/-- Opens the file, makes what is missing above it, and empties it. -/
def openFile (files : FileTree) (path : String) : Except EventLogError (EventLog × FileTree) :=
  match files.createAbove path >>= fun files => files.openEmpty path with
  | .ok files => .ok (⟨some path⟩, files)
  | .error e => .error ⟨path, e.message⟩

/-- Puts an entry into the file. -/
def record (log : EventLog) (files : FileTree) (time : String) (e : LogEntry) : FileTree :=
  match log.path with
  | none => files
  | some path => files.append path (utf8 (e.text time) ++ [lineFeed])

/-- The log as reports show it. -/
def debugText (log : EventLog) : String :=
  let path := match log.path with
    | none => "None"
    | some path => "Some(" ++ Quoted.encode path ++ ")"
  "EventLog \x7b path: " ++ path ++ " \x7d"

end EventLog

end Reckoner
