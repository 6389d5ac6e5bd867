import Reckoner.CommandLine.Run
import Std.Time

/-!
# The host of the program

What a run takes from the host it runs on: the reasons of failures, the time, the settings files,
and the log file.
-/

namespace Reckoner

namespace Gateway

/-! ### Failures -/

/-- The number that an error of the host comes with. -/
def rawNumber? : IO.Error → Option UInt32
  | .alreadyExists _ n _ => some n
  | .otherError n _ => some n
  | .resourceBusy n _ => some n
  | .resourceVanished n _ => some n
  | .unsupportedOperation n _ => some n
  | .hardwareFault n _ => some n
  | .unsatisfiedConstraints n _ => some n
  | .illegalOperation n _ => some n
  | .protocolError n _ => some n
  | .timeExpired n _ => some n
  | .interrupted _ n _ => some n
  | .noFileOrDirectory _ n _ => some n
  | .invalidArgument _ n _ => some n
  | .permissionDenied _ n _ => some n
  | .resourceExhausted _ n _ => some n
  | .inappropriateType _ n _ => some n
  | .noSuchThing _ n _ => some n
  | .unexpectedEof | .userError _ => none

/-- The number of an error of the host.  Errors of the network come with it negated, in 32 bits. -/
def errorNumber? (e : IO.Error) : Option Nat :=
  (rawNumber? e).map fun n => if Nat.pow 2 31 < n.toNat then Nat.pow 2 32 - n.toNat else n.toNat

/-- The reason of an error of the host. -/
def reason (e : IO.Error) : String :=
  match errorNumber? e with
  | some 2 => FileError.notFound.message
  | some 13 => "Permission denied (os error 13)"
  | some 17 => FileError.alreadyExists.message
  | some 20 => FileError.notDirectory.message
  | some 21 => FileError.isDirectory.message
  | some 22 => ListenError.unsuitable.message
  | some 36 => FileError.nameTooLong.message
  | some 98 => ListenError.inUse.message
  | some 99 => ListenError.notLocal.message
  | _ => toString e

/-! ### Time -/

/-- The local time as log entries tell it; the universal time on a host that has no time zone. -/
def timeText : IO String := do
  let seconds ← try
      pure (← Std.Time.PlainDateTime.now).toWallTime.toSeconds.val
    catch _ => pure (← Std.Time.Timestamp.now).toSecondsSinceUnixEpoch.val
  return (Timestamp.ofSeconds seconds).text

/-! ### Settings files -/

/-- What the surroundings say about settings. -/
def surroundings : IO Settings.Surroundings := do
  return {
    port := ← IO.getEnv "MATHQ_PORT"
    address := ← IO.getEnv "MATHQ_BIND"
    usualPath := Settings.usualPath? (← IO.getEnv "XDG_CONFIG_HOME") (← IO.getEnv "HOME") }

/-- A tree of no files, seen from the directory that the program runs in. -/
def emptyTree : IO FileTree := do
  match FileTree.emptyAt ((← IO.getEnv "PWD").getD "/") with
  | .ok files => return files
  | .error _ => return .empty

/-- A tree with a file of the host put in, if it is there. -/
def withFile (files : FileTree) (path : String) : IO FileTree := do
  try
    let content ← IO.FS.readBinFile path
    match files.withFile path content.toList with
    | .ok files => return files
    | .error _ => return files
  catch _ => return files

/-- The files that settings may come from. -/
def settingsFiles (a : Arguments) (around : Settings.Surroundings) : IO FileTree := do
  let mut files ← emptyTree
  for path in around.usualPath.toList ++ a.settingsPath.toList do
    files ← withFile files path
  return files

/-! ### The log file -/

/-- A log file that is open, if there is one. -/
abbrev LogFile := Option IO.FS.Handle

/-- Opens the log file and empties it. -/
def openLog (settings : Settings) : IO (Except EventLogError LogFile) := do
  match settings.logPath with
  | none => return .ok none
  | some path =>
    try
      if let some above := (FileTree.above path).head? then IO.FS.createDirAll above
      return .ok (some (← IO.FS.Handle.mk path .write))
    catch e => return .error ⟨path, reason e⟩

/-- Writes entries to the log file, if there is one. -/
def writeEntries (log : LogFile) (entries : List LogEntry) : IO Unit := do
  match log with
  | none => pure ()
  | some handle =>
    for e in entries do
      handle.putStrLn (e.text (← timeText))
    handle.flush

end Gateway

end Reckoner
