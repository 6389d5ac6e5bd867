import Reckoner.Files.Tree
import Reckoner.Net.Address
import Reckoner.Settings.Document
import Reckoner.Text.Blank
import Reckoner.Text.Span

/-!
# Settings of the service

* `Settings` — the settings, with their defaults.
* `Settings.ofDocument` — the settings of a document; entries that it lacks keep their defaults.
* `Settings.override` — a port and an address given as text take the place of those set before.
* `Settings.check` — whether the service can run with the settings.
* `Settings.load` — a file, or the file at the usual place if there is one, then the overrides,
  then the check.
-/

namespace Reckoner

/-! ### Errors -/

/-- Why there are no usable settings. -/
inductive SettingsError where
  /-- The file cannot be read. -/
  | unreadable (path reason : String)
  /-- The file holds no settings document. -/
  | malformed (detail : String)
  /-- A value is out of its range. -/
  | invalid (field value : String)
  deriving DecidableEq, Repr

/-- The error in words. -/
def SettingsError.message : SettingsError → String
  | unreadable path reason => "Failed to read config file " ++ path ++ ": " ++ reason
  | malformed detail => "Failed to parse config: " ++ detail
  | invalid field value => "Invalid " ++ field ++ ": " ++ value

/-! ### The settings -/

/-- The settings of the service. -/
structure Settings where
  /-- The address to listen on. -/
  bindAddress : String := "0.0.0.0"
  /-- The port to listen on; zero takes any free one. -/
  port : UInt16 := 12345
  /-- How many sessions there may be at a time. -/
  maxSessions : Nat := 5
  /-- How many requests may wait. -/
  queueCapacity : Nat := 1024
  /-- For how many seconds a session may wait for a line. -/
  readTimeoutSecs : Nat := 300
  /-- For how many seconds the writing of one response may take. -/
  writeTimeoutSecs : Nat := 10
  /-- How many bytes a line may have, its end not counted. -/
  maxLineLength : Nat := 65536
  /-- The file that events are logged to; empty for none. -/
  logFile : String := "logs/server.log"
  deriving DecidableEq

namespace Settings

/-! ### Documents -/

/-- A number that is not negative. -/
def count? : Setting → Option Nat
  | .integer (.ofNat n) => some n
  | _ => none

/-- A port number. -/
def port? (s : Setting) : Option UInt16 := do
  let n ← count? s
  if n < 65536 then some (UInt16.ofNat n) else none

/-- A string. -/
def text? : Setting → Option String
  | .text s => some s
  | .integer _ => none

/-- The settings with one entry of a document put in; an unknown key or a value of the wrong kind
    is refused. -/
def set (s : Settings) : String × Setting → Option Settings
  | ("bind_address", v) => do return { s with bindAddress := ← text? v }
  | ("port", v) => do return { s with port := ← port? v }
  | ("max_sessions", v) => do return { s with maxSessions := ← count? v }
  | ("queue_capacity", v) => do return { s with queueCapacity := ← count? v }
  | ("read_timeout_secs", v) => do return { s with readTimeoutSecs := ← count? v }
  | ("write_timeout_secs", v) => do return { s with writeTimeoutSecs := ← count? v }
  | ("max_line_length", v) => do return { s with maxLineLength := ← count? v }
  | ("log_file", v) => do return { s with logFile := ← text? v }
  | _ => none

/-- The settings of a document. -/
def ofDocument (document : String) : Except SettingsError Settings :=
  match Document.entries? document >>= fun entries => entries.foldlM set {} with
  | some s => .ok s
  | none => .error (.malformed "")

/-! ### Overrides -/

/-- The port that a text names: decimal digits up to 65535, a plus sign allowed before them. -/
def portOfText? (text : List Char) : Option UInt16 :=
  let digits := match text with
    | '+' :: rest => rest
    | s => s
  if digits.isEmpty || !digits.all Char.isDigit then none
  else
    let n := digits.foldl (fun n c => 10 * n + (c.toNat - '0'.toNat)) 0
    if n < 65536 then some (UInt16.ofNat n) else none

/-- The port put in from text, where there is one; blanks around it do not count. -/
def overridePort (s : Settings) : Option String → Except SettingsError Settings
  | none => .ok s
  | some text =>
    match portOfText? (trimBlanks text.toList) with
    | some port => .ok { s with port }
    | none => .error (.invalid "port" text)

/-- The address put in from text, where there is one, without the blanks around it. -/
def overrideAddress (s : Settings) : Option String → Settings
  | none => s
  | some text => { s with bindAddress := String.ofList (trimBlanks text.toList) }

/-- A port and an address given as text.  With a bad port the address is not looked at. -/
def override (s : Settings) (port address : Option String) : Except SettingsError Settings := do
  let s ← s.overridePort port
  return s.overrideAddress address

/-! ### The check -/

/-- The address to listen on. -/
def socketAddress (s : Settings) : Except SettingsError SocketAddress :=
  match IpAddress.ofText? s.bindAddress with
  | some ip => .ok { ip, port := s.port }
  | none => .error (.invalid "bind_address" s.bindAddress)

/-- A limit must not be zero. -/
def checkLimit (field : String) (n : Nat) : Except SettingsError Unit :=
  if n = 0 then .error (.invalid field "0") else .ok ()

/-- Whether the service can run with the settings; the first fault if not. -/
def check (s : Settings) : Except SettingsError Unit := do
  let _ ← s.socketAddress
  checkLimit "max_sessions" s.maxSessions
  checkLimit "queue_capacity" s.queueCapacity
  checkLimit "max_line_length" s.maxLineLength

/-! ### Loading -/

/-- The settings of a file. -/
def ofFile (files : FileTree) (path : String) : Except SettingsError Settings :=
  match files.readText path with
  | .ok document => ofDocument document
  | .error e => .error (.unreadable path e.message)

/-- A path in a directory. -/
def inDirectory (directory path : String) : String :=
  if directory.endsWith "/" then directory ++ path else directory ++ "/" ++ path

/-- The usual place of the settings file, given the directory for settings and that of the user.
    The first counts only as a path from the root. -/
def usualPath? (settingsDirectory userDirectory : Option String) : Option String :=
  let directory := match settingsDirectory.filter fun d => d.startsWith "/" with
    | some d => some d
    | none => (userDirectory.filter fun d => d ≠ "").map fun d => inDirectory d ".config"
  directory.map fun d => inDirectory d "mathq/mathqd.toml"

/-- What the surroundings of a process say about settings. -/
structure Surroundings where
  /-- The value of `MATHQ_PORT`, if it is set. -/
  port : Option String := none
  /-- The value of `MATHQ_BIND`, if it is set. -/
  address : Option String := none
  /-- The usual place of the settings file, if there is one. -/
  usualPath : Option String := none

/-- The settings of a file, given or at the usual place; without either, the defaults. -/
def ofFiles (files : FileTree) (path usualPath : Option String) : Except SettingsError Settings :=
  match path, usualPath with
  | some path, _ => ofFile files path
  | none, some usual => if files.hasNode usual then ofFile files usual else .ok {}
  | none, none => .ok {}

/-- The checked settings of a file and the surroundings. -/
def load (files : FileTree) (path : Option String) (around : Surroundings) :
    Except SettingsError Settings := do
  let s ← ofFiles files path around.usualPath
  let s ← s.override around.port around.address
  s.check
  return s

/-! ### Read-outs -/

/-- How long a session may wait for a line. -/
def readTimeout (s : Settings) : Span := .ofSeconds s.readTimeoutSecs

/-- How long the writing of one response may take. -/
def writeTimeout (s : Settings) : Span := .ofSeconds s.writeTimeoutSecs

/-- The file that events are logged to, if any. -/
def logPath (s : Settings) : Option String := if s.logFile.isEmpty then none else some s.logFile

end Settings

end Reckoner
