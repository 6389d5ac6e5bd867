import Reckoner.CommandLine.Arguments
import Reckoner.EventLog.File
import Reckoner.Server.Basic

/-!
# A run from the command line

* `Invocation.arguments` — tells an invocation that runs the service from one that is answered at
  once.
* `Arguments.settings` — the settings of a run: those that are loaded, with what the arguments say
  put over them, and checked again.
* `Run.result` — a whole run: its exit code, what it prints, and the files it leaves.

A run without clients: it starts the server, waits for the word `quit` on the console or for a
signal, and shuts the server down.
-/

namespace Reckoner

/-! ### Failures -/

/-- Why a run fails. -/
inductive LaunchError where
  /-- The settings cannot be loaded. -/
  | loading (e : SettingsError)
  /-- The settings are not usable with what the arguments say. -/
  | checking (e : SettingsError)
  /-- The log file cannot be opened. -/
  | log (e : EventLogError)
  /-- The server does not run. -/
  | server (e : ServerError)
  deriving DecidableEq

/-- What failed. -/
def LaunchError.summary : LaunchError → String
  | loading _ => "Failed to load configuration"
  | checking _ => "Invalid configuration"
  | log e => e.message
  | server e => e.message

/-- What caused the failure, where the summary does not say it. -/
def LaunchError.cause? : LaunchError → Option String
  | loading e => some e.message
  | checking e => some e.message
  | log _ => none
  | server _ => none

/-- The lines of a text, with four spaces before each. -/
def indented (text : String) : String :=
  "\n".intercalate ((text.splitOn "\n").map fun line => "    " ++ line)

/-- What is printed about a failure. -/
def LaunchError.report (e : LaunchError) : String :=
  match e.cause? with
  | none => "Error: " ++ e.summary ++ "\n"
  | some cause => "Error: " ++ e.summary ++ "\n\nCaused by:\n" ++ indented cause ++ "\n"

/-! ### Settings -/

/-- Settings with what the arguments say put over them. -/
def Arguments.over (a : Arguments) (s : Settings) : Settings :=
  { s with
    port := a.port.getD s.port
    bindAddress := a.address.getD s.bindAddress }

/-- The settings of a run. -/
def Arguments.settings (a : Arguments) (files : FileTree) (around : Settings.Surroundings) :
    Except LaunchError Settings :=
  match Settings.load files a.settingsPath around with
  | .error e => .error (.loading e)
  | .ok loaded =>
    let s := a.over loaded
    match s.check with
    | .error e => .error (.checking e)
    | .ok () => .ok s

/-! ### Answers without a run -/

/-- What is printed at the end of a run, and its exit code. -/
structure Answer where
  /-- The exit code. -/
  code : Nat
  /-- What is printed. -/
  output : String := ""
  /-- What is printed about failures. -/
  errors : String := ""
  deriving DecidableEq, Repr

/-- The name and the version of the program. -/
def versionText : String := "mathqd 0.1.0"

/-- How the program is called. -/
def usageLine : String := "Usage: mathqd [OPTIONS]"

/-- The options, one per line. -/
def helpLines : List String :=
  ["Concurrent arithmetic server with a globally ordered request queue",
   "",
   usageLine,
   "",
   "Options:",
   "  -p, --port <PORT>      Port to listen on",
   "  -b, --bind <BIND>      Address to bind to",
   "  -c, --config <CONFIG>  Config file (default: <config dir>/mathq/mathqd.toml)",
   "      --no-console       Do not read `quit` from stdin",
   "  -h, --help             Print help",
   "  -V, --version          Print version"]

/-- What is printed about arguments that cannot be made out. -/
def misuseLines : List String :=
  ["error: invalid arguments", "", usageLine, "", "For more information, try '--help'."]

/-- Lines with their line feeds. -/
def linesText (lines : List String) : String := String.join (lines.map (· ++ "\n"))

/-- The arguments of an invocation that runs the service, or else the answer to it. -/
def Invocation.arguments : Option Invocation → Except Answer Arguments
  | none => .error { code := 2, errors := linesText misuseLines }
  | some .help => .error { code := 0, output := linesText helpLines }
  | some .version => .error { code := 0, output := linesText [versionText] }
  | some (.run a) => .ok a

/-- The exit code of a failure.  It is 1, but for a server that cannot keep count. -/
def LaunchError.code : LaunchError → Nat
  | server .tooManyPlaces => 101
  | _ => 1

/-- The answer to a failure. -/
def LaunchError.answer (e : LaunchError) : Answer := { code := e.code, errors := e.report }

/-! ### Runs -/

/-- A line on the console that asks the service to stop. -/
def isQuit (line : String) : Bool :=
  (trimBlanks line.toList).map Char.toLower = "quit".toList

/-- What a run meets. -/
structure Run where
  /-- The arguments. -/
  arguments : List String
  /-- What the surroundings say about settings. -/
  around : Settings.Surroundings := {}
  /-- The files. -/
  files : FileTree
  /-- The host. -/
  host : Host
  /-- The lines that are typed on the console. -/
  console : List String := []
  /-- A signal to stop comes. -/
  terminated : Bool := false
  /-- The time that log entries tell. -/
  time : String

/-- What a run comes to. -/
structure RunResult where
  /-- What is printed; none if the run goes on. -/
  answer : Option Answer
  /-- The files afterwards. -/
  files : FileTree

namespace Run

/-- A run that fails. -/
def fail (files : FileTree) (e : LaunchError) : RunResult := ⟨some e.answer, files⟩

/-- The run is asked to stop. -/
def isStopped (r : Run) (a : Arguments) : Bool :=
  r.terminated || (!a.noConsole && r.console.any isQuit)

/-- The log, and the files with it open. -/
def openLog (files : FileTree) (settings : Settings) :
    Except EventLogError (EventLog × FileTree) :=
  match settings.logPath with
  | none => .ok ({}, files)
  | some path => EventLog.openFile files path

/-- Puts entries into the log file. -/
def recordAll (log : EventLog) (time : String) (files : FileTree) (entries : List LogEntry) :
    FileTree :=
  entries.foldl (fun files e => log.record files time e) files

/-- Runs the server. -/
def serve (r : Run) (a : Arguments) (settings : Settings) (log : EventLog) (files : FileTree) :
    RunResult :=
  match Server.start r.host settings with
  | (.error e, entries) => fail (recordAll log r.time files entries) (.server e)
  | (.ok server, _) =>
    let server := if r.isStopped a then server.shutDown else server
    ⟨server.processed?.map fun _ => { code := 0 },
      recordAll log r.time files (server.service.log.map Prod.snd)⟩

/-- Loads the settings, opens the log, and runs the server. -/
def launch (r : Run) (a : Arguments) : RunResult :=
  match a.settings r.files r.around with
  | .error e => fail r.files e
  | .ok settings =>
    match openLog r.files settings with
    | .error e => fail r.files (.log e)
    | .ok (log, files) => r.serve a settings log files

/-- What a run comes to. -/
def result (r : Run) : RunResult :=
  match Invocation.arguments (Arguments.parse r.arguments) with
  | .error answer => ⟨some answer, r.files⟩
  | .ok a => r.launch a

end Run

end Reckoner
