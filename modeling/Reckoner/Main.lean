import Reckoner.Gateway.Network

/-!
# The program

The outer layer: it makes a server of the arguments and of what the host has, and lets it serve
the network.
-/

namespace Reckoner

/-- Prints an answer; the result is its exit code. -/
def printAnswer (answer : Answer) : IO UInt32 := do
  IO.print answer.output
  IO.eprint answer.errors
  return UInt32.ofNat answer.code

/-- Serves the network with the given settings; the result is the exit code. -/
def serveNetwork (a : Arguments) (settings : Settings) (address : SocketAddress)
    (log : Gateway.LogFile) : IO UInt32 := do
  match ← Gateway.listen address with
  | .error reason =>
    Gateway.writeEntries log [Server.failureEntry address reason]
    printAnswer (LaunchError.server (.listen address reason)).answer
  | .ok (listener, port) =>
    match Server.begin settings port with
    | (.error e, entries) =>
      Gateway.writeEntries log entries
      printAnswer (LaunchError.server e).answer
    | (.ok server, _) =>
      Gateway.serve listener server log !a.noConsole
      return 0

/-- Runs the program. -/
def runProgram (arguments : List String) : IO UInt32 := do
  match Invocation.arguments (Arguments.parse arguments) with
  | .error answer => printAnswer answer
  | .ok a =>
    let around ← Gateway.surroundings
    match a.settings (← Gateway.settingsFiles a around) around with
    | .error e => printAnswer e.answer
    | .ok settings =>
      match ← Gateway.openLog settings, settings.socketAddress with
      | .error e, _ => printAnswer (LaunchError.log e).answer
      | .ok _, .error e => printAnswer (LaunchError.server (.settings e)).answer
      | .ok log, .ok address => serveNetwork a settings address log

end Reckoner

/-- The entry point. -/
def main (arguments : List String) : IO UInt32 := Reckoner.runProgram arguments
