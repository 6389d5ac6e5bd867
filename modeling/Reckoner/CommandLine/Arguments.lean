/-!
# Command-line arguments

* `Arguments` — what the arguments of a run say.
* `Arguments.parse` — reads them from left to right, up to a fault or a wish for help or the
  version.

An option with a value takes it from the same argument (`--port=80`, `-p80`, `-p=80`) or from the
next one, which then must not look like an option.  No option may be given twice.
-/

namespace Reckoner

/-- What the arguments of a run say. -/
structure Arguments where
  /-- The port to listen on. -/
  port : Option UInt16 := none
  /-- The address to listen on. -/
  address : Option String := none
  /-- The settings file. -/
  settingsPath : Option String := none
  /-- The console is not read. -/
  noConsole : Bool := false
  deriving DecidableEq, Repr

/-- What a user asks for. -/
inductive Invocation where
  /-- Run the service. -/
  | run (arguments : Arguments)
  /-- Show what options there are. -/
  | help
  /-- Show the version. -/
  | version
  deriving DecidableEq, Repr

/-- An option. -/
inductive CommandOption where
  /-- The port to listen on. -/
  | port
  /-- The address to listen on. -/
  | address
  /-- The settings file. -/
  | settingsPath
  /-- Not to read the console. -/
  | noConsole
  /-- To show what options there are. -/
  | help
  /-- To show the version. -/
  | version
  deriving DecidableEq, Repr

namespace CommandOption

/-- The option with a long name. -/
def ofLong? : String → Option CommandOption
  | "port" => some port
  | "bind" => some address
  | "config" => some settingsPath
  | "no-console" => some noConsole
  | "help" => some help
  | "version" => some version
  | _ => none

/-- The option with a short name. -/
def ofShort? : Char → Option CommandOption
  | 'p' => some port
  | 'b' => some address
  | 'c' => some settingsPath
  | 'h' => some help
  | 'V' => some version
  | _ => none

/-- The option has a value. -/
def takesValue : CommandOption → Bool
  | port | address | settingsPath => true
  | noConsole | help | version => false

end CommandOption

namespace Arguments

/-- The value of a row of decimal digits. -/
def digitsValue? (digits : List Char) : Option Nat :=
  if digits.isEmpty || !digits.all Char.isDigit then none
  else some (digits.foldl (fun n c => 10 * n + (c.toNat - '0'.toNat)) 0)

/-- A port: a decimal number up to 65535, with or without a sign. -/
def portOfValue? (value : List Char) : Option UInt16 := do
  let n ← match value with
    | '+' :: digits => digitsValue? digits
    | '-' :: digits => do
      let n ← digitsValue? digits
      if n = 0 then some 0 else none
    | digits => digitsValue? digits
  if n < 65536 then some (UInt16.ofNat n) else none

/-- The arguments with the value of an option put in, unless it has one already or the value is no
    good. -/
def set (a : Arguments) (option : CommandOption) (value : List Char) : Option Arguments :=
  match option with
  | .port => do
    let port ← portOfValue? value
    if a.port.isSome then none else some { a with port }
  | .address => if a.address.isSome then none else some { a with address := String.ofList value }
  | .settingsPath =>
    if a.settingsPath.isSome || value.isEmpty then none
    else some { a with settingsPath := String.ofList value }
  | _ => none

/-- An argument that can be the value of the option before it. -/
def isValue : List Char → Bool
  | ['-'] => true
  | '-' :: _ => false
  | _ => true

/-- What an argument says: the option that it names and the value that comes with it. -/
def option? : List Char → Option (CommandOption × Option (List Char))
  | '-' :: '-' :: rest => do
    let name := rest.takeWhile (· ≠ '=')
    let option ← CommandOption.ofLong? (String.ofList name)
    match rest.drop name.length with
    | '=' :: value => return (option, some value)
    | _ => return (option, none)
  | '-' :: c :: rest => do
    let option ← CommandOption.ofShort? c
    -- What follows an option without a value would be more options; but help and the version, the
    -- only ones with short names, leave nothing to be read.
    if !option.takesValue then return (option, none)
    match rest with
    | [] => return (option, none)
    | '=' :: value => return (option, some value)
    | value => return (option, some value)
  | _ => none

/-- Reads the arguments that are left. -/
def parseFrom (a : Arguments) : List (List Char) → Option Invocation
  | [] => some (.run a)
  | argument :: rest =>
    if argument = ['-', '-'] then
      if rest.isEmpty then some (.run a) else none
    else
      match option? argument with
      | none => none
      | some (option, attached) =>
        if option.takesValue then
          match attached, rest with
          | some value, rest => do parseFrom (← a.set option value) rest
          | none, value :: rest =>
            if isValue value then do parseFrom (← a.set option value) rest else none
          | none, [] => none
        else if attached.isSome then none
        else
          match option with
          | .help => some .help
          | .version => some .version
          | _ => if a.noConsole then none else parseFrom { a with noConsole := true } rest

/-- Reads arguments. -/
def parse (arguments : List String) : Option Invocation :=
  parseFrom {} (arguments.map String.toList)

end Arguments

end Reckoner
