import Reckoner.Text.Split

/-!
# Command lines

A client sends one command per line: a keyword, a colon, and the rest.

* `Command` — the three commands, and the lines that are none.
* `Command.ofLine` — reads a line; it never fails, a bad line is a command of its own.
* `Command.text` — the line that a command is written as, without its line feed.
-/

namespace Reckoner

/-- The character between the fields of a line. -/
def separator : Char := ':'

/-- Why a line is no command. -/
inductive Malformed where
  /-- There is no separator. -/
  | missingSeparator
  /-- The keyword is none of the three. -/
  | unknownCommand (keyword : String)
  /-- A calculation without an expression field. -/
  | missingExpression
  /-- A join without a name. -/
  | emptyName
  deriving DecidableEq, Repr

/-- The cause in words. -/
def Malformed.message : Malformed → String
  | missingSeparator => "Malformed command"
  | unknownCommand keyword => "Unknown command: " ++ keyword
  | missingExpression => "CALC missing expression"
  | emptyName => "JOIN missing client name"

/-- What a line asks for. -/
inductive Command where
  /-- Join under a name. -/
  | join (name : String)
  /-- Evaluate an expression. -/
  | calculate (name expression : String)
  /-- Leave. -/
  | leave (name : String)
  /-- Nothing that the line says can be made out. -/
  | malformed (reason : Malformed)
  deriving DecidableEq, Repr

namespace Command

/-- The command that a keyword and the rest of its line make. -/
def ofFields (keyword rest : List Char) : Command :=
  if keyword = "JOIN".toList then
    if rest.isEmpty then malformed .emptyName else join (String.ofList rest)
  else if keyword = "CALC".toList then
    match splitFirst separator rest with
    | some (name, expression) => calculate (String.ofList name) (String.ofList expression)
    | none => malformed .missingExpression
  else if keyword = "LEAVE".toList then leave (String.ofList rest)
  else malformed (.unknownCommand (String.ofList keyword))

/-- Reads a line, with or without line-end characters at its end. -/
def ofLine (line : String) : Command :=
  match splitFirst separator (trimLineEnd line.toList) with
  | none => malformed .missingSeparator
  | some (keyword, rest) => ofFields keyword rest

/-- The keyword of a command. -/
def keyword? : Command → Option String
  | join _ => some "JOIN"
  | calculate _ _ => some "CALC"
  | leave _ => some "LEAVE"
  | malformed _ => none

/-- The line of a command, without a line feed.  A malformed line is not kept. -/
def text : Command → String
  | join name => "JOIN:" ++ name
  | calculate name expression => "CALC:" ++ name ++ ":" ++ expression
  | leave name => "LEAVE:" ++ name
  | malformed _ => ""

end Command

end Reckoner
