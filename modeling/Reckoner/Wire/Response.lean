import Reckoner.Text.Utf8
import Reckoner.Wire.Command

/-!
# Response lines

The service answers with one response per line.

* `Response` — welcome, goodbye, a result, or an error.
* `Response.ofLine?` — reads a line, as a client would.
* `Response.text`, `Response.line` — the line of a response, and its bytes with the line feed.
-/

namespace Reckoner

/-- One line from the service. -/
inductive Response where
  /-- The client has joined. -/
  | welcome (name : String)
  /-- The client has left. -/
  | goodbye (name : String)
  /-- A computed value. -/
  | result (name value : String)
  /-- A refusal. -/
  | error (message : String)
  deriving DecidableEq, Repr

namespace Response

/-- The line could not be understood, was out of order, or holds no expression. -/
def invalidFormat : Response := error "Invalid Expression Format"

/-- There is no room for another session, or for another request. -/
def busy : Response := error "Server busy"

/-- The name belongs to another session. -/
def nameTaken : Response := error "Client name already in use"

/-- The response that a keyword and the rest of its line make. -/
def ofFields? (keyword rest : List Char) : Option Response :=
  if keyword = "ERR".toList then some (error (String.ofList rest))
  else if keyword = "ACK".toList then
    match splitLast separator rest with
    | none => none
    | some (name, word) =>
      if word = "Welcome".toList then some (welcome (String.ofList name))
      else if word = "Goodbye".toList then some (goodbye (String.ofList name))
      else none
  else if keyword = "RES".toList then
    (splitFirst separator rest).map fun (name, value) =>
      result (String.ofList name) (String.ofList value)
  else none

/-- Reads a line, with or without line-end characters at its end. -/
def ofLine? (line : String) : Option Response :=
  match splitFirst separator (trimLineEnd line.toList) with
  | none => none
  | some (keyword, rest) => ofFields? keyword rest

/-- The response is a refusal. -/
def isError : Response → Bool
  | error _ => true
  | _ => false

/-- The line of a response, without its line feed. -/
def text : Response → String
  | welcome name => "ACK:" ++ name ++ ":Welcome"
  | goodbye name => "ACK:" ++ name ++ ":Goodbye"
  | result name value => "RES:" ++ name ++ ":" ++ value
  | error message => "ERR:" ++ message

/-- The bytes of a response as they are sent. -/
def line (r : Response) : Bytes := utf8 r.text ++ [lineFeed]

end Response

end Reckoner
