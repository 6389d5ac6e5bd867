/-!
# The text of a length of time

A span of time is written in the largest of the units `s`, `ms`, `µs`, `ns` of which it holds at
least one, as a decimal without zeros at its end: `1.5s`, `50ms`, `0ns`.
-/

namespace Reckoner

/-- A length of time in nanoseconds. -/
structure Span where
  /-- The nanoseconds. -/
  nanos : Nat
  deriving DecidableEq, Repr

namespace Span

/-- So many whole seconds. -/
def ofSeconds (n : Nat) : Span := ⟨n * 1000000000⟩

/-- So many whole milliseconds. -/
def ofMillis (n : Nat) : Span := ⟨n * 1000000⟩

/-- The digits of `part / 10 ^ places` after the point, without zeros at the end. -/
def fractionDigits (part places : Nat) : List Char :=
  let digits := Nat.toDigits 10 part
  let padded := List.replicate (places - digits.length) '0' ++ digits
  (padded.reverse.dropWhile (· = '0')).reverse

/-- `amount / 10 ^ places` of a unit. -/
def inUnit (amount places : Nat) (unit : String) : String :=
  let whole := toString (amount / Nat.pow 10 places)
  match fractionDigits (amount % Nat.pow 10 places) places with
  | [] => whole ++ unit
  | digits => whole ++ "." ++ String.ofList digits ++ unit

/-- The span as text. -/
def text (d : Span) : String :=
  if 1000000000 ≤ d.nanos then inUnit d.nanos 9 "s"
  else if 1000000 ≤ d.nanos then inUnit d.nanos 6 "ms"
  else if 1000 ≤ d.nanos then inUnit d.nanos 3 "µs"
  else inUnit d.nanos 0 "ns"

end Span

end Reckoner
