/-!
# Log entries

* `Timestamp` — a moment of the calendar, checked, with its text.
* `EventKind` — what a log entry reports.
* `LogEntry` — one entry: its kind, the client it concerns, and the detail.
-/

namespace Reckoner

/-! ### Timestamps -/

/-- A moment in years, months, days, hours, minutes and seconds. -/
structure Timestamp where
  /-- The year; it may be negative. -/
  year : Int
  /-- The month, from one. -/
  month : Nat
  /-- The day of the month, from one. -/
  day : Nat
  /-- The hour. -/
  hour : Nat
  /-- The minute. -/
  minute : Nat
  /-- The second. -/
  second : Nat
  deriving DecidableEq, Repr

namespace Timestamp

/-- The year has a 29th of February. -/
def isLeap (year : Int) : Bool := year % 4 = 0 && (year % 100 ≠ 0 || year % 400 = 0)

/-- The number of days of a month, zero for no month. -/
def daysIn (year : Int) (month : Nat) : Nat :=
  match month with
  | 1 | 3 | 5 | 7 | 8 | 10 | 12 => 31
  | 4 | 6 | 9 | 11 => 30
  | 2 => if isLeap year then 29 else 28
  | _ => 0

/-- The moment exists, in the years that the calendar covers. -/
def isValid (t : Timestamp) : Bool :=
  -262143 ≤ t.year && t.year ≤ 262142 && 1 ≤ t.day && t.day ≤ daysIn t.year t.month &&
    t.hour < 24 && t.minute < 60 && t.second < 60

/-- The moment so many seconds after the beginning of 1970.  Days are counted in years that begin
    in March, so that a leap day is the last of its year, and in eras of 400 years, all equally
    long. -/
def ofSeconds (seconds : Int) : Timestamp :=
  let days := seconds.fdiv 86400 + 719468
  let clock := (seconds.fmod 86400).toNat
  let day := (days.fmod 146097).toNat
  let year := (day - day / 1460 + day / 36524 - day / 146096) / 365
  let day := day - (365 * year + year / 4 - year / 100)
  let month := (5 * day + 2) / 153
  { year := days.fdiv 146097 * 400 + year + (if month < 10 then 0 else 1)
    month := if month < 10 then month + 3 else month - 9
    day := day - (153 * month + 2) / 5 + 1
    hour := clock / 3600, minute := clock / 60 % 60, second := clock % 60 }

example : ofSeconds 0 = ⟨1970, 1, 1, 0, 0, 0⟩ := by decide
example : ofSeconds 951827696 = ⟨2000, 2, 29, 12, 34, 56⟩ := by decide
example : ofSeconds (-1) = ⟨1969, 12, 31, 23, 59, 59⟩ := by decide

/-- Digits with zeros before them up to a width. -/
def padded (width n : Nat) : String :=
  let digits := Nat.toDigits 10 n
  String.ofList (List.replicate (width - digits.length) '0' ++ digits)

/-- A year: four digits, with a sign if it is negative or has more. -/
def yearText (year : Int) : String :=
  if year < 0 then "-" ++ padded 4 year.natAbs
  else if year ≤ 9999 then padded 4 year.natAbs
  else "+" ++ padded 4 year.natAbs

/-- The moment as text, `2025-01-31 14:02:11`. -/
def text (t : Timestamp) : String :=
  yearText t.year ++ "-" ++ padded 2 t.month ++ "-" ++ padded 2 t.day ++ " " ++
    padded 2 t.hour ++ ":" ++ padded 2 t.minute ++ ":" ++ padded 2 t.second

end Timestamp

/-! ### Entries -/

/-- What an entry reports. -/
inductive EventKind where
  /-- A client joined, or the service changed its state. -/
  | connect
  /-- A request was taken up. -/
  | calcRequest
  /-- A request was answered with a value. -/
  | calcResponse
  /-- A client's session ended. -/
  | disconnect
  /-- Something failed. -/
  | err
  deriving DecidableEq, Repr

/-- The word for the kind. -/
def EventKind.label : EventKind → String
  | connect => "CONNECT"
  | calcRequest => "CALC_REQUEST"
  | calcResponse => "CALC_RESPONSE"
  | disconnect => "DISCONNECT"
  | err => "ERR"

/-- The name that stands for the service itself. -/
def serverLabel : String := "SERVER"

/-- The name that stands for a client who has not joined. -/
def unknownLabel : String := "UNKNOWN"

/-- One entry of the log. -/
structure LogEntry where
  /-- What it reports. -/
  kind : EventKind
  /-- The client that it concerns. -/
  client : String
  /-- What happened. -/
  detail : String
  deriving DecidableEq, Repr

/-- The line of an entry, without its line feed; the time of the entry stands in brackets. -/
def LogEntry.text (e : LogEntry) (time : String) : String :=
  "[" ++ time ++ "] " ++ e.kind.label ++ " - " ++ e.client ++ ": " ++ e.detail

end Reckoner
