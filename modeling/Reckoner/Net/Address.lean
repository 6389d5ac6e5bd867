/-!
# Network addresses

* `IpAddress` — an address of four octets or of eight 16-bit groups.
* `IpAddress.ofText?` — reads the usual notations, in full: four decimal numbers without leading
  zeros, or hexadecimal groups with at most one `::` and at most one dotted quad at the end.
* `IpAddress.text` — the canonical notation: lower case, the longest run of two or more zero
  groups shortened (the first of equals), and a dotted quad for a mapped address.
* `IpAddress.unmapped`, `IpAddress.overlaps` — what an address stands for, and which addresses
  stand for some of the same.
* `SocketAddress` — an address with a port; `SocketAddress.ofText?` reads one.
-/

namespace Reckoner

/-- An address of a host. -/
inductive IpAddress where
  /-- Four octets. -/
  | v4 (a b c d : UInt8)
  /-- Eight groups of sixteen bits. -/
  | v6 (groups : Vector UInt16 8)
  deriving DecidableEq

namespace IpAddress

/-! ### Reading -/

/-- The value of a hexadecimal digit. -/
def hexValue? (c : Char) : Option Nat :=
  if c.isDigit then some (c.toNat - '0'.toNat)
  else if 'a' ≤ c ∧ c ≤ 'f' then some (c.toNat - 'a'.toNat + 10)
  else if 'A' ≤ c ∧ c ≤ 'F' then some (c.toNat - 'A'.toNat + 10)
  else none

/-- One to four hexadecimal digits. -/
def readGroup (s : List Char) : Option (UInt16 × List Char) :=
  let digits := s.takeWhile fun c => (hexValue? c).isSome
  if digits.isEmpty ∨ 4 < digits.length then none
  else
    let n := digits.foldl (fun n c => 16 * n + (hexValue? c).getD 0) 0
    some (UInt16.ofNat n, s.dropWhile fun c => (hexValue? c).isSome)

/-- One to three decimal digits, without a leading zero, up to 255. -/
def readOctet (s : List Char) : Option (UInt8 × List Char) :=
  let digits := s.takeWhile Char.isDigit
  let n := digits.foldl (fun n c => 10 * n + (c.toNat - '0'.toNat)) 0
  if digits.isEmpty ∨ 3 < digits.length ∨ (digits.head? = some '0' ∧ 1 < digits.length) ∨ 255 < n
  then none
  else some (UInt8.ofNat n, s.dropWhile Char.isDigit)

/-- The rest after a given character. -/
def expect (c : Char) : List Char → Option (List Char)
  | x :: rest => if x = c then some rest else none
  | [] => none

/-- Four octets with points between them. -/
def readQuad (s : List Char) : Option ((UInt8 × UInt8 × UInt8 × UInt8) × List Char) := do
  let (a, s) ← readOctet s
  let (b, s) ← expect '.' s >>= readOctet
  let (c, s) ← expect '.' s >>= readOctet
  let (d, s) ← expect '.' s >>= readOctet
  return ((a, b, c, d), s)

/-- Two octets as one group. -/
def joinOctets (high low : UInt8) : UInt16 := UInt16.ofNat (high.toNat * 256 + low.toNat)

/-- Reads groups with colons between them, up to `limit`; where two more would fit, a dotted quad
    may end them.  Also says whether one did. -/
def readGroups : (limit : Nat) → (first : Bool) → List Char → List UInt16 × Bool × List Char
  | 0, _, s => ([], false, s)
  | n + 1, first, s =>
    let next := if first then some s else expect ':' s
    match if n = 0 then none else next >>= readQuad with
    | some ((a, b, c, d), rest) => ([joinOctets a b, joinOctets c d], true, rest)
    | none =>
      match next >>= readGroup with
      | none => ([], false, s)
      | some (group, rest) =>
        let (groups, quad, rest) := readGroups n false rest
        (group :: groups, quad, rest)

/-- Eight groups, where one `::` may stand for a run of zero groups. -/
def readV6 (s : List Char) : Option (List UInt16 × List Char) :=
  let (front, quad, s) := readGroups 8 true s
  if front.length = 8 then some (front, s)
  else if quad then none
  else do
    let s ← expect ':' s
    let s ← expect ':' s
    let (back, _, s) := readGroups (7 - front.length) true s
    return (front ++ List.replicate (8 - front.length - back.length) 0 ++ back, s)

/-- Reads an address that takes up the whole text. -/
def ofText? (text : String) : Option IpAddress :=
  match readQuad text.toList with
  | some ((a, b, c, d), rest) => if rest.isEmpty then some (v4 a b c d) else none
  | none =>
    match readV6 text.toList with
    | some (groups, []) =>
      if h : groups.length = 8 then some (v6 ⟨groups.toArray, by simpa using h⟩) else none
    | _ => none

/-! ### Kinds -/

/-- Four octets that are written as groups stand for themselves. -/
def unmapped : IpAddress → IpAddress
  | v4 a b c d => v4 a b c d
  | v6 groups =>
    match groups.toList with
    | [0, 0, 0, 0, 0, 0xffff, high, low] =>
      v4 (high / 256).toUInt8 high.toUInt8 (low / 256).toUInt8 low.toUInt8
    | _ => v6 groups

/-- The address stands for all addresses of a host. -/
def isUnspecified : IpAddress → Bool
  | v4 a b c d => a = 0 && b = 0 && c = 0 && d = 0
  | v6 groups => groups.all (· = 0)

/-- The address stands for the host itself. -/
def isLoopback : IpAddress → Bool
  | v4 a _ _ _ => a = 127
  | v6 groups => groups.toList = [0, 0, 0, 0, 0, 0, 0, 1]

/-- The address stands for a group of hosts. -/
def isMulticast : IpAddress → Bool
  | v4 a _ _ _ => 224 ≤ a && a < 240
  | v6 groups => (0xff00 : UInt16) ≤ groups[0]

/-- The address stands for all hosts around. -/
def isBroadcast : IpAddress → Bool
  | v4 a b c d => a = 255 && b = 255 && c = 255 && d = 255
  | v6 _ => false

/-- The address is only good on one link, and one has to say on which. -/
def isLinkLocal : IpAddress → Bool
  | v4 .. => false
  | v6 groups => (0xfe80 : UInt16) ≤ groups[0] && groups[0] < 0xfec0

/-- Whoever is sent something at the second address gets it at the first.  Of the unspecified
    addresses, that of eight groups takes in also what is sent to four octets. -/
def takesIn : IpAddress → IpAddress → Bool
  | v4 a b c d, v4 a' b' c' d' => isUnspecified (v4 a b c d) || v4 a b c d = v4 a' b' c' d'
  | v6 groups, other => isUnspecified (v6 groups) || v6 groups = other
  | v4 .., v6 _ => false

/-- Nobody can listen on the one address while somebody listens on the other, on one port. -/
def overlaps (x y : IpAddress) : Bool :=
  takesIn x.unmapped y.unmapped || takesIn y.unmapped x.unmapped

/-! ### Writing -/

/-- Four numbers with points between them. -/
def quadText (a b c d : UInt8) : String :=
  ".".intercalate ([a, b, c, d].map fun x => toString x.toNat)

/-- Groups in hexadecimal with colons between them. -/
def groupsText (groups : List UInt16) : String :=
  ":".intercalate (groups.map fun x => String.ofList (Nat.toDigits 16 x.toNat))

/-- Where the longest run of zero groups begins, and its length; the first of equals. -/
def longestZeros (groups : List UInt16) : Nat × Nat :=
  (List.range groups.length).foldl (fun (start, length) i =>
    let run := ((groups.drop i).takeWhile (· = 0)).length
    if length < run then (i, run) else (start, length)) (0, 0)

/-- The canonical notation of eight groups that do not stand for four octets. -/
def v6Text (groups : List UInt16) : String :=
  let (start, length) := longestZeros groups
  if 1 < length then
    groupsText (groups.take start) ++ "::" ++ groupsText (groups.drop (start + length))
  else groupsText groups

/-- The canonical notation. -/
def text : IpAddress → String
  | v4 a b c d => quadText a b c d
  | v6 groups =>
    match unmapped (v6 groups) with
    | v4 a b c d => "::ffff:" ++ quadText a b c d
    | v6 groups => v6Text groups.toList

end IpAddress

/-- An address to listen on. -/
structure SocketAddress where
  /-- The host. -/
  ip : IpAddress
  /-- The port. -/
  port : UInt16
  /-- The number of the link that an address of groups is good on; zero for any. -/
  scope : UInt32 := 0
  deriving DecidableEq

namespace SocketAddress

/-- A link, where one is said. -/
def scopeText (scope : UInt32) : String := if scope = 0 then "" else "%" ++ toString scope.toNat

/-- The address and its port; groups stand in brackets. -/
def text (a : SocketAddress) : String :=
  match a.ip with
  | .v4 .. => a.ip.text ++ ":" ++ toString a.port.toNat
  | .v6 _ => "[" ++ a.ip.text ++ scopeText a.scope ++ "]:" ++ toString a.port.toNat

/-- Decimal digits that make up a number up to a limit. -/
def readNumber (limit : Nat) (digits : List Char) : Option Nat :=
  let n := digits.foldl (fun n c => 10 * n + (c.toNat - '0'.toNat)) 0
  if digits.isEmpty || !digits.all Char.isDigit || limit < n then none else some n

/-- The rest of an address after the host: a colon and a port. -/
def readPort (s : List Char) : Option UInt16 := do
  return UInt16.ofNat (← readNumber 65535 (← IpAddress.expect ':' s))

/-- The link in the brackets after the groups, if one is said. -/
def readScope (s : List Char) : Option UInt32 :=
  match s with
  | [] => some 0
  | '%' :: digits => (readNumber 4294967295 digits).map UInt32.ofNat
  | _ => none

/-- Reads an address with a port that takes up the whole text. -/
def ofText? (text : String) : Option SocketAddress :=
  match IpAddress.readQuad text.toList with
  | some ((a, b, c, d), rest) => do return ⟨.v4 a b c d, ← readPort rest, 0⟩
  | none => do
    let (groups, rest) ← IpAddress.readV6 (← IpAddress.expect '[' text.toList)
    let scope ← readScope (rest.takeWhile (· ≠ ']'))
    let port ← readPort (← IpAddress.expect ']' (rest.dropWhile (· ≠ ']')))
    if h : groups.length = 8 then some ⟨.v6 ⟨groups.toArray, by simpa using h⟩, port, scope⟩
    else none

end SocketAddress

end Reckoner
