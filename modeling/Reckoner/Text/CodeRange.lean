/-!
# Ranges of code points

Classes of characters that a standard lists are kept as tables of ranges, in order and apart.

* `inRanges` — membership in a class.
* `areApart` — the ranges are in order, and no two of them could be one.
-/

namespace Reckoner

/-- The character lies in one of the ranges. -/
def inRanges (ranges : List (Nat × Nat)) (c : Char) : Bool :=
  ranges.any fun (low, high) => low ≤ c.toNat && c.toNat ≤ high

/-- Each range has its ends in order, and at least one code point lies between it and the next. -/
def areApart : List (Nat × Nat) → Bool
  | [] => true
  | [(low, high)] => low ≤ high
  | (low, high) :: (next, top) :: rest =>
    low ≤ high && high + 1 < next && areApart ((next, top) :: rest)

/-- How many code points the ranges hold. -/
def codePoints (ranges : List (Nat × Nat)) : Nat :=
  ranges.foldl (fun n (low, high) => n + (high + 1 - low)) 0

end Reckoner
