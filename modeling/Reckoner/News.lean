/-!
# News for subscribers

Whoever publishes something keeps the last items for those who look again later.  A subscriber who
looks too late has missed some, and is told how many.

* `News.since` — what a subscriber is told who has seen so many items.
-/

namespace Reckoner

/-- What a subscriber is told. -/
structure News (α : Type) where
  /-- How many items were missed. -/
  missed : Nat
  /-- The items after those. -/
  items : List α
  deriving DecidableEq, Repr

namespace News

/-- What a subscriber is told who has seen the first `seen` of all the items, if the last `kept`
    are kept. -/
def since (kept : Nat) (all : List α) (seen : Nat) : News α :=
  let missed := all.length - kept - seen
  ⟨missed, all.drop (seen + missed)⟩

/-- The items in another form. -/
def map (f : α → β) (news : News α) : News β := ⟨news.missed, news.items.map f⟩

/-- There is nothing to tell. -/
def isEmpty (news : News α) : Bool := news.missed = 0 && news.items.isEmpty

end News

end Reckoner
