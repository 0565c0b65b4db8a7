/-!
# Sets of code points

A character class that no short rule describes is a table of closed intervals. Only membership is
asked of a table, so the order of its intervals carries no meaning.
-/

namespace EntityScaffold.Text

/-- A set of code points: the union of closed intervals, each given by its two ends. -/
abbrev CodePoints := List (Nat × Nat)

/-- Membership: some interval holds the code point. -/
def CodePoints.has (set : CodePoints) (n : Nat) : Bool :=
  set.any fun interval => interval.1 ≤ n && n ≤ interval.2

end EntityScaffold.Text
