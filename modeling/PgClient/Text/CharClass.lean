/-
  PgClient.Text.CharClass

  Sets of characters given by ascending ranges of code points.
-/

namespace PgClient

/-- Disjoint ranges of code points in ascending order, both ends included. -/
abbrev CharClass := List (Nat × Nat)

/-- Whether a code point lies in one of the ranges. -/
def CharClass.has : CharClass → Nat → Bool
  | [], _ => false
  | (first, last) :: rest, n => if n < first then false else n ≤ last || has rest n

end PgClient
