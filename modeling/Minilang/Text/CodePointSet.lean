/-!
# Sets of code points

A set of characters is given by the inclusive ranges of its code points.
-/

namespace Minilang

/-- A set of code points as a list of inclusive ranges. -/
structure CodePointSet where
  /-- First and last code point of each range. -/
  ranges : List (Nat × Nat)
deriving DecidableEq, Repr

namespace CodePointSet

/-- Whether a character belongs to the set. -/
def contains (set : CodePointSet) (character : Char) : Bool :=
  set.ranges.any fun range => decide (range.1 ≤ character.toNat) && decide (character.toNat ≤ range.2)

end CodePointSet

end Minilang
