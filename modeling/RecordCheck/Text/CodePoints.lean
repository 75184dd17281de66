/-!
Sets of code points, given by their ranges.
-/

namespace RecordCheck.Text

/-- The ranges of a set, in ascending order, both ends included. -/
structure CodePoints where
  ranges : List (Nat × Nat)

namespace CodePoints

def contains (set : CodePoints) (c : Char) : Bool :=
  set.ranges.any fun (first, last) => decide (first ≤ c.toNat ∧ c.toNat ≤ last)

end CodePoints

end RecordCheck.Text
