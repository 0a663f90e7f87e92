/-!
# Sets of characters as ranges

A set of code points is written as the increasing list of the points where membership changes: the
first bound opens a range, the second is the first point after it, and so on.
-/

namespace ReadQuery.Text

/-- Membership in the set with the given bounds: an odd number of bounds lies at or below `n`. -/
def inRanges (bounds : List Nat) (n : Nat) : Bool :=
  bounds.countP (· ≤ n) % 2 == 1

end ReadQuery.Text
