/-!
# Sets of code points as flip points

A set of code points is given by the ascending list of the points at which membership changes,
starting from "not a member". A code point is a member if the number of flip points at or below it
is odd.
-/

namespace Relabel.Text

/-- The number of entries of an ascending array that are at most `n`, given that all entries
before `low` are and none from `high` on is; at most `fuel` halvings are made. -/
def countUpToFrom (points : Array Nat) (n : Nat) : (fuel low high : Nat) → Nat
  | 0, low, _ => low
  | fuel + 1, low, high =>
    if low < high then
      let middle := (low + high) / 2
      if points.getD middle 0 ≤ n then countUpToFrom points n fuel (middle + 1) high
      else countUpToFrom points n fuel low middle
    else low

/-- The number of entries of an ascending array that are at most `n`. -/
def countUpTo (points : Array Nat) (n : Nat) : Nat :=
  countUpToFrom points n points.size 0 points.size

/-- Membership in the set with these flip points. -/
def inFlips (points : Array Nat) (c : Char) : Bool := countUpTo points c.toNat % 2 = 1

end Relabel.Text
