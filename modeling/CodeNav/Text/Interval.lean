/-! # Tables of characters

Properties of characters are given as lists of closed intervals of code points.
-/

namespace CodeNav.Text

/-- The code points from `first` to `last`, both included. -/
structure Interval where
  first : Nat
  last : Nat
  deriving DecidableEq, Repr

def Interval.contains (i : Interval) (n : Nat) : Bool := i.first ≤ n && n ≤ i.last

end CodeNav.Text
