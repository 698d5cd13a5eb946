/-!
# Sets of code points

A set of characters given as closed intervals of code points.
-/

namespace Concolic

/-- The code points from `first` to `last`. -/
structure Interval where
  first : Nat
  last : Nat
  deriving DecidableEq, Repr

namespace Interval

def covers (intervals : List Interval) (c : Char) : Bool :=
  intervals.any fun i => i.first ≤ c.toNat && c.toNat ≤ i.last

end Interval

end Concolic
