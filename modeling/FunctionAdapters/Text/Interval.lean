/-!
Intervals of code points, for properties of characters that are given by tables.
-/

namespace FunctionAdapters.Text

/-- Intervals of code points in ascending order, both ends included: those below `0x1000`, the
others of the basic plane, and those above it. -/
structure CodeIntervals where
  low : List (Nat × Nat)
  basic : List (Nat × Nat)
  high : List (Nat × Nat)

namespace CodeIntervals

/-- The intervals among which a code point has to be looked for. -/
def near (intervals : CodeIntervals) (n : Nat) : List (Nat × Nat) :=
  if n < 0x1000 then intervals.low else if n < 0x10000 then intervals.basic else intervals.high

def contains (intervals : CodeIntervals) (c : Char) : Bool :=
  (intervals.near c.toNat).any fun (first, last) => first ≤ c.toNat && c.toNat ≤ last

end CodeIntervals

end FunctionAdapters.Text
