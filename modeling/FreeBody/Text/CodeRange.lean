/-!
# Code ranges

A property of characters is kept as the list of the code ranges that have it, in increasing
order.  `inRanges` decides membership.
-/

namespace FreeBody.Text

/-- The codes from the first component to the second, both included. -/
abbrev CodeRange := Nat × Nat

/-- Whether the code of `c` lies in one of `ranges`. -/
def inRanges (ranges : List CodeRange) (c : Char) : Bool :=
  ranges.any fun r => r.1 ≤ c.toNat && c.toNat ≤ r.2

end FreeBody.Text
