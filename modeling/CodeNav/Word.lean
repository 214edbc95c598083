/-! # Unsigned words

Counts, positions and identifiers that cross a process border are unsigned 64-bit numbers. The
library computes with natural numbers and names the bound where it matters.
-/

namespace CodeNav

/-- One more than the greatest unsigned 64-bit number. -/
def wordLimit : Nat := 1 <<< 64

end CodeNav
