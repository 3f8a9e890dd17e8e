/-!
# Ranges of code points

A class of characters is given by the ranges of code points in it, and `covers`
looks a character up.
-/

namespace BuildFacts.Text

/-- The first and the last code point of each range. -/
abbrev CodeRanges := List (Nat × Nat)

namespace CodeRanges

/-- Whether a character lies in one of the ranges. -/
def covers (ranges : CodeRanges) (c : Char) : Bool :=
  ranges.any fun range => range.1 ≤ c.toNat && c.toNat ≤ range.2

end CodeRanges

end BuildFacts.Text
