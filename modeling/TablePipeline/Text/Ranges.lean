/-! # Ranges of characters

A property of characters is listed as the ranges of code points that have it.
-/

namespace TablePipeline.Text

/-- The first and the last code point of some ranges. -/
abbrev CharRanges := Array (Nat × Nat)

/-- Does a character lie in one of the ranges? -/
def CharRanges.has (ranges : CharRanges) (c : Char) : Bool :=
  ranges.any fun (first, last) => first ≤ c.toNat && c.toNat ≤ last

end TablePipeline.Text
