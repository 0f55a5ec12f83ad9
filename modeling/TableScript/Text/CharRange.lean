/-!
# Classes of characters given by ranges

A class of characters is a table of closed ranges of code points, in ascending order. The tables of
the standard classes are in the modules that use them; membership is the same test for all.
-/

namespace TableScript.Text

/-- A table of closed ranges of code points. -/
abbrev CharRanges := Array (Nat × Nat)

/-- The character lies in one of the ranges. -/
def CharRanges.contains (ranges : CharRanges) (c : Char) : Bool :=
  ranges.any fun range => range.1 ≤ c.toNat && c.toNat ≤ range.2

/-- The code points below 128, which every class below decides without its table. -/
def isAscii (c : Char) : Bool := c.toNat < 128

end TableScript.Text
