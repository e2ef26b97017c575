/-!
# Ranges of characters

A property of characters, given as a table of ranges of code points with both ends included.
-/

namespace DoxygenRest.Text

/-- Ranges of code points, both ends included. -/
abbrev Ranges := List (Nat × Nat)

/-- Whether a character lies in one of the ranges. -/
def Ranges.has (ranges : Ranges) (c : Char) : Bool :=
  ranges.any fun range => range.1 ≤ c.toNat && c.toNat ≤ range.2

end DoxygenRest.Text
