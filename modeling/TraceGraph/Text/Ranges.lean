/-!
# Sets of characters

A class of characters is a table of ranges of code points.
-/

namespace TraceGraph.Text

/-- A set of characters: ascending ranges of code points, both ends included. -/
abbrev Ranges := List (Nat × Nat)

/-- Is the character in one of the ranges? -/
def Ranges.contains (ranges : Ranges) (c : Char) : Bool :=
  ranges.any fun range => range.1 ≤ c.toNat && c.toNat ≤ range.2

end TraceGraph.Text
