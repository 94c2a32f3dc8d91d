/-!
# Ranges of code points

A class of characters that no short rule describes is given by a table: a list of closed ranges
of code points, in increasing order.
-/

namespace LineScript.Text

/-- The code points from `first` to `last`, both included. -/
structure CodeRange where
  first : Nat
  last : Nat
deriving DecidableEq, Repr

namespace CodeRange

/-- Whether a code point lies in the range. -/
def contains (range : CodeRange) (code : Nat) : Bool :=
  range.first ≤ code && code ≤ range.last

/-- The ranges of a table written as pairs of code points. -/
def table (pairs : List (Nat × Nat)) : List CodeRange :=
  pairs.map fun pair => ⟨pair.1, pair.2⟩

/-- Whether a character lies in one of the ranges. -/
def covers (ranges : List CodeRange) (c : Char) : Bool :=
  ranges.any fun range => range.contains c.toNat

end CodeRange

end LineScript.Text
