/-!
# Code point ranges

A property of characters is given as a list of closed ranges of code points.  The tables
of this library hold the ranges beyond ASCII only; the ASCII part of a property is small
enough to be written as a test.
-/

namespace Interlock.Text

/-- A closed range of code points, first and last. -/
abbrev CodeRange := Nat × Nat

/-- Whether a character lies in one of the ranges. -/
def inRanges (ranges : List CodeRange) (c : Char) : Bool :=
  ranges.any fun range => range.1 ≤ c.toNat && c.toNat ≤ range.2

/-- A character beyond ASCII is looked up in a table. -/
def isBeyondAscii (c : Char) : Bool := 128 ≤ c.toNat

end Interlock.Text
