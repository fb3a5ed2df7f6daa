/-!
# Ranges of code points

A property of characters is written as a list of ranges of code points, ends included.
-/

namespace ScriptedRobot.Text

/-- The first and the last code point of a range. -/
abbrev CodeRange := Nat × Nat

/-- Does the character lie in one of the ranges? -/
def inRanges (ranges : List CodeRange) (c : Char) : Bool :=
  ranges.any fun r => r.1 ≤ c.toNat && c.toNat ≤ r.2

end ScriptedRobot.Text
