/-!
# Ranges of characters

A property of characters is given as a list of ranges of code points, ends
included. A character has the property if one of the ranges covers it. The lists
are written in ascending order and with gaps between the ranges, for the reader:
`covers` does not depend on it.
-/

namespace BoxedTypes.Text

/-- A range of code points, by its first and its last. -/
abbrev CharRange := Nat × Nat

namespace CharRange

/-- Whether a character lies in one of the ranges. -/
def covers (ranges : List CharRange) (c : Char) : Bool :=
  ranges.any fun r => r.1 ≤ c.toNat && c.toNat ≤ r.2

end CharRange

end BoxedTypes.Text
