/-!
# Ranges of code points

A property of characters that a standard defines by enumeration is kept as a list of ranges of code
points, in ascending order and with both ends included. A character has the property when one of
the ranges holds its code point.
-/

namespace InstructionSet.Text

set_option autoImplicit false

/-- A range of code points, from its first to its last. -/
abbrev CodeRange := Nat × Nat

namespace CodeRange

/-- Whether a range holds a code point. -/
def holds (range : CodeRange) (code : Nat) : Bool :=
  range.1 ≤ code && code ≤ range.2

/-- Whether one of the ranges holds the code point of a character. -/
def cover (ranges : List CodeRange) (c : Char) : Bool :=
  ranges.any (·.holds c.toNat)

theorem cover_iff (ranges : List CodeRange) (c : Char) :
    cover ranges c = true ↔ ∃ range ∈ ranges, range.1 ≤ c.toNat ∧ c.toNat ≤ range.2 := by
  simp [cover, holds]

end CodeRange
end InstructionSet.Text
