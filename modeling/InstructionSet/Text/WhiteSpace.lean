import InstructionSet.Text.CodeRange

/-!
# White space

Blank characters between tokens, and around a numeral, are those with the Unicode property
White_Space. They include the line separators; only the newline itself ends a line of source.
-/

namespace InstructionSet.Text

set_option autoImplicit false

/-- The code points with the Unicode property White_Space, as maximal ranges in ascending order. -/
def whiteSpaceRanges : List CodeRange :=
  [
    (0x9, 0xD), (0x20, 0x20), (0x85, 0x85), (0xA0, 0xA0), (0x1680, 0x1680),
    (0x2000, 0x200A), (0x2028, 0x2029), (0x202F, 0x202F), (0x205F, 0x205F), (0x3000, 0x3000)]

/-- Whether a character has the Unicode property White_Space. -/
def isWhiteSpace (c : Char) : Bool :=
  CodeRange.cover whiteSpaceRanges c

/-- The text without the white space at its two ends. -/
def trim (text : List Char) : List Char :=
  ((text.dropWhile isWhiteSpace).reverse.dropWhile isWhiteSpace).reverse

end InstructionSet.Text
