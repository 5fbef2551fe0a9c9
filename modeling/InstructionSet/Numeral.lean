import InstructionSet.Text.WhiteSpace

/-!
# Numerals

Opcodes, table values, bit positions and counts are written as unsigned numerals, in decimal or
behind a radix mark: `0b` for binary, `0o` for octal, `0x` for hexadecimal, in either case.
Underscores may separate the digits, white space around the numeral is ignored, and one plus sign
may stand in front of the digits. A value must fit 64 bits to be a numeral at all; a narrower
reading also says when the value is out of its range.
-/

namespace InstructionSet

set_option autoImplicit false

/-- Why a text is not read as a numeral. -/
inductive NumeralError where
  /-- Nothing but white space. -/
  | empty
  /-- The digits, without their radix mark, are not those of a 64-bit value. -/
  | malformed (digits : String)
  /-- A minus sign stands in front. -/
  | negative
  /-- The value does not fit the width that was asked for. -/
  | outOfRange (numeral : String)
  deriving DecidableEq

/-- The text of the reason. -/
def NumeralError.message : NumeralError → String
  | .empty => "literal is empty"
  | .malformed digits => "invalid literal format: " ++ digits
  | .negative => "negative literals are not supported"
  | .outOfRange numeral => "literal '" ++ numeral ++ "' exceeds the allowed range"

namespace Numeral

open InstructionSet.Text

/-- The value of a digit in a radix of at most sixteen. -/
def digit? (radix : Nat) (c : Char) : Option Nat :=
  let value? :=
    if '0' ≤ c ∧ c ≤ '9' then some (c.toNat - '0'.toNat)
    else if 'a' ≤ c ∧ c ≤ 'f' then some (c.toNat - 'a'.toNat + 10)
    else if 'A' ≤ c ∧ c ≤ 'F' then some (c.toNat - 'A'.toNat + 10)
    else none
  value?.filter (· < radix)

/-- Whether a character is a digit in a radix of at most sixteen. -/
def isDigit (radix : Nat) (c : Char) : Bool :=
  (digit? radix c).isSome

/-- The radix that a letter behind a zero selects. -/
def radixOf? : Char → Option Nat
  | 'b' | 'B' => some 2
  | 'o' | 'O' => some 8
  | 'x' | 'X' => some 16
  | _ => none

/-- The radix mark in front of a text, the radix it selects, and the text behind it. -/
def splitRadix : List Char → List Char × Nat × List Char
  | '0' :: mark :: rest =>
      match radixOf? mark with
      | some radix => (['0', mark], radix, rest)
      | none => ([], 10, '0' :: mark :: rest)
  | text => ([], 10, text)

/-- The value of digits read from left to right behind a value already read. -/
def valueAfter (radix : Nat) : (value : Nat) → List Char → Option Nat
  | value, [] => some value
  | value, c :: rest => (digit? radix c).bind fun d => valueAfter radix (value * radix + d) rest

/-- The value of one or more digits. -/
def value? (radix : Nat) : List Char → Option Nat
  | [] => none
  | digits => valueAfter radix 0 digits

/-- The value of one or more digits with an optional plus sign. -/
def signed? (radix : Nat) : List Char → Option Nat
  | '+' :: digits => value? radix digits
  | digits => value? radix digits

/-- The value of a trimmed text without a sign in front of its radix mark. -/
def unsigned (text : List Char) : Except NumeralError Nat :=
  let (_, radix, digits) := splitRadix text
  match (signed? radix (digits.filter (· ≠ '_'))).filter (· < UInt64.size) with
  | some value => .ok value
  | none => .error (.malformed (String.ofList digits))

/-- The value of a numeral, which is below `2 ^ 64`. -/
def value (numeral : String) : Except NumeralError Nat :=
  match trim numeral.toList with
  | [] => .error .empty
  | '-' :: _ => .error .negative
  | text => unsigned text

/-- The value of a numeral when it is below a bound. -/
def below (bound : Nat) (numeral : String) : Except NumeralError Nat := do
  let number ← value numeral
  if number < bound then
    return number
  else
    throw (.outOfRange (String.ofList (trim numeral.toList)))

/-- The numeral as a 64-bit word. -/
def word64 (numeral : String) : Except NumeralError UInt64 :=
  UInt64.ofNat <$> value numeral

/-- The numeral as a 32-bit word: an opcode or a table value. -/
def word32 (numeral : String) : Except NumeralError UInt32 :=
  UInt32.ofNat <$> below UInt32.size numeral

/-- The numeral as a byte: a bit position, a width or a count. -/
def byte (numeral : String) : Except NumeralError UInt8 :=
  UInt8.ofNat <$> below UInt8.size numeral

end Numeral
end InstructionSet
