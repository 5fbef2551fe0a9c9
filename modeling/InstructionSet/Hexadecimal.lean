/-!
# Hexadecimal numbers

Opcodes and masks are shown in hexadecimal behind the mark `0x`, with digits in lower case.
-/

namespace InstructionSet.Hexadecimal

set_option autoImplicit false

/-- A number in hexadecimal behind its mark. -/
def text (number : Nat) : String :=
  "0x" ++ String.ofList (Nat.toDigits 16 number)

/-- A number in hexadecimal behind its mark, filled up with zeros to a number of digits. -/
def padded (count number : Nat) : String :=
  let digits := Nat.toDigits 16 number
  "0x" ++ String.ofList (List.replicate (count - digits.length) '0' ++ digits)

end InstructionSet.Hexadecimal
