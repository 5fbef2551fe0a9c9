/-!
# Bit fields

An encoded instruction is a word, and everything encoded in it claims a contiguous range of bits.
-/

namespace InstructionSet

set_option autoImplicit false

/-- The `width` bits of an encoded instruction from bit `start` on. -/
structure BitField where
  /-- Lowest bit. -/
  start : UInt8
  /-- Number of bits. -/
  width : UInt8
  deriving DecidableEq

namespace BitField

/-- The bit above the highest one. -/
def stop (field : BitField) : Nat :=
  field.start.toNat + field.width.toNat

/-- How many values the field tells apart, or the largest 64-bit word if there are more. -/
def capacity (field : BitField) : Nat :=
  if field.width < 64 then 1 <<< field.width.toNat else UInt64.size - 1

/-- The field as a range of bits; a field of at most one bit shows its start alone. -/
def text (field : BitField) : String :=
  if field.width ≤ 1 then
    "[" ++ toString field.start.toNat ++ "]"
  else
    "[" ++ toString field.start.toNat ++ ".." ++ toString (field.stop - 1) ++ "]"

end BitField
end InstructionSet
