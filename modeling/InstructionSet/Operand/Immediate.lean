import InstructionSet.BitField

/-!
# Immediate operands

An immediate is a constant inside the encoded instruction, at bits that the layout gives.
-/

namespace InstructionSet

set_option autoImplicit false

/-- An immediate operand. -/
structure Immediate where
  /-- Name of the operand. -/
  name : String
  /-- Lowest bit. -/
  start : UInt8
  /-- Number of bits. -/
  size : UInt8
  /-- The constant has a sign. -/
  signed : Bool
  deriving DecidableEq

/-- The bits of an immediate. -/
def Immediate.field (immediate : Immediate) : BitField :=
  ⟨immediate.start, immediate.size⟩

end InstructionSet
