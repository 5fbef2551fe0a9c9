/-!
# Faults of construction

An instruction is built from a header and a layout of operands and modifiers. This module lists
what can be wrong with them, each fault with what its message needs to say.
-/

namespace InstructionSet

set_option autoImplicit false

/-- Capabilities of a source whose bits have a place for the first three sources only. -/
inductive SlottedCapability where
  /-- Absolute value and negation. -/
  | absNeg
  /-- Selection of halves or bytes. -/
  | swizzle
  deriving DecidableEq

/-- The capability in words. -/
def SlottedCapability.text : SlottedCapability → String
  | .absNeg => "abs/neg"
  | .swizzle => "swizzle"

/-- Operands that are counted by a byte. -/
inductive CountedOperand where
  /-- A source. -/
  | source
  /-- A staging register. -/
  | staging
  deriving DecidableEq

/-- The operand in words. -/
def CountedOperand.text : CountedOperand → String
  | .source => "source"
  | .staging => "staging register"

/-- What keeps an instruction from being built. -/
inductive BuildError where
  /-- No name is given. -/
  | nameMissing
  /-- No opcode is given. -/
  | opcodeMissing (name : String)
  /-- There are more operands than a byte counts. -/
  | tooMany (operand : CountedOperand)
  /-- The source comes too late to carry a capability. -/
  | sourceWithoutSlot (index : UInt8) (capability : SlottedCapability)
  /-- The source is too narrow or too wide for a swizzle. -/
  | swizzleWidth (index size : UInt8)
  /-- The staging register is not one of the two that can be encoded. -/
  | stagingOutOfRange (index : UInt8)
  /-- The bit field of a modifier has no bits. -/
  | modifierWithoutBits (name : String)
  /-- No enumeration tells the values of a modifier. -/
  | modifierWithoutValues (name : String) (size : UInt8)
  /-- No modifier has the tag. -/
  | unknownTag (tag : String) (known : List String)
  /-- There are both destinations and staging registers. -/
  | destsAndStaging (name : String)
  deriving DecidableEq

/-- The fault in words. -/
def BuildError.message : BuildError → String
  | .nameMissing => "instruction is missing a name"
  | .opcodeMissing name => "instruction '" ++ name ++ "' is missing an opcode"
  | .tooMany operand => "too many " ++ operand.text ++ " operands"
  | .sourceWithoutSlot index capability =>
      "source " ++ toString index.toNat ++ " cannot carry " ++ capability.text ++
        "; only sources 0..=2 have a " ++ capability.text ++ " field"
  | .swizzleWidth index size =>
      "source " ++ toString index.toNat ++ " is " ++ toString size.toNat ++
        " bits wide; swizzles require 16 or 32"
  | .stagingOutOfRange index =>
      "staging register " ++ toString index.toNat ++ " out of range; at most two are encodable"
  | .modifierWithoutBits name => "modifier '" ++ name ++ "' must be at least one bit wide"
  | .modifierWithoutValues name size =>
      "modifier '" ++ name ++ "' is " ++ toString size.toNat ++ " bits wide but no enum named '" ++
        name ++ "' is declared"
  | .unknownTag tag known =>
      "unknown modifier tag '" ++ tag ++ "' (known tags: " ++ ", ".intercalate known ++ ")"
  | .destsAndStaging name =>
      "instruction '" ++ name ++ "' declares both destinations and staging registers"

end InstructionSet
