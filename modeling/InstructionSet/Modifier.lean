import InstructionSet.BitField
import InstructionSet.BuildError
import InstructionSet.Enumeration

/-!
# Modifiers

A modifier is a choice that an instruction encodes in a bit field. A placement says where the field
is. A field of one bit is a flag, whose two values are nothing and the name of the modifier; the
values of a wider field are those of the enumeration with the modifier's name.
-/

namespace InstructionSet

set_option autoImplicit false

/-- Where a modifier is encoded. -/
structure ModifierPlacement where
  /-- Name of the modifier. -/
  name : String
  /-- Lowest bit. -/
  start : UInt8
  /-- Number of bits. -/
  size : UInt8
  /-- The modifier follows from other parts of the instruction. -/
  implied : Bool := false
  deriving DecidableEq

/-- A modifier with its values. -/
structure Modifier extends ModifierPlacement where
  /-- Texts of the values in the order of their codes. -/
  values : List String
  /-- Code of the default value. -/
  default? : Option Nat
  deriving DecidableEq

namespace ModifierPlacement

/-- The bits of a modifier. -/
def field (placement : ModifierPlacement) : BitField :=
  ⟨placement.start, placement.size⟩

/-- Whether a modifier is a flag. -/
def isFlag (placement : ModifierPlacement) : Bool :=
  placement.size = 1

/-- The flag at a placement, which is not set by default. -/
def flag (placement : ModifierPlacement) : Modifier :=
  { placement with values := ["", placement.name], default? := some 0 }

/-- The modifier at a placement whose values are those of an enumeration. -/
def choice (placement : ModifierPlacement) (enumeration : Enumeration) : Modifier :=
  { placement with values := enumeration.texts, default? := enumeration.default? }

/-- The modifier at a placement, with values from a registry. -/
def resolve (placement : ModifierPlacement) (enums : Registry) : Except BuildError Modifier :=
  if placement.size = 0 then
    .error (.modifierWithoutBits placement.name)
  else if placement.isFlag then
    .ok placement.flag
  else
    match enums.named? placement.name with
    | some enumeration => .ok (placement.choice enumeration)
    | none => .error (.modifierWithoutValues placement.name placement.size)

end ModifierPlacement
end InstructionSet
