import InstructionSet.Digest.Sha256
import InstructionSet.Json
import InstructionSet.Table

/-!
# The canonical form of a table

A table is written as JSON with the members of every object in a fixed order and the entries of
maps in the order of their names. The compact text of that value is the canonical form of the
table, and its SHA-256 digest is the table's fingerprint. The warnings of a table are not part of
it.
-/

namespace InstructionSet

set_option autoImplicit false

/-! ## Parts of a table as JSON -/

/-- A byte as JSON. -/
def Json.byte (value : UInt8) : Json := .number value.toNat

/-- A 32-bit word as JSON. -/
def Json.word (value : UInt32) : Json := .number value.toNat

/-- A bit field as JSON. -/
def BitField.json (field : BitField) : Json :=
  .object [("start", .byte field.start), ("width", .byte field.width)]

/-- The names of the capabilities that a source has. -/
def SourceTraits.names (traits : SourceTraits) : List String :=
  [ ("FLOAT", traits.float), ("SWIZZLE", traits.swizzle), ("WIDEN", traits.widen),
    ("LANES", traits.lanes), ("ABSNEG", traits.absNeg), ("NOT", traits.not) ].filterMap
      fun (name, present) => if present then some name else none

/-- Capabilities as JSON: their names in one text. -/
def SourceTraits.json (traits : SourceTraits) : Json :=
  .text (" | ".intercalate traits.names)

/-- The bit fields of a source as JSON. -/
def SourceEncoding.json (encoding : SourceEncoding) : Json :=
  .object [
    ("neg", .ofOption BitField.json encoding.neg),
    ("abs", .ofOption BitField.json encoding.abs),
    ("not", .ofOption BitField.json encoding.not),
    ("widen", .ofOption BitField.json encoding.widen),
    ("lane", .ofOption BitField.json encoding.lane),
    ("swizzle", .ofOption BitField.json encoding.swizzle) ]

/-- A source as JSON. -/
def Source.json (source : Source) : Json :=
  .object [
    ("name", .text source.name),
    ("index", .byte source.index),
    ("size", .byte source.size),
    ("flags", source.traits.json),
    ("lane", .ofOption .byte source.lane),
    ("encoding", source.encoding.json) ]

/-- A destination as JSON. -/
def Json.dest (name : String) : Json :=
  .object [("name", .text name)]

/-- A staging register as JSON. -/
def Staging.json (register : Staging) : Json :=
  .object [
    ("name", .text register.name),
    ("index", .byte register.index),
    ("read", .boolean register.read),
    ("write", .boolean register.write),
    ("count", .byte register.count),
    ("flags_enabled", .boolean register.flags),
    ("start", .byte register.start),
    ("encoded_flags", .byte register.encodedFlags),
    ("size", .byte Staging.size) ]

/-- An immediate operand as JSON. -/
def Immediate.json (immediate : Immediate) : Json :=
  .object [
    ("name", .text immediate.name),
    ("start", .byte immediate.start),
    ("size", .byte immediate.size),
    ("signed", .boolean immediate.signed) ]

/-- The members that tell the placement of a modifier. -/
def ModifierPlacement.members (placement : ModifierPlacement) : List (String × Json) :=
  [ ("name", .text placement.name),
    ("start", .byte placement.start),
    ("size", .byte placement.size),
    ("implied", .boolean placement.implied) ]

/-- The placement of a modifier as JSON. -/
def ModifierPlacement.json (placement : ModifierPlacement) : Json :=
  .object placement.members

/-- A modifier as JSON. -/
def Modifier.json (modifier : Modifier) : Json :=
  .object (modifier.toModifierPlacement.members ++ [
    ("values", .ofList .text modifier.values),
    ("default", .ofOption .number modifier.default?) ])

/-- An instruction as JSON. -/
def Instruction.json (instruction : Instruction) : Json :=
  .object [
    ("name", .text instruction.name),
    ("opcode", .word instruction.opcode),
    ("opcode2", .ofOption .word instruction.opcode2),
    ("sources", .ofList Source.json instruction.sources),
    ("dests", .ofList .dest instruction.dests),
    ("staging", .ofList Staging.json instruction.staging),
    ("immediates", .ofList Immediate.json instruction.immediates),
    ("modifiers", .ofList Modifier.json instruction.modifiers),
    ("secondary_shift", .number instruction.secondaryShift),
    ("secondary_mask", .word instruction.secondaryMask) ]

/-- A value of an enumeration as JSON. -/
def EnumerationValue.json (value : EnumerationValue) : Json :=
  .object [("text", .text value.text), ("is_default", .boolean value.isDefault)]

/-- An enumeration as JSON. -/
def Enumeration.json (enumeration : Enumeration) : Json :=
  .object [
    ("name", .text enumeration.name),
    ("values", .ofList EnumerationValue.json enumeration.values) ]

/-- A map as JSON, with its entries as the members of an object. -/
def NameMap.json {α : Type} (form : α → Json) (map : NameMap α) : Json :=
  .object (map.entries.map fun (name, value) => (name, form value))

/-! ## The canonical form -/

namespace Table

/-- A table as JSON. -/
def json (table : Table) : Json :=
  .object [
    ("instructions", .ofList Instruction.json table.instructions),
    ("enums", table.enums.json Enumeration.json),
    ("luts", table.luts.json (.ofList .word)) ]

/-- The canonical text of a table. -/
def canonical (table : Table) : String :=
  String.ofList table.json.compact

/-- The digest of the canonical text. -/
def digest (table : Table) : Digest.Words :=
  Digest.Sha256.digest table.canonical.toUTF8.toList

/-- The fingerprint of a table, in hexadecimal. -/
def fingerprint (table : Table) : String :=
  table.digest.hex

end Table
end InstructionSet
