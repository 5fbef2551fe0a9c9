import InstructionSet.Document
import InstructionSet.Mnemonic

/-!
# Instructions

An instruction has a name, a primary and perhaps a secondary opcode, operands and modifiers. The
secondary opcode is encoded at a shift and under a mask that both follow from the rest: the sources
push it up, an overlapping capability of the second of three sources takes bits away from it, and
memory accesses keep it in a place of its own.
-/

namespace InstructionSet

set_option autoImplicit false

/-- An instruction. -/
structure Instruction where
  /-- Name of the instruction. -/
  name : String
  /-- Primary opcode. -/
  opcode : UInt32
  /-- Secondary opcode. -/
  opcode2 : Option UInt32
  /-- Sources in order. -/
  sources : List Source
  /-- Names of the destinations in order. -/
  dests : List String
  /-- Staging registers in order. -/
  staging : List Staging
  /-- Immediate operands in order. -/
  immediates : List Immediate
  /-- Modifiers in order. -/
  modifiers : List Modifier
  deriving DecidableEq

namespace Instruction

/-! ## The secondary opcode -/

/-- The opcode of the conversions, whose secondary opcode also tells the sign. -/
def conversionOpcode : UInt32 := 0x90

/-- Whether a list of three sources has one in the middle that adjusts its width. -/
def middleAdjustsWidth : List Source → Bool
  | [_, middle, _] => middle.adjustsWidth
  | _ => false

/-- How far the secondary opcode is shifted. -/
def secondaryShift (instruction : Instruction) : Nat :=
  if Mnemonic.accessesMemory instruction.name then 27
  else max 16 (8 * instruction.sources.length)

/-- The bits that the secondary opcode may use, before its shift. -/
def secondaryMask (instruction : Instruction) : UInt32 :=
  if Mnemonic.accessesMemory instruction.name then 0x7
  else
    let low : UInt32 := if instruction.opcode2.isSome then 0xF else 0
    let left : UInt32 := if instruction.modifiers.any (·.name = "left") then 0x100 else 0
    let kept : UInt32 := if middleAdjustsWidth instruction.sources then ~~~ 0xC else ~~~ 0
    let sign : UInt32 := if instruction.opcode = conversionOpcode then 0x10 else 0
    ((low ||| left) &&& kept) ||| sign

/-- The bits of the secondary opcode that lie outside the mask. -/
def strayBits (instruction : Instruction) : UInt32 :=
  match instruction.opcode2 with
  | none => 0
  | some opcode2 => opcode2 &&& ~~~ instruction.secondaryMask

/-- Whether the secondary opcode lies inside the mask. -/
def fitsMask (instruction : Instruction) : Bool :=
  match instruction.opcode2 with
  | none => true
  | some opcode2 => opcode2 &&& instruction.secondaryMask = opcode2

/-! ## Parts of an instruction -/

/-- The modifier with a name. -/
def modifier? (instruction : Instruction) (name : String) : Option Modifier :=
  instruction.modifiers.find? (·.name = name)

/-- Every bit field that the instruction claims, under a name: those of the sources, the staging
registers, the immediate operands and the modifiers. -/
def fields (instruction : Instruction) : List (String × BitField) :=
  (instruction.sources.flatMap fun source =>
    source.encoding.fields.map fun (label, field) =>
      ("src" ++ toString source.index.toNat ++ "." ++ label, field)) ++
  (instruction.staging.map fun register =>
    ("sr" ++ toString register.index.toNat, ⟨register.start, 8⟩)) ++
  (instruction.immediates.map fun immediate => ("imm." ++ immediate.name, immediate.field)) ++
  (instruction.modifiers.map fun modifier => ("mod." ++ modifier.name, modifier.field))

/-- The instruction itself, unless it has both destinations and staging registers. -/
def check (instruction : Instruction) : Except BuildError Instruction :=
  if instruction.dests ≠ [] ∧ instruction.staging ≠ [] then
    .error (.destsAndStaging instruction.name)
  else
    .ok instruction

end Instruction
end InstructionSet
