import InstructionSet.Instruction
import InstructionSet.Modifier.Catalog

/-!
# Assembling instructions

A header and a layout make an instruction. The header is a template with overrides on top of it,
and must come to a name and a primary opcode. The layout's operands are numbered in order, and the
width of a source that does not give one is the width that the instruction's own name tells. The
modifiers are placed by the layout or by the catalog, and take their values from the registry.
-/

namespace InstructionSet

set_option autoImplicit false

/-! ## Headers -/

/-- A header in which anything may be left out. -/
structure PartialHeader where
  /-- Name of the instruction. -/
  name : Option String := none
  /-- Opcodes. -/
  opcodes : Opcodes := {}
  deriving DecidableEq

/-- The header of an instruction. -/
structure Header where
  /-- Name of the instruction. -/
  name : String
  /-- Primary opcode. -/
  opcode : UInt32
  /-- Secondary opcode. -/
  opcode2 : Option UInt32
  deriving DecidableEq

namespace PartialHeader

/-- What a header overrides, on top of a template. -/
def «over» (overrides template : PartialHeader) : PartialHeader where
  name := overrides.name <|> template.name
  opcodes := overrides.opcodes.orElse template.opcodes

/-- The header, when it has a name and a primary opcode. -/
def complete (header : PartialHeader) : Except BuildError Header :=
  match header.name with
  | none => .error .nameMissing
  | some name =>
      match header.opcodes.primary with
      | none => .error (.opcodeMissing name)
      | some opcode => .ok ⟨name, opcode, header.opcodes.secondary⟩

end PartialHeader

/-! ## Operands -/

/-- A place among operands, when a byte counts that far. -/
def operandIndex (operand : CountedOperand) (place : Nat) : Except BuildError UInt8 :=
  if place < 256 then .ok (UInt8.ofNat place) else .error (.tooMany operand)

/-- The sources that forms declare from a place on. -/
def Source.resolveFrom (width : UInt8) : (place : Nat) → List SourceForm →
    Except BuildError (List Source)
  | _, [] => .ok []
  | place, form :: rest => do
      let index ← operandIndex .source place
      let source ← Source.resolve form index width
      let sources ← Source.resolveFrom width (place + 1) rest
      return source :: sources

/-- A number of plain sources from a place on. -/
def Source.plainFrom (width : UInt8) : (place count : Nat) → Except BuildError (List Source)
  | _, 0 => .ok []
  | place, count + 1 => do
      let index ← operandIndex .source place
      let sources ← Source.plainFrom width (place + 1) count
      return .plain index width :: sources

/-- The staging registers that forms declare from a place on. -/
def Staging.resolveFrom : (place : Nat) → List StagingForm → Except BuildError (List Staging)
  | _, [] => .ok []
  | place, form :: rest => do
      let index ← operandIndex .staging place
      let register ← Staging.resolve form index
      let registers ← Staging.resolveFrom (place + 1) rest
      return register :: registers

/-- The sources and staging registers of an instruction. -/
structure Registers where
  /-- Sources in order. -/
  sources : List Source
  /-- Staging registers in order. -/
  staging : List Staging

namespace Layout

/-- The sources of a layout, the plain ones last. -/
def resolvedSources (layout : Layout) (width : UInt8) : Except BuildError (List Source) := do
  let declared ← Source.resolveFrom width 0 layout.sources
  let plain ← Source.plainFrom width layout.sources.length layout.plainSources.toNat
  return declared ++ plain

/-- The names of the destinations of a layout, the plain ones last. -/
def resolvedDests (layout : Layout) : List String :=
  layout.dests ++ List.replicate layout.plainDests.toNat ""

/-- The registers of a layout, for a mnemonic that tells the given width. -/
def registers (layout : Layout) (width : UInt8) : Except BuildError Registers := do
  let sources ← layout.resolvedSources width
  let staging ← Staging.resolveFrom 0 layout.staging
  return ⟨sources, staging⟩

end Layout

/-! ## The whole instruction -/

/-- The instruction with a header, the operands of a layout and the given modifiers. -/
def Header.assemble (header : Header) (layout : Layout) (registers : Registers)
    (modifiers : List Modifier) : Except BuildError Instruction :=
  Instruction.check {
    name := header.name
    opcode := header.opcode
    opcode2 := header.opcode2
    sources := registers.sources
    dests := layout.resolvedDests
    staging := registers.staging
    immediates := layout.immediates
    modifiers := modifiers }

/-- The modifier that a layout refers to. -/
def ModifierReference.resolve (catalog : Catalog) (enums : Registry) :
    ModifierReference → Except BuildError Modifier
  | .placed placement => placement.resolve enums
  | .tagged tag => catalog.resolve enums tag

/-- The modifiers of a layout. -/
def Layout.resolvedModifiers (layout : Layout) (catalog : Catalog) (enums : Registry) :
    Except BuildError (List Modifier) :=
  layout.modifiers.mapM (·.resolve catalog enums)

/-- The instruction that a header and a layout make. -/
def PartialHeader.build (header : PartialHeader) (layout : Layout) (catalog : Catalog)
    (enums : Registry) : Except BuildError Instruction := do
  let header ← header.complete
  let registers ← layout.registers (Mnemonic.width header.name)
  let modifiers ← layout.resolvedModifiers catalog enums
  header.assemble layout registers modifiers

end InstructionSet
