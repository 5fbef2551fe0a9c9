import InstructionSet.Instruction.Expansion
import InstructionSet.Validation

/-!
# Instruction tables

A table holds the instructions of a description in the order of their declarations, with the
members of a group in the place of the group. It also holds the enumerations and the lookup tables,
which may be declared anywhere, and the warnings of validation.

A table is made in steps, each of which may refuse the description: the lookup tables, the
enumerations, the instructions one after the other, and at last the validation of them all.
-/

namespace InstructionSet

open InstructionSet.Text

set_option autoImplicit false

/-! ## Lookup tables -/

/-- The constants of lookup tables under their names. -/
abbrev Constants := NameMap (List UInt32)

namespace Constants

/-- The constants with those of further tables, and the tables whose name was taken. -/
def enterAll (constants : Constants) : List LookupTable → Constants × List LookupTable
  | [] => (constants, [])
  | table :: rest =>
      let (final, repeated) := enterAll (constants.insert table.name table.values) rest
      (final, if constants.contains table.name then table :: repeated else repeated)

/-- The report against a table whose name was taken. -/
def repeatedTable (path : String) (table : LookupTable) : Diagnostic :=
  .errorAt .build "build.lut.duplicate"
    ("lookup table '" ++ table.name ++ "' declared more than once") path table.region

/-- The constants of the lookup tables of a file. -/
def ofTables (path : String) (tables : List LookupTable) : Except Failure Constants :=
  let (constants, repeated) := enterAll .empty tables
  Phase.build.accept constants (repeated.map (repeatedTable path))

end Constants

/-! ## Tables -/

/-- An instruction table. -/
structure Table where
  /-- Instructions in the order of their declarations. -/
  instructions : List Instruction
  /-- Enumerations under the canonical forms of their names. -/
  enums : Registry
  /-- Constants of the lookup tables under their names. -/
  luts : Constants
  /-- Warnings of validation. -/
  warnings : List Diagnostic

namespace Table

/-- An instruction with the place of its declaration in a file. -/
def located (path : String) (declared : Declared) : Located :=
  ⟨declared.instruction, some (declared.region.within path)⟩

/-- The instructions of a description with their places. -/
def expand (document : Document) (catalog : Catalog) (enums : Registry) :
    Except Failure (List Declared) :=
  (Expansion.directives catalog enums document.directives).outcome.mapError
    (·.failure document.path)

/-- The table of a description. -/
def ofDocument (document : Document) (catalog : Catalog) : Except Failure Table := do
  let luts ← Constants.ofTables document.path document.lookupTables
  let enums ← document.registry
  let declared ← expand document catalog enums
  let warnings ← Validation.check (declared.map (located document.path))
  return ⟨declared.map (·.instruction), enums, luts, warnings⟩

/-! ## Queries -/

/-- The place of an instruction under its name, for the instructions of the table in order. An
instruction would take over the name of an earlier one. -/
def index (table : Table) : NameMap Nat :=
  table.instructions.zipIdx.foldl (fun index entry => index.insert entry.1.name entry.2) .empty

/-- The instruction with a name, at the place where the index has the name. -/
def get? (table : Table) (name : String) : Option Instruction :=
  (table.index.find? name).bind fun place => table.instructions[place]?

/-- The instructions with a primary opcode, in the order of the table. -/
def byOpcode (table : Table) (opcode : UInt32) : List Instruction :=
  table.instructions.filter (·.opcode = opcode)

/-- The first instruction with a primary opcode whose secondary opcode, or the lack of one, is as
given. -/
def lookup? (table : Table) (opcode : UInt32) (opcode2 : Option UInt32) : Option Instruction :=
  (table.byOpcode opcode).find? (·.opcode2 = opcode2)

/-- The name of the lookup table that holds the immediate constants. -/
def immediatesName : String := "Immediates"

/-- The immediate constants, none when the description lists none. -/
def immediates (table : Table) : List UInt32 :=
  (table.luts.find? immediatesName).getD []

end Table
end InstructionSet
