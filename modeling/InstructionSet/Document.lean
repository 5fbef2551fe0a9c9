import InstructionSet.Layout

/-!
# Instruction descriptions

A description is a sequence of directives: lookup tables of constants, enumerations, instructions,
and groups of instructions that share a layout. An opcode may be left out where another header
supplies it.
-/

namespace InstructionSet

open InstructionSet.Text

set_option autoImplicit false

/-- The opcodes that a header gives. -/
structure Opcodes where
  /-- Primary opcode. -/
  primary : Option UInt32 := none
  /-- Secondary opcode. -/
  secondary : Option UInt32 := none
  deriving DecidableEq

/-- The opcodes of one header, completed by those of another. -/
def Opcodes.orElse (first second : Opcodes) : Opcodes where
  primary := first.primary <|> second.primary
  secondary := first.secondary <|> second.secondary

/-- A named list of constants. -/
structure LookupTable where
  /-- Name of the table. -/
  name : String
  /-- Constants in order. -/
  values : List UInt32
  /-- Place of the declaration. -/
  region : Region
  deriving DecidableEq

/-- An instruction as it is declared. -/
structure InstructionForm where
  /-- Name of the instruction. -/
  name : String
  /-- Opcodes, as far as they are given. -/
  opcodes : Opcodes
  /-- Operands and modifiers. -/
  layout : Layout
  /-- Place of the declaration. -/
  region : Region
  deriving DecidableEq

/-- A member of a group as it is declared. -/
structure GroupMember where
  /-- Name of the instruction. -/
  name : String
  /-- Opcodes, as far as they differ from those of the group. -/
  opcodes : Opcodes
  /-- Place of the declaration. -/
  region : Region
  deriving DecidableEq

/-- A group of instructions with one layout as it is declared. -/
structure GroupForm where
  /-- Name of the group, which names no instruction. -/
  name : Option String
  /-- Opcodes of the members that do not give their own. -/
  opcodes : Opcodes
  /-- Operands and modifiers of every member. -/
  layout : Layout
  /-- Members in order. -/
  members : List GroupMember
  /-- Place of the declaration. -/
  region : Region
  deriving DecidableEq

/-- A directive of a description. -/
inductive Directive where
  /-- A lookup table. -/
  | lookupTable (table : LookupTable)
  /-- An enumeration. -/
  | enumeration (form : EnumerationForm)
  /-- An instruction. -/
  | instruction (form : InstructionForm)
  /-- A group of instructions. -/
  | group (form : GroupForm)
  deriving DecidableEq

namespace Directive

/-- The lookup table of a directive. -/
def lookupTable? : Directive → Option LookupTable
  | .lookupTable table => some table
  | _ => none

/-- The enumeration of a directive. -/
def enumeration? : Directive → Option EnumerationForm
  | .enumeration form => some form
  | _ => none

/-- Whether a directive declares instructions. -/
def declaresInstructions : Directive → Bool
  | .instruction _ => true
  | .group _ => true
  | _ => false

end Directive

/-- An instruction description. -/
structure Document where
  /-- Label of the file, for diagnostics. -/
  path : String
  /-- Directives in order. -/
  directives : List Directive
  deriving DecidableEq

namespace Document

/-- The lookup tables of a description. -/
def lookupTables (document : Document) : List LookupTable :=
  document.directives.filterMap (·.lookupTable?)

/-- The enumerations of a description. -/
def enumerations (document : Document) : List EnumerationForm :=
  document.directives.filterMap (·.enumeration?)

/-- The registry of the enumerations of a description. -/
def registry (document : Document) : Except Failure Registry :=
  Registry.ofForms document.path document.enumerations

end Document
end InstructionSet
