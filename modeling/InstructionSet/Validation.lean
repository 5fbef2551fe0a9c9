import InstructionSet.Diagnostic
import InstructionSet.Hexadecimal
import InstructionSet.Instruction

/-!
# Validation

The instructions of a finished table are checked against each other. A name must be unique, and a
secondary opcode must lie inside its mask; every instruction that offends is reported. A modifier
with more values than its bit field tells apart only earns a warning, once for each name.
-/

namespace InstructionSet

open InstructionSet.Text

set_option autoImplicit false

/-- An instruction together with the place where it is declared, if it has one. -/
structure Located where
  /-- The instruction. -/
  instruction : Instruction
  /-- The place of its declaration. -/
  span : Option Span

/-- What the instructions of a table can be found to violate. -/
inductive Violation where
  /-- A name occurs several times. -/
  | duplicate (name : String) (count : Nat)
  /-- A secondary opcode has bits outside its mask. -/
  | outsideMask (name : String) (opcode2 stray mask : UInt32)
  /-- A modifier has more values than its field tells apart. -/
  | tooManyValues (modifier : Modifier) (name : String)
  deriving DecidableEq

namespace Violation

/-- The stable name of the violation. -/
def code : Violation → String
  | .duplicate .. => "validation.duplicate-instruction"
  | .outsideMask .. => "validation.opcode2-mask"
  | .tooManyValues .. => "validation.modifier.too-many-values"

/-- How serious the violation is. -/
def severity : Violation → Severity
  | .tooManyValues .. => .warning
  | _ => .error

/-- The violation in words. -/
def message : Violation → String
  | .duplicate name count => "instruction '" ++ name ++ "' appeared " ++ toString count ++ " times"
  | .outsideMask name opcode2 stray mask =>
      "instruction '" ++ name ++ "' secondary opcode " ++ Hexadecimal.text opcode2.toNat ++
        " has bits " ++ Hexadecimal.text stray.toNat ++ " outside mask " ++
        Hexadecimal.text mask.toNat
  | .tooManyValues modifier name =>
      "modifier '" ++ modifier.name ++ "' has " ++ toString modifier.values.length ++
        " values but its " ++ toString modifier.size.toNat ++ "-bit field encodes only " ++
        toString modifier.field.capacity ++ " (first used by '" ++ name ++ "')"

/-- The violation as a diagnostic at a place. -/
def diagnostic (violation : Violation) (span : Option Span) : Diagnostic where
  phase := .validation
  severity := violation.severity
  code := violation.code
  message := violation.message
  span := span

end Violation

namespace Validation

/-- The values whose key no value in front of them has. -/
def firstBy {α : Type} (key : α → String) : List α → List α
  | [] => []
  | value :: rest => value :: (firstBy key rest).filter fun later => key later ≠ key value

/-! ## Errors -/

/-- The instructions with a name. -/
def named (name : String) (entries : List Located) : List Located :=
  entries.filter (·.instruction.name = name)

/-- The report against a name that several instructions have, at the second of them. -/
def duplicate? (entries : List Located) (name : String) : Option Diagnostic :=
  match named name entries with
  | first :: second :: rest =>
      some ((Violation.duplicate name (first :: second :: rest).length).diagnostic second.span)
  | _ => none

/-- The reports against repeated names, in the order in which the names first occur. -/
def duplicates (entries : List Located) : List Diagnostic :=
  (firstBy id (entries.map (·.instruction.name))).filterMap (duplicate? entries)

/-- The report against an instruction whose secondary opcode lies outside its mask. -/
def outsideMask? (entry : Located) : Option Diagnostic :=
  let instruction := entry.instruction
  if instruction.fitsMask then none
  else
    some ((Violation.outsideMask instruction.name (instruction.opcode2.getD 0)
      instruction.strayBits instruction.secondaryMask).diagnostic entry.span)

/-- Everything that makes the instructions no table. -/
def errors (entries : List Located) : List Diagnostic :=
  duplicates entries ++ entries.filterMap outsideMask?

/-! ## Warnings -/

/-- A modifier and the instruction that carries it. -/
structure Carried where
  /-- The modifier. -/
  modifier : Modifier
  /-- The instruction. -/
  carrier : Located

/-- Whether a modifier has more values than its field tells apart. -/
def overflows (modifier : Modifier) : Bool :=
  modifier.values.length > modifier.field.capacity

/-- The overflowing modifiers of all instructions. -/
def overflowing (entries : List Located) : List Carried :=
  entries.flatMap fun entry =>
    (entry.instruction.modifiers.filter overflows).map fun modifier => ⟨modifier, entry⟩

/-- The warning about an overflowing modifier. -/
def Carried.warning (carried : Carried) : Diagnostic :=
  (Violation.tooManyValues carried.modifier carried.carrier.instruction.name).diagnostic
    carried.carrier.span

/-- One warning for each name of an overflowing modifier, about its first use. -/
def warnings (entries : List Located) : List Diagnostic :=
  (firstBy (·.modifier.name) (overflowing entries)).map (·.warning)

/-- The warnings about instructions that make a table, or the errors of those that do not. -/
def check (entries : List Located) : Except Failure (List Diagnostic) :=
  Phase.validation.accept (warnings entries) (errors entries)

end Validation
end InstructionSet
