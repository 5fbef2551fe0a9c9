import InstructionSet.NameMap
import InstructionSet.Validation

/-!
# Validating batches

A validator is given batches of instructions, one after the other. It reports what it finds as it
goes. A census of the names comes first; then the instructions are checked in turn, each for its
secondary opcode and for its modifiers, so that errors and warnings come mixed. At the end of a
batch all reports are taken out and divided.
-/

namespace InstructionSet

open InstructionSet.Text

set_option autoImplicit false

/-! ## The census of names -/

/-- How often a name has occurred. -/
structure Tally where
  /-- The number of occurrences. -/
  count : Nat := 0
  /-- The place of the second one. -/
  second : Option Span := none

/-- The tally with one more occurrence. -/
def Tally.again (tally : Tally) (span : Option Span) : Tally where
  count := tally.count + 1
  second := if tally.count + 1 = 2 then span else tally.second

/-- The names that have occurred. -/
structure Census where
  /-- The names in the order of their first occurrences. -/
  order : List String := []
  /-- How often each has occurred. -/
  tallies : NameMap Tally := .empty

namespace Census

/-- How often a name has occurred. -/
def tally (census : Census) (name : String) : Tally :=
  (census.tallies.find? name).getD {}

/-- The census with one more instruction. -/
def enter (census : Census) (entry : Located) : Census :=
  let name := entry.instruction.name
  { order := if census.tallies.contains name then census.order else census.order ++ [name]
    tallies := census.tallies.insert name ((census.tally name).again entry.span) }

/-- The census of instructions. -/
def ofEntries (entries : List Located) : Census :=
  entries.foldl enter {}

end Census

/-! ## Checks that report -/

/-- A computation that reports what it finds, behind what was reported before. -/
abbrev Validator := StateM (List Diagnostic)

namespace Validator

/-- Reports a violation at a place. -/
def report (violation : Violation) (span : Option Span) : Validator Unit :=
  modify (· ++ [violation.diagnostic span])

/-- Reports the name of a census if it has not occurred once. -/
def checkName (census : Census) (name : String) : Validator Unit :=
  let tally := census.tally name
  if tally.count = 1 then return () else report (.duplicate name tally.count) tally.second

/-- Reports the names that occur several times. -/
def checkNames (entries : List Located) : Validator Unit :=
  let census := Census.ofEntries entries
  forM census.order (checkName census)

/-- Reports a secondary opcode that lies outside its mask. -/
def checkMask (entry : Located) : Validator Unit :=
  let instruction := entry.instruction
  if instruction.fitsMask then
    return ()
  else
    report (.outsideMask instruction.name (instruction.opcode2.getD 0) instruction.strayBits
      instruction.secondaryMask) entry.span

/-- Warns about overflowing modifiers of an instruction whose names were not warned about yet. The
result has the names that have been warned about now. -/
def checkCapacity (entry : Located) : (warned : List String) → List Modifier →
    Validator (List String)
  | warned, [] => return warned
  | warned, modifier :: rest =>
      if Validation.overflows modifier = true ∧ modifier.name ∉ warned then do
        report (.tooManyValues modifier entry.instruction.name) entry.span
        checkCapacity entry (modifier.name :: warned) rest
      else
        checkCapacity entry warned rest

/-- Checks instructions in turn. -/
def checkEach : (warned : List String) → List Located → Validator Unit
  | _, [] => return ()
  | warned, entry :: rest => do
      checkMask entry
      let warned ← checkCapacity entry warned entry.instruction.modifiers
      checkEach warned rest

/-- Takes out everything that has been reported. -/
def take : Validator (List Diagnostic) := do
  let found ← get
  set ([] : List Diagnostic)
  return found

/-- The warnings about the instructions of a batch, or the errors. -/
def validate (entries : List Located) : Validator (Except Failure (List Diagnostic)) := do
  checkNames entries
  checkEach [] entries
  let found ← take
  let (errors, warnings) := found.partition (·.isError)
  return Phase.validation.accept warnings errors

/-- What batches come to, one after the other, with one validator. -/
def answers (batches : List (List Located)) : List (Except Failure (List Diagnostic)) :=
  ((batches.mapM validate).run []).1

end Validator
end InstructionSet
