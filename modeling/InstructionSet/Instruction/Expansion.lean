import InstructionSet.Instruction.Assembly

/-!
# Expanding declarations

A declared instruction is built from its own header; a group is expanded into one instruction for
each member, whose header stands on top of the group's. What cannot be built is reported at the
declaration of the instruction, which for a member is the member's own.

Many instructions of a description name the same tags. Expansion keeps the modifiers that it has
resolved, under their tags, and hands them out again; what it keeps also survives a declaration
that fails.
-/

namespace InstructionSet

open InstructionSet.Text

set_option autoImplicit false

/-- The modifiers that tags have already been resolved to. -/
abbrev ResolvedTags := NameMap Modifier

/-- A computation that may fail and that keeps the resolved tags. -/
abbrev Expansion (ε : Type) := ExceptT ε (StateM ResolvedTags)

/-- An instruction that cannot be built, at its declaration. -/
structure BuildFault where
  /-- Name of the instruction. -/
  name : String
  /-- What is wrong. -/
  error : BuildError
  /-- Place of the declaration. -/
  region : Region
  deriving DecidableEq

/-- The fault as a diagnostic about a declaration in a file. -/
def BuildFault.diagnostic (path : String) (fault : BuildFault) : Diagnostic :=
  .errorAt .build "build.instruction"
    ("instruction '" ++ fault.name ++ "': " ++ fault.error.message) path fault.region

/-- The fault as the failure to make a table from a file. -/
def BuildFault.failure (path : String) (fault : BuildFault) : Failure :=
  .reported .build [fault.diagnostic path]

/-- A declared instruction and the place of its declaration. -/
structure Declared where
  /-- The instruction. -/
  instruction : Instruction
  /-- Where it is declared. -/
  region : Region

namespace Expansion

/-- The modifier of a tag, kept from before or resolved now. -/
def tagged (catalog : Catalog) (enums : Registry) (tag : String) :
    Expansion BuildError Modifier := do
  match (← get).find? tag with
  | some modifier => return modifier
  | none =>
      let modifier ← catalog.resolve enums tag
      modify (·.insert tag modifier)
      return modifier

/-- The modifier that a layout refers to. -/
def modifier (catalog : Catalog) (enums : Registry) :
    ModifierReference → Expansion BuildError Modifier
  | .placed placement => placement.resolve enums
  | .tagged tag => tagged catalog enums tag

/-- The instruction that a header and a layout make. -/
def build (catalog : Catalog) (enums : Registry) (header : PartialHeader) (layout : Layout) :
    Expansion BuildError Instruction := do
  let header ← header.complete
  let registers ← layout.registers (Mnemonic.width header.name)
  let modifiers ← layout.modifiers.mapM (modifier catalog enums)
  header.assemble layout registers modifiers

/-- A computation whose errors are faults of the instruction declared at a region. -/
def declaring (name : String) (region : Region) (computation : Expansion BuildError Instruction) :
    Expansion BuildFault Declared := do
  let instruction ← computation.adapt fun error => ⟨name, error, region⟩
  return ⟨instruction, region⟩

/-- A declared instruction. -/
def instruction (catalog : Catalog) (enums : Registry) (form : InstructionForm) :
    Expansion BuildFault Declared :=
  declaring form.name form.region
    (build catalog enums ⟨some form.name, form.opcodes⟩ form.layout)

/-- A member of a group. -/
def member (catalog : Catalog) (enums : Registry) (group : GroupForm) (member : GroupMember) :
    Expansion BuildFault Declared :=
  declaring member.name member.region
    (build catalog enums
      (PartialHeader.«over» ⟨some member.name, member.opcodes⟩ ⟨group.name, group.opcodes⟩)
      group.layout)

/-- The members of a group. -/
def group (catalog : Catalog) (enums : Registry) (form : GroupForm) :
    Expansion BuildFault (List Declared) :=
  form.members.mapM (member catalog enums form)

/-- The instructions of a directive. -/
def directive (catalog : Catalog) (enums : Registry) :
    Directive → Expansion BuildFault (List Declared)
  | .lookupTable _ => return []
  | .enumeration _ => return []
  | .instruction form => return [← instruction catalog enums form]
  | .group form => group catalog enums form

/-- The instructions of directives, in order. -/
def directives (catalog : Catalog) (enums : Registry) (directives : List Directive) :
    Expansion BuildFault (List Declared) :=
  List.flatten <$> directives.mapM (directive catalog enums)

/-- What each of several computations comes to, one after the other; those behind one that fails
are run too. -/
def each {ε α : Type} (computations : List (Expansion ε α)) :
    StateM ResolvedTags (List (Except ε α)) :=
  computations.mapM (·.run)

/-- What the expansion of each instruction and group among directives comes to, one after the
other. -/
def attempts (catalog : Catalog) (enums : Registry) (directives : List Directive) :
    List (Except BuildFault (List Declared)) :=
  ((each ((directives.filter (·.declaresInstructions)).map (directive catalog enums))).run
    .empty).1

/-- The outcome of a computation that starts without resolved tags. -/
def outcome {ε α : Type} (computation : Expansion ε α) : Except ε α :=
  (computation.run.run .empty).1

end Expansion
end InstructionSet
