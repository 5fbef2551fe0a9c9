import InstructionSet.Modifier
import InstructionSet.Operand.Immediate
import InstructionSet.Operand.Source
import InstructionSet.Operand.Staging

/-!
# Layouts

A layout is the list of operands and modifiers that an instruction, or every member of a group of
instructions, is declared with. Its entries may be interleaved in any way: what counts is the order
of the entries of each kind. Sources and destinations without name and capabilities need no entry
of their own; the layout counts them, and they stand behind the ones with an entry.
-/

namespace InstructionSet

set_option autoImplicit false

/-- An entry of a layout. -/
inductive LayoutEntry where
  /-- A source. -/
  | source (form : SourceForm)
  /-- A destination with its name. -/
  | dest (name : String)
  /-- A staging register. -/
  | staging (form : StagingForm)
  /-- An immediate operand. -/
  | immediate (immediate : Immediate)
  /-- A modifier at a placement. -/
  | modifier (placement : ModifierPlacement)
  /-- A modifier of the catalog. -/
  | tag (tag : String)
  deriving DecidableEq

/-- The operands and modifiers of an instruction. -/
structure Layout where
  /-- Number of further sources. -/
  plainSources : UInt8 := 0
  /-- Number of further destinations. -/
  plainDests : UInt8 := 0
  /-- The entries in the order in which they are declared. -/
  entries : List LayoutEntry := []
  deriving DecidableEq

/-- How a layout refers to a modifier. -/
inductive ModifierReference where
  /-- By its placement. -/
  | placed (placement : ModifierPlacement)
  /-- By its tag in the catalog. -/
  | tagged (tag : String)
  deriving DecidableEq

namespace LayoutEntry

/-- The source of an entry. -/
def source? : LayoutEntry → Option SourceForm
  | .source form => some form
  | _ => none

/-- The destination of an entry. -/
def dest? : LayoutEntry → Option String
  | .dest name => some name
  | _ => none

/-- The staging register of an entry. -/
def staging? : LayoutEntry → Option StagingForm
  | .staging form => some form
  | _ => none

/-- The immediate operand of an entry. -/
def immediate? : LayoutEntry → Option Immediate
  | .immediate operand => some operand
  | _ => none

/-- The modifier of an entry. -/
def modifier? : LayoutEntry → Option ModifierReference
  | .modifier placement => some (.placed placement)
  | .tag name => some (.tagged name)
  | _ => none

end LayoutEntry

namespace Layout

/-- The sources with an entry. -/
def sources (layout : Layout) : List SourceForm :=
  layout.entries.filterMap (·.source?)

/-- The destinations with an entry. -/
def dests (layout : Layout) : List String :=
  layout.entries.filterMap (·.dest?)

/-- The staging registers. -/
def staging (layout : Layout) : List StagingForm :=
  layout.entries.filterMap (·.staging?)

/-- The immediate operands. -/
def immediates (layout : Layout) : List Immediate :=
  layout.entries.filterMap (·.immediate?)

/-- The modifiers. -/
def modifiers (layout : Layout) : List ModifierReference :=
  layout.entries.filterMap (·.modifier?)

/-- The layout with one more entry at its end. -/
def add (layout : Layout) (entry : LayoutEntry) : Layout :=
  { layout with entries := layout.entries ++ [entry] }

end Layout
end InstructionSet
