import InstructionSet.Proofs.Table.Accepted

/-!
# Groups are shorthand

A group saves writing: a description in which every group is replaced by an instruction for each of
its members says the same. The table of a description depends on its path, its lookup tables, its
enumerations and the instructions that it declares, members of groups among them, and on nothing
else (`Table.ofDocument_congr`). Writing the groups out changes none of these, and neither does
taking their names away (`Table.ofDocument_ungrouped`).

An instruction of the table goes by the form that declares it, which for a member of a group is the
member's own: that form gives its name, its opcodes, the width of its operands and, beside the
sources and the modifiers, the mask of its secondary opcode (`Instruction.Follows`).
-/

namespace InstructionSet

set_option autoImplicit false

open Fallible

/-! ## Writing groups out -/

/-- The directives that stand for a directive when groups are written out. -/
def Directive.ungrouped : Directive → List Directive
  | .group form => form.instructions.map .instruction
  | directive => [directive]

/-- The description with every group replaced, in its place, by its members. -/
def Document.ungrouped (document : Document) : Document :=
  { document with directives := document.directives.flatMap (·.ungrouped) }

/-- The directive without the name of its group. -/
def Directive.anonymous : Directive → Directive
  | .group form => .group { form with name := none }
  | directive => directive

/-- The description without the names of its groups. -/
def Document.anonymous (document : Document) : Document :=
  { document with directives := document.directives.map (·.anonymous) }

namespace Directive

theorem flatMap_instructions_ungrouped (directive : Directive) :
    directive.ungrouped.flatMap (·.instructions) = directive.instructions := by
  cases directive with
  | group form =>
      rw [ungrouped, List.flatMap_map]
      exact List.flatMap_singleton' _
  | _ => rfl

theorem filterMap_lookupTable?_ungrouped (directive : Directive) :
    directive.ungrouped.filterMap (·.lookupTable?) = directive.lookupTable?.toList := by
  cases directive with
  | group form =>
      rw [ungrouped, List.filterMap_map]
      exact List.filterMap_none _
  | _ => rfl

theorem filterMap_enumeration?_ungrouped (directive : Directive) :
    directive.ungrouped.filterMap (·.enumeration?) = directive.enumeration?.toList := by
  cases directive with
  | group form =>
      rw [ungrouped, List.filterMap_map]
      exact List.filterMap_none _
  | _ => rfl

@[simp] theorem instructions_anonymous (directive : Directive) :
    directive.anonymous.instructions = directive.instructions := by
  cases directive <;> rfl

@[simp] theorem lookupTable?_anonymous (directive : Directive) :
    directive.anonymous.lookupTable? = directive.lookupTable? := by
  cases directive <;> rfl

@[simp] theorem enumeration?_anonymous (directive : Directive) :
    directive.anonymous.enumeration? = directive.enumeration? := by
  cases directive <;> rfl

end Directive

namespace Document

theorem instructions_ungrouped (document : Document) :
    document.ungrouped.instructions = document.instructions := by
  simp only [instructions, ungrouped, List.flatMap_assoc, Directive.flatMap_instructions_ungrouped]

theorem lookupTables_ungrouped (document : Document) :
    document.ungrouped.lookupTables = document.lookupTables := by
  rw [lookupTables, ungrouped, List.filterMap_flatMap]
  simp only [Directive.filterMap_lookupTable?_ungrouped]
  exact (List.filterMap_eq_flatMap_toList _ _).symm

theorem enumerations_ungrouped (document : Document) :
    document.ungrouped.enumerations = document.enumerations := by
  rw [enumerations, ungrouped, List.filterMap_flatMap]
  simp only [Directive.filterMap_enumeration?_ungrouped]
  exact (List.filterMap_eq_flatMap_toList _ _).symm

end Document

/-! ## What an instruction takes from its form -/

/-- An instruction has the name and the opcodes of its form, and derives the widths of its operands
and the mask of its secondary opcode from them. -/
structure Instruction.Follows (form : InstructionForm) (instruction : Instruction) : Prop where
  /-- The name is the form's. -/
  name : instruction.name = form.name
  /-- The primary opcode is the form's. -/
  opcode : form.opcodes.primary = some instruction.opcode
  /-- The secondary opcode is the form's. -/
  opcode2 : form.opcodes.secondary = instruction.opcode2
  /-- A source without a width of its own is as wide as the name of the form tells. -/
  widths : instruction.sources.map (·.size) =
    form.layout.sourceSizes (Mnemonic.width form.name)
  /-- Beside sources and modifiers, the mask depends on the name and the opcodes of the form. -/
  mask : ∀ opcode ∈ form.opcodes.primary, instruction.secondaryMask =
    secondaryMask { instruction with
      name := form.name, opcode := opcode, opcode2 := form.opcodes.secondary,
      dests := [], staging := [], immediates := [] }

theorem Instruction.Built.follows {form : InstructionForm} {catalog : Catalog} {enums : Registry}
    {instruction : Instruction}
    (built : instruction.Built form.header form.layout catalog enums) :
    instruction.Follows form := by
  have name : instruction.name = form.name := (Option.some.inj built.name).symm
  have opcode : form.opcodes.primary = some instruction.opcode := built.opcode
  refine ⟨name, opcode, built.opcode2, ?_, ?_⟩
  · rw [← name]
    exact built.sourceSizes
  · intro primary given
    obtain rfl : primary = instruction.opcode := Option.some.inj (given.symm.trans opcode)
    have opcode2 : form.opcodes.secondary = instruction.opcode2 := built.opcode2
    simp only [secondaryMask, name, opcode2]

/-! ## The table of a description without groups -/

/-- **Groups are shorthand.** A description comes to the same table, or to the same failure, when
each group is replaced by its members as instructions of their own, and when the groups lose their
names; and every instruction of the table goes by its own form. -/
theorem Table.ofDocument_ungrouped (document : Document) (catalog : Catalog) :
    ofDocument document.ungrouped catalog = ofDocument document catalog ∧
      ofDocument document.anonymous catalog = ofDocument document catalog ∧
      ∀ table, ofDocument document catalog = .ok table →
        List.Forall₂ Instruction.Follows document.instructions table.instructions := by
  refine ⟨?_, ?_, ?_⟩
  · have path : document.ungrouped.path = document.path := rfl
    exact ofDocument_congr path document.lookupTables_ungrouped document.enumerations_ungrouped
      document.instructions_ungrouped catalog
  · have path : document.anonymous.path = document.path := rfl
    refine ofDocument_congr path ?_ ?_ ?_ catalog
    · simp [Document.lookupTables, Document.anonymous, List.filterMap_map]
    · simp [Document.enumerations, Document.anonymous, List.filterMap_map]
    · simp [Document.instructions, Document.anonymous, List.flatMap_map]
  · intro table accepts
    exact (accepted_of_ofDocument accepts).built.imp fun _ _ built => built.follows

/-- A group of moves, one of bytes and one of words, of which only the first has a secondary
opcode. -/
def Document.moves : Document where
  path := "moves.isa"
  directives := [.group {
    name := some "MOV"
    opcodes := { primary := some 0x91 }
    layout := { plainSources := 1, plainDests := 1, entries := [.tag "saturate"] }
    members := [⟨"MOV.i8", { secondary := some 1 }, .point ⟨2, 3⟩⟩, ⟨"MOV.i32", {}, .point ⟨3, 3⟩⟩]
    region := .point ⟨1, 1⟩ }]

theorem Table.ofDocument_ungrouped_moves :
    ∃ table, ofDocument .moves .standard = .ok table ∧
      List.Forall₂ Instruction.Follows Document.moves.instructions table.instructions := by
  obtain ⟨table, accepts⟩ : ∃ table, ofDocument .moves .standard = .ok table :=
    exists_eq_ok (by decide +kernel)
  exact ⟨table, accepts, (ofDocument_ungrouped .moves .standard).2.2 table accepts⟩

end InstructionSet
