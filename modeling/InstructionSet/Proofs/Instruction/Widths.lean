import InstructionSet.Proofs.Expansion.Desugaring
import InstructionSet.Proofs.Expansion.Sessions
import InstructionSet.Proofs.Mnemonic

/-!
# The width of a source

A source that is declared without a width has the one that its instruction's name tells, and so
have the sources that a layout only counts (`Instruction.TakesWidths`). The name is the one that
the instruction ends up with: a member of a group goes by its own name and not by the group's, and
overrides go in front of the template. This holds on every way to an instruction, for the calls of a
session as well as for the directives of a description.

With the rules by which a mnemonic tells a width, this determines the width of every source
(`Mnemonic.width_follows_ending`).
-/

namespace InstructionSet

set_option autoImplicit false

open Fallible

/-- Every source without a width in the layout, by an entry or for want of an entry, has the width
that the instruction's name tells. -/
def Instruction.TakesWidths (layout : Layout) (instruction : Instruction) : Prop :=
  ∀ ⦃place : Nat⦄ ⦃source : Source⦄, instruction.sources[place]? = some source →
    (∀ form ∈ layout.sources[place]?, form.size = none) →
      source.size = Mnemonic.width instruction.name

theorem Instruction.Built.takesWidths {header : PartialHeader} {layout : Layout} {catalog : Catalog}
    {enums : Registry} {instruction : Instruction}
    (built : instruction.Built header layout catalog enums) : instruction.TakesWidths layout := by
  intro place source here unsized
  have sized : (layout.sourceSizes (Mnemonic.width instruction.name))[place]? =
      some source.size := by
    rw [← built.sourceSizes, List.getElem?_map, here]
    rfl
  rw [Layout.sourceSizes, List.getElem?_append] at sized
  split at sized
  next declared =>
    rw [List.getElem?_map] at sized
    obtain ⟨form, found, same⟩ := Option.map_eq_some_iff.1 sized
    rw [← same, unsized form found]
    rfl
  next plain =>
    rw [List.getElem?_replicate] at sized
    split at sized
    next => exact (Option.some.inj sized).symm
    next => cases sized

/-! ## The instructions of a session -/

namespace Expansion

variable {catalog : Catalog} {enums : Registry}

/-- The layout that a call builds instructions with. -/
def Call.layout : Call → Layout
  | .build _ _ layout => layout
  | .instruction form => form.layout
  | .group form => form.layout

/-- The instructions of an answer, none when the call has failed. -/
def Answer.instructions : Answer → List Instruction
  | .built result => result.toOption.toList
  | .declared result => result.toOption.toList.map (·.instruction)
  | .expanded result => result.toOption.toList.flatten.map (·.instruction)

theorem answerAlone_build (overrides template : PartialHeader) (layout : Layout) :
    answerAlone catalog enums (.build overrides template layout) =
      .built ((overrides.«over» template).build layout catalog enums) :=
  (Settles.map (comesTo_build (overrides.«over» template) layout) Answer.built).alone

theorem answerAlone_instruction (form : InstructionForm) :
    answerAlone catalog enums (.instruction form) = .declared (form.declare catalog enums) :=
  (Settles.map (comesTo_instruction form) Answer.declared).alone

theorem answerAlone_group (form : GroupForm) :
    answerAlone catalog enums (.group form) =
      .expanded (form.instructions.mapM (InstructionForm.declare catalog enums)) :=
  (Settles.map (comesTo_group form) Answer.expanded).alone

theorem built_of_declare {form : InstructionForm} {declared : Declared}
    (declares : form.declare catalog enums = .ok declared) :
    declared.instruction.Built form.header form.layout catalog enums :=
  PartialHeader.build_eq_ok_iff.1 (InstructionForm.declare_eq_ok declares).1

/-- Every instruction of an answer is built with the layout of the call. -/
theorem exists_built (call : Call) {instruction : Instruction}
    (member : instruction ∈ (answerAlone catalog enums call).instructions) :
    ∃ header, instruction.Built header call.layout catalog enums := by
  cases call with
  | build overrides template layout =>
      rw [answerAlone_build, Answer.instructions, mem_toOption_iff] at member
      exact ⟨_, PartialHeader.build_eq_ok_iff.1 member⟩
  | instruction form =>
      rw [answerAlone_instruction, Answer.instructions] at member
      obtain ⟨declared, declares, rfl⟩ := List.mem_map.1 member
      exact ⟨_, built_of_declare (mem_toOption_iff.1 declares)⟩
  | group form =>
      rw [answerAlone_group, Answer.instructions] at member
      obtain ⟨declared, inside, rfl⟩ := List.mem_map.1 member
      obtain ⟨members, expands, inside⟩ := List.mem_flatten.1 inside
      obtain ⟨own, declares, made⟩ :=
        exists_of_mapM_eq_ok (mem_toOption_iff.1 expands) inside
      obtain ⟨groupMember, -, rfl⟩ := List.mem_map.1 declares
      exact ⟨_, built_of_declare made⟩

theorem takesWidths_session (calls : List Call) :
    List.Forall₂ (fun call answer => ∀ instruction ∈ answer.instructions,
      instruction.TakesWidths call.layout)
      calls ((session catalog enums calls).run .empty).1 := by
  rw [run_session, List.forall₂_map_right_iff, List.forall₂_same]
  intro call _ instruction member
  obtain ⟨header, built⟩ := exists_built call member
  exact built.takesWidths

end Expansion

/-! ## From the mnemonic to the sources -/

/-- **A mnemonic tells widths by its ending.** The width that a mnemonic tells depends on its last
three characters only and follows the rules of the endings, so that it is 128 or at most 99.
Every source without a width of its own has the width that the name of its instruction tells: in a
session, whatever has been called before, and in the table of a description, whether the
instruction is declared by itself or in a group. -/
theorem Mnemonic.width_follows_ending :
    (∀ front ending : String, 3 ≤ ending.length → width (front ++ ending) = width ending) ∧
      (∀ name, WidthRules name) ∧
      (∀ catalog enums calls, List.Forall₂ (fun call answer =>
        ∀ instruction ∈ Expansion.Answer.instructions answer,
          instruction.TakesWidths (Expansion.Call.layout call))
        calls ((Expansion.session catalog enums calls).run .empty).1) ∧
      ∀ document catalog table, Table.ofDocument document catalog = .ok table →
        List.Forall₂ (fun form instruction => instruction.TakesWidths form.layout)
          document.instructions table.instructions := by
  refine ⟨fun front _ long => width_append front long, widthRules, ?_, ?_⟩
  · intro catalog enums calls
    exact Expansion.takesWidths_session calls
  · intro document catalog table accepts
    exact (Table.accepted_of_ofDocument accepts).built.imp fun _ _ built => built.takesWidths

/-- The name of the group of moves tells the usual width, and the names of its members tell theirs:
eight bits by the ending, thirty-two by the number. -/
theorem Mnemonic.width_follows_ending_moves :
    width "MOV.i8" = 8 ∧ width "MOV.i32" = 32 ∧ width "éλ128" = 128 ∧
      ∃ table, Table.ofDocument .moves .standard = .ok table ∧
        List.Forall₂ (fun form instruction => instruction.TakesWidths form.layout)
          Document.moves.instructions table.instructions := by
  obtain ⟨front, rules, -, tables⟩ := width_follows_ending
  have byte : width "MOV.i8" = 8 :=
    (rules "MOV.i8").byte (by decide) (by decide) (by decide)
  have word : width "MOV.i32" = 32 := by
    rw [show "MOV.i32" = "MOV." ++ "i32" from rfl, front "MOV." "i32" (by decide)]
    decide
  have quad : width "éλ128" = 128 := (rules "éλ128").quad (by decide)
  obtain ⟨table, accepts⟩ : ∃ table, Table.ofDocument .moves .standard = .ok table :=
    exists_eq_ok (by decide +kernel)
  exact ⟨byte, word, quad, table, accepts, tables .moves .standard table accepts⟩

end InstructionSet
