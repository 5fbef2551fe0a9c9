import InstructionSet.Proofs.Enumeration.Registry
import InstructionSet.Proofs.Expansion.Sessions
import InstructionSet.Proofs.Table.Accepted

/-!
# Enumerations and lookup tables may stand anywhere

A description may declare an enumeration or a lookup table in front of its first use, behind it or
at the end. Two descriptions are arrangements of the same declarations when the directives that
declare instructions are the same, in the same order, and the other ones are the same in any order
(`Document.Rearranged`). Both are then made into the same table, or neither is
(`Table.ofDocument_rearranged`).

Which repetition of a name is reported does depend on the order: the second declaration is the one
that is refused. This is the only difference, for as soon as the lookup tables and the enumerations
are accepted, both descriptions come to the same table or to the same report.
-/

namespace InstructionSet

set_option autoImplicit false

open Fallible

/-- The directives of a description that declare instructions, in order, each with its file. -/
def Document.declarations (document : Document) : List (String × Directive) :=
  (document.directives.filter (·.declaresInstructions)).map (document.path, ·)

/-- Both descriptions have the same declarations of instructions in the same order, and the same
enumerations and lookup tables in any order and at any places among them. -/
structure Document.Rearranged (first second : Document) : Prop where
  /-- The declarations of instructions are the same, one by one. -/
  declarations : first.declarations = second.declarations
  /-- The other declarations are the same but for their order. -/
  others : (first.directives.filter (!·.declaresInstructions)).Perm
    (second.directives.filter (!·.declaresInstructions))

namespace Document

/-! ## What descriptions declare -/

theorem instructions_eq_flatMap (document : Document) :
    document.instructions = document.declarations.flatMap (·.2.instructions) := by
  rw [instructions, declarations, List.flatMap_map]
  induction document.directives with
  | nil => rfl
  | cons directive rest ih =>
      rw [List.flatMap_cons, ih]
      cases directive <;> rfl

theorem lookupTables_eq_filterMap (document : Document) : document.lookupTables =
    (document.directives.filter (!·.declaresInstructions)).filterMap (·.lookupTable?) := by
  rw [lookupTables, List.filterMap_filter]
  refine List.filterMap_congr fun directive _ => ?_
  cases directive <;> rfl

theorem enumerations_eq_filterMap (document : Document) : document.enumerations =
    (document.directives.filter (!·.declaresInstructions)).filterMap (·.enumeration?) := by
  rw [enumerations, List.filterMap_filter]
  refine List.filterMap_congr fun directive _ => ?_
  cases directive <;> rfl

end Document

namespace Document.Rearranged

variable {first second : Document}

theorem instructions (rearranged : first.Rearranged second) :
    first.instructions = second.instructions := by
  rw [instructions_eq_flatMap, instructions_eq_flatMap, rearranged.declarations]

theorem lookupTables (rearranged : first.Rearranged second) :
    first.lookupTables.Perm second.lookupTables := by
  rw [lookupTables_eq_filterMap, lookupTables_eq_filterMap]
  exact rearranged.others.filterMap _

theorem enumerations (rearranged : first.Rearranged second) :
    first.enumerations.Perm second.enumerations := by
  rw [enumerations_eq_filterMap, enumerations_eq_filterMap]
  exact rearranged.others.filterMap _

/-- Descriptions that declare any instruction declare it in one file. -/
theorem path (rearranged : first.Rearranged second) (declares : first.instructions ≠ []) :
    first.path = second.path := by
  rw [instructions_eq_flatMap] at declares
  cases listed : first.declarations with
  | nil =>
      rw [listed] at declares
      exact absurd rfl declares
  | cons declaration _ =>
      have found : declaration ∈ first.declarations := by
        rw [listed]
        exact List.mem_cons_self
      have same : declaration ∈ second.declarations := rearranged.declarations ▸ found
      obtain ⟨_, -, rfl⟩ := List.mem_map.1 found
      obtain ⟨_, -, same⟩ := List.mem_map.1 same
      exact (congrArg Prod.fst same).symm

/-! ## The steps of the construction -/

/-- Lookup tables are accepted in any order, as the same constants. -/
theorem ofTables_eq_ok_iff (rearranged : first.Rearranged second) {luts : Constants} :
    Constants.ofTables first.path first.lookupTables = .ok luts ↔
      Constants.ofTables second.path second.lookupTables = .ok luts := by
  have tables := rearranged.lookupTables
  rw [Constants.ofTables_eq_ok_iff, Constants.ofTables_eq_ok_iff, (tables.map _).nodup_iff,
    NameMap.lists_iff_of_perm (tables.map _)]

/-- Enumerations are accepted in any order, as the same registry. -/
theorem registry_eq_ok_iff (rearranged : first.Rearranged second) {enums : Registry} :
    first.registry = .ok enums ↔ second.registry = .ok enums := by
  have forms := rearranged.enumerations
  have members : ∀ form, form ∈ first.enumerations ↔ form ∈ second.enumerations :=
    fun _ => forms.mem_iff
  rw [registry, registry, Registry.ofForms_eq_ok_iff, Registry.ofForms_eq_ok_iff,
    (forms.map _).nodup_iff, NameMap.lists_iff_of_perm (forms.map _)]
  simp only [members]

/-- Declared instructions are expanded alike and validated alike. -/
theorem completed (rearranged : first.Rearranged second) {α : Type} (catalog : Catalog)
    (enums : Registry) (table : List Declared → List Diagnostic → α) :
    (do let declared ← Table.expand first catalog enums
        let warnings ← Validation.check (declared.map (Table.located first.path))
        return table declared warnings : Except Failure α) =
      (do let declared ← Table.expand second catalog enums
          let warnings ← Validation.check (declared.map (Table.located second.path))
          return table declared warnings) := by
  rw [Table.expand_eq, Table.expand_eq, ← rearranged.instructions]
  by_cases declares : first.instructions = []
  · rw [declares]
    rfl
  · rw [rearranged.path declares]

end Document.Rearranged

/-! ## Tables -/

namespace Table

variable {first second : Document}

/-- **Enumerations and lookup tables may stand anywhere.** A description and any arrangement of its
declarations are made into the same table, if they are made into any; and where the lookup tables
and the enumerations are accepted, both also come to the same report. -/
theorem ofDocument_rearranged (rearranged : first.Rearranged second) (catalog : Catalog) :
    (∀ table, ofDocument first catalog = .ok table ↔ ofDocument second catalog = .ok table) ∧
      ∀ luts enums, Constants.ofTables first.path first.lookupTables = .ok luts →
        first.registry = .ok enums → ofDocument first catalog = ofDocument second catalog := by
  have same : ∀ luts enums, Constants.ofTables first.path first.lookupTables = .ok luts →
      first.registry = .ok enums → ofDocument first catalog = ofDocument second catalog := by
    intro luts enums tables registered
    rw [ofDocument_eq_bind tables registered, ofDocument_eq_bind
      (rearranged.ofTables_eq_ok_iff.1 tables) (rearranged.registry_eq_ok_iff.1 registered)]
    exact rearranged.completed catalog enums _
  refine ⟨fun table => ⟨fun accepts => ?_, fun accepts => ?_⟩, same⟩
  · obtain ⟨tables, registered, -⟩ := ofDocument_eq_ok_iff.1 accepts
    exact same _ _ tables registered ▸ accepts
  · obtain ⟨tables, registered, -⟩ := ofDocument_eq_ok_iff.1 accepts
    rw [same _ _ (rearranged.ofTables_eq_ok_iff.2 tables)
      (rearranged.registry_eq_ok_iff.2 registered)]
    exact accepts

end Table

/-- Two additions that round, the second one with or without an opcode. -/
def Directive.additions (opcode : Option UInt32) : List Directive :=
  [.instruction ⟨"FADD.f32", { primary := some 1 },
      { entries := [.modifier ⟨"round", 30, 2, false⟩] }, .point ⟨1, 1⟩⟩,
    .instruction ⟨"FADD.f16", { primary := opcode },
      { entries := [.modifier ⟨"round", 28, 2, false⟩] }, .point ⟨2, 1⟩⟩]

/-- The modes of rounding. -/
def Directive.roundingModes : Directive :=
  .enumeration ⟨"ROUND", [.value "even" true, .value "zero" false], .point ⟨3, 1⟩⟩

/-- A table of two constants. -/
def Directive.constants : Directive :=
  .lookupTable ⟨"Immediates", [0, 1], .point ⟨4, 1⟩⟩

/-- Additions in front of what they refer to. -/
def Document.additionsFirst (opcode : Option UInt32) : Document :=
  ⟨"add.isa", Directive.additions opcode ++ [.roundingModes, .constants]⟩

/-- Additions behind what they refer to, which stands in the other order. -/
def Document.additionsLast (opcode : Option UInt32) : Document :=
  ⟨"add.isa", [.constants, .roundingModes] ++ Directive.additions opcode⟩

theorem Document.rearranged_additions (opcode : Option UInt32) :
    (additionsFirst opcode).Rearranged (additionsLast opcode) :=
  ⟨rfl, List.Perm.swap _ _ _⟩

theorem Table.ofDocument_rearranged_additions :
    (∃ table, ofDocument (.additionsFirst (some 2)) .standard = .ok table ∧
      ofDocument (.additionsLast (some 2)) .standard = .ok table) ∧
    ∃ failure, ofDocument (.additionsFirst none) .standard = .error failure ∧
      ofDocument (.additionsLast none) .standard = .error failure := by
  constructor
  · obtain ⟨table, accepts⟩ :
        ∃ table, ofDocument (.additionsFirst (some 2)) .standard = .ok table :=
      exists_eq_ok (by decide +kernel)
    obtain ⟨succeeds, -⟩ := ofDocument_rearranged (Document.rearranged_additions (some 2)) .standard
    exact ⟨table, accepts, (succeeds table).1 accepts⟩
  · obtain ⟨failure, refuses⟩ :
        ∃ failure, ofDocument (.additionsFirst none) .standard = .error failure :=
      exists_eq_error (by decide +kernel)
    obtain ⟨-, fails⟩ := ofDocument_rearranged (Document.rearranged_additions none) .standard
    obtain ⟨luts, tables⟩ : ∃ luts,
        Constants.ofTables "add.isa" (Document.additionsFirst none).lookupTables = .ok luts :=
      exists_eq_ok (by decide +kernel)
    obtain ⟨enums, registered⟩ : ∃ enums, (Document.additionsFirst none).registry = .ok enums :=
      exists_eq_ok (by decide +kernel)
    exact ⟨failure, refuses, fails luts enums tables registered ▸ refuses⟩

end InstructionSet
