import InstructionSet.Proofs.Expansion.Independence
import InstructionSet.Proofs.Instruction.Built
import InstructionSet.Proofs.NameMap

/-!
# Accepted documents

The table of a document is made in four steps, and a document is accepted when none of them
refuses it. This module takes the steps apart (`Table.ofDocument_eq_ok_iff`) and pairs the
instructions of the table with the forms that declare them (`Table.Accepted.built`). It also says
what a table depends on: the path, the lookup tables, the enumerations and the declared instructions
of the document, each in its own order (`Table.ofDocument_congr`).

Lookup tables are accepted when no two have one name, and are then what the table lists
(`Constants.ofTables_eq_ok_iff`), in whatever order they stand.
-/

namespace InstructionSet

set_option autoImplicit false

open Fallible

/-! ## Lookup tables -/

/-- What a lookup table enters among the constants: its own under its name. -/
def LookupTable.entry (table : LookupTable) : String × List UInt32 :=
  (table.name, table.values)

namespace Constants

variable {constants final : Constants} {path : String} {tables : List LookupTable}

/-- No lookup table is refused when their names are free. -/
theorem enterAll_eq_iff : constants.enterAll tables = (final, []) ↔
    NameMap.Enters constants (tables.map (·.entry)) final := by
  induction tables generalizing constants with
  | nil =>
      rw [enterAll, Prod.mk.injEq, List.map_nil]
      constructor
      · rintro ⟨rfl, -⟩
        exact .nil constants
      · intro enters
        cases enters
        exact ⟨rfl, rfl⟩
  | cons table rest ih =>
      have free : constants.contains table.name = false ↔ constants.find? table.name = none := by
        simp [NameMap.contains]
      simp only [enterAll, Prod.mk.injEq, List.map_cons]
      constructor
      · rintro ⟨entered, none⟩
        split at none
        next => cases none
        next notTaken =>
          refine .cons (free.1 (Bool.eq_false_of_not_eq_true notTaken)) (ih.1 ?_)
          exact Prod.ext entered none
      · intro enters
        cases enters with
        | cons notTaken others =>
            obtain ⟨entered, none⟩ := Prod.ext_iff.1 (ih.2 others)
            rw [free.2 notTaken]
            exact ⟨entered, none⟩

/-- Lookup tables make the constants that list them when no two have one name. -/
theorem ofTables_eq_ok_iff : ofTables path tables = .ok constants ↔
    (tables.map (·.name)).Nodup ∧ constants.Lists (tables.map (·.entry)) := by
  have keys : (tables.map (·.entry)).map (·.1) = tables.map (·.name) := List.map_map
  rw [← keys, ← NameMap.enters_empty_iff, ← enterAll_eq_iff, ofTables]
  simp only [Phase.accept_eq_ok_iff, List.map_eq_nil_iff, Prod.ext_iff]
  exact and_comm

theorem exists_ofTables_iff :
    (∃ constants, ofTables path tables = .ok constants) ↔ (tables.map (·.name)).Nodup := by
  have keys : (tables.map (·.entry)).map (·.1) = tables.map (·.name) := List.map_map
  simp only [ofTables_eq_ok_iff, ← keys, ← NameMap.enters_empty_iff,
    NameMap.exists_enters_empty_iff]

end Constants

namespace Table

/-! ## What a table depends on -/

/-- Documents with one path, one sequence of lookup tables and of enumerations, whose instructions
come to the same, have one table, be it with different catalogs. -/
theorem ofDocument_congr_of_declared {first second : Document} {catalog other : Catalog}
    (path : first.path = second.path) (lookupTables : first.lookupTables = second.lookupTables)
    (enumerations : first.enumerations = second.enumerations)
    (declared : ∀ enums, first.instructions.mapM (InstructionForm.declare catalog enums) =
      second.instructions.mapM (InstructionForm.declare other enums)) :
    ofDocument first catalog = ofDocument second other := by
  simp only [ofDocument, Document.registry, expand_eq, path, lookupTables, enumerations, declared]

/-- Documents with one path, one sequence of lookup tables, of enumerations and of declared
instructions have one table. -/
theorem ofDocument_congr {first second : Document} (path : first.path = second.path)
    (lookupTables : first.lookupTables = second.lookupTables)
    (enumerations : first.enumerations = second.enumerations)
    (instructions : first.instructions = second.instructions) (catalog : Catalog) :
    ofDocument first catalog = ofDocument second catalog :=
  ofDocument_congr_of_declared path lookupTables enumerations fun _ => by rw [instructions]

/-! ## What an accepted document is made into -/

/-- What an accepted document and its table have to do with each other. -/
structure Accepted (document : Document) (catalog : Catalog) (table : Table) : Prop where
  /-- The lookup tables are accepted. -/
  luts : Constants.ofTables document.path document.lookupTables = .ok table.luts
  /-- The enumerations are accepted. -/
  enums : document.registry = .ok table.enums
  /-- Every declared instruction is built, and validation has only warnings. -/
  expanded : ∃ declared : List Declared,
    document.instructions.mapM (InstructionForm.declare catalog table.enums) = .ok declared ∧
      declared.map (·.instruction) = table.instructions ∧
        Validation.check (declared.map (located document.path)) = .ok table.warnings

/-- A document is made into a table when it is accepted. -/
theorem ofDocument_eq_ok_iff {document : Document} {catalog : Catalog} {table : Table} :
    ofDocument document catalog = .ok table ↔ Accepted document catalog table := by
  have expands : ∀ declared, expand document catalog table.enums = .ok declared ↔
      document.instructions.mapM (InstructionForm.declare catalog table.enums) = .ok declared :=
    fun declared => by rw [expand_eq, mapError_eq_ok_iff]
  constructor
  · intro accepts
    obtain ⟨luts, entered, accepts⟩ := bind_eq_ok_iff.1 accepts
    obtain ⟨enums, registered, accepts⟩ := bind_eq_ok_iff.1 accepts
    obtain ⟨declared, expanded, accepts⟩ := bind_eq_ok_iff.1 accepts
    obtain ⟨warnings, checked, same⟩ := bind_eq_ok_iff.1 accepts
    cases pure_eq_ok_iff.1 same
    exact ⟨entered, registered, declared, (expands _).1 expanded, rfl, checked⟩
  · rintro ⟨entered, registered, declared, expanded, instructions, checked⟩
    refine bind_eq_ok_iff.2 ⟨table.luts, entered, bind_eq_ok_iff.2 ⟨table.enums, registered, ?_⟩⟩
    refine bind_eq_ok_iff.2 ⟨declared, (expands _).2 expanded, ?_⟩
    refine bind_eq_ok_iff.2 ⟨table.warnings, checked, ?_⟩
    rw [instructions]
    rfl

theorem accepted_of_ofDocument {document : Document} {catalog : Catalog} {table : Table}
    (accepts : ofDocument document catalog = .ok table) : Accepted document catalog table :=
  ofDocument_eq_ok_iff.1 accepts

/-- The instructions of a table are built from the forms that the document declares, one by one. -/
theorem Accepted.built {document : Document} {catalog : Catalog} {table : Table}
    (accepted : Accepted document catalog table) :
    List.Forall₂ (fun form instruction =>
      instruction.Built form.header form.layout catalog table.enums)
      document.instructions table.instructions := by
  obtain ⟨declared, every, same, -⟩ := accepted.expanded
  rw [← same, List.forall₂_map_right_iff]
  exact (mapM_eq_ok_iff.1 every).imp fun form declared declares =>
    PartialHeader.build_eq_ok_iff.1 (InstructionForm.declare_eq_ok declares).1

end Table

end InstructionSet
