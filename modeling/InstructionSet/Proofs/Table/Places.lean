import InstructionSet.CommandLine.Response
import InstructionSet.Proofs.Expansion.Independence
import InstructionSet.Proofs.Grammar.Parallel

/-!
# Places label diagnostics

What a description is made into does not depend on its path and on where its declarations stand,
but for the spans of diagnostics. Two descriptions that are the same up to their places come to
tables with the same content, or are refused in the same phase with diagnostics that say the same
(`Table.parallel_ofDocument`). So do two sources that are scanned to the same tokens, whatever their
layout (`CommandLine.tableOf_alike`).
-/

namespace InstructionSet

open InstructionSet.Text

set_option autoImplicit false

open Fallible

/-! ## Declarations -/

/-- A lookup table without its place. -/
def LookupTable.unplaced (table : LookupTable) : LookupTable :=
  { table with region := .point .origin }

/-- Lookup tables of one name with the same constants. -/
structure LookupTable.Alike (table other : LookupTable) : Prop where
  /-- The name is the same. -/
  name : table.name = other.name
  /-- The constants are the same. -/
  values : table.values = other.values

/-- An enumeration without its place. -/
def EnumerationForm.unplaced (form : EnumerationForm) : EnumerationForm :=
  { form with region := .point .origin }

/-- Enumerations of one name with the same entries. -/
structure EnumerationForm.Alike (form other : EnumerationForm) : Prop where
  /-- The name is the same. -/
  name : form.name = other.name
  /-- The entries are the same. -/
  entries : form.entries = other.entries

/-- An instruction without its place. -/
def InstructionForm.unplaced (form : InstructionForm) : InstructionForm :=
  { form with region := .point .origin }

/-- Instructions of one name with the same opcodes and layout. -/
structure InstructionForm.Alike (form other : InstructionForm) : Prop where
  /-- The name is the same. -/
  name : form.name = other.name
  /-- The opcodes are the same. -/
  opcodes : form.opcodes = other.opcodes
  /-- The layout is the same. -/
  layout : form.layout = other.layout

namespace Document

variable {first second : Document}

theorem lookupTables_unplaced (document : Document) :
    document.unplaced.lookupTables = document.lookupTables.map (·.unplaced) := by
  rw [lookupTables, lookupTables, unplaced, List.filterMap_map, List.map_filterMap]
  refine List.filterMap_congr fun directive _ => ?_
  cases directive <;> rfl

theorem enumerations_unplaced (document : Document) :
    document.unplaced.enumerations = document.enumerations.map (·.unplaced) := by
  rw [enumerations, enumerations, unplaced, List.filterMap_map, List.map_filterMap]
  refine List.filterMap_congr fun directive _ => ?_
  cases directive <;> rfl

theorem instructions_unplaced (document : Document) :
    document.unplaced.instructions = document.instructions.map (·.unplaced) := by
  rw [instructions, instructions, unplaced, List.flatMap_map, List.map_flatMap]
  refine List.flatMap_congr fun directive _ => ?_
  cases directive with
  | group form =>
      show (form.members.map (·.unplaced)).map _ = (form.members.map _).map _
      rw [List.map_map, List.map_map]
      rfl
  | _ => rfl

/-- Descriptions that are the same up to places declare the same lookup tables. -/
theorem alike_lookupTables (same : first.unplaced = second.unplaced) :
    List.Forall₂ LookupTable.Alike first.lookupTables second.lookupTables := by
  have unplaced : first.lookupTables.map (·.unplaced) = second.lookupTables.map (·.unplaced) := by
    rw [← lookupTables_unplaced, same, lookupTables_unplaced]
  exact (map_eq_map_iff.1 unplaced).imp fun _ _ one =>
    ⟨(LookupTable.mk.inj one).1, (LookupTable.mk.inj one).2.1⟩

/-- Descriptions that are the same up to places declare the same enumerations. -/
theorem alike_enumerations (same : first.unplaced = second.unplaced) :
    List.Forall₂ EnumerationForm.Alike first.enumerations second.enumerations := by
  have unplaced : first.enumerations.map (·.unplaced) = second.enumerations.map (·.unplaced) := by
    rw [← enumerations_unplaced, same, enumerations_unplaced]
  exact (map_eq_map_iff.1 unplaced).imp fun _ _ one =>
    ⟨(EnumerationForm.mk.inj one).1, (EnumerationForm.mk.inj one).2.1⟩

/-- Descriptions that are the same up to places declare the same instructions. -/
theorem alike_instructions (same : first.unplaced = second.unplaced) :
    List.Forall₂ InstructionForm.Alike first.instructions second.instructions := by
  have unplaced : first.instructions.map (·.unplaced) = second.instructions.map (·.unplaced) := by
    rw [← instructions_unplaced, same, instructions_unplaced]
  exact (map_eq_map_iff.1 unplaced).imp fun _ _ one => by
    obtain ⟨name, opcodes, layout, -⟩ := InstructionForm.mk.inj one
    exact ⟨name, opcodes, layout⟩

end Document

/-! ## Lookup tables and enumerations -/

theorem Constants.alike_enterAll {tables others : List LookupTable}
    (alike : List.Forall₂ LookupTable.Alike tables others) (constants : Constants) :
    (constants.enterAll tables).1 = (constants.enterAll others).1 ∧
      List.Forall₂ LookupTable.Alike (constants.enterAll tables).2
        (constants.enterAll others).2 := by
  induction alike generalizing constants with
  | nil => exact ⟨rfl, .nil⟩
  | cons same _ ih =>
      obtain ⟨final, repeated⟩ := ih (constants.insert _ _)
      simp only [enterAll, same.name, same.values] at final repeated ⊢
      refine ⟨final, ?_⟩
      split
      · exact .cons same repeated
      · exact repeated

theorem Constants.parallel_ofTables {tables others : List LookupTable}
    (alike : List.Forall₂ LookupTable.Alike tables others) (path other : String) :
    Parallel Failure.Alike Eq (ofTables path tables) (ofTables other others) := by
  obtain ⟨final, repeated⟩ := alike_enterAll alike .empty
  refine Phase.parallel_accept final (List.rel_map (fun table table' same => ?_) repeated)
  rw [repeatedTable, repeatedTable, same.name]
  exact Diagnostic.alike_errorAt _ _ _ _ _ _ _

namespace Registry

theorem enter_congr {form other : EnumerationForm} (same : form.Alike other)
    (registry : Registry) : registry.enter form = registry.enter other := by
  have enumeration : form.toEnumeration = other.toEnumeration := by
    rw [EnumerationForm.toEnumeration, EnumerationForm.toEnumeration, same.name, same.entries]
  simp only [enter, enumeration, same.name]

theorem alike_enterAll {forms others : List EnumerationForm}
    (alike : List.Forall₂ EnumerationForm.Alike forms others) (registry : Registry) :
    (registry.enterAll forms).1 = (registry.enterAll others).1 ∧
      List.Forall₂ (fun fault other => fault.1.Alike other.1 ∧ fault.2 = other.2)
        (registry.enterAll forms).2 (registry.enterAll others).2 := by
  induction alike generalizing registry with
  | nil => exact ⟨rfl, .nil⟩
  | @cons form other _ _ same _ ih =>
      rw [enterAll, enterAll, enter_congr same]
      cases registry.enter other with
      | ok extended => exact ih extended
      | error error =>
          obtain ⟨final, faults⟩ := ih registry
          exact ⟨final, .cons ⟨same, rfl⟩ faults⟩

theorem parallel_ofForms {forms others : List EnumerationForm}
    (alike : List.Forall₂ EnumerationForm.Alike forms others) (path other : String) :
    Parallel Failure.Alike Eq (ofForms path forms) (ofForms other others) := by
  obtain ⟨final, faults⟩ := alike_enterAll alike .empty
  refine Phase.parallel_accept final (List.rel_map ?_ faults)
  rintro ⟨form, error⟩ ⟨form', _⟩ ⟨-, rfl⟩
  exact Diagnostic.alike_errorAt _ _ _ _ _ _ _

end Registry

/-! ## Instructions -/

/-- Declarations of one instruction. -/
def Declared.Alike (declared other : Declared) : Prop :=
  declared.instruction = other.instruction

/-- Faults of one instruction with one error. -/
structure BuildFault.Alike (fault other : BuildFault) : Prop where
  /-- The name is the same. -/
  name : fault.name = other.name
  /-- The error is the same. -/
  error : fault.error = other.error

theorem InstructionForm.parallel_declare {form other : InstructionForm} (same : form.Alike other)
    (catalog : Catalog) (enums : Registry) :
    Parallel BuildFault.Alike Declared.Alike (form.declare catalog enums)
      (other.declare catalog enums) := by
  rw [declare, declare, header, header, same.name, same.opcodes, same.layout]
  split
  · exact .ok rfl
  · exact .error ⟨rfl, rfl⟩

theorem BuildFault.Alike.failure {fault fault' : BuildFault} (same : fault.Alike fault')
    (path other : String) : (fault.failure path).Alike (fault'.failure other) := by
  refine .reported (.cons ?_ .nil)
  rw [BuildFault.diagnostic, BuildFault.diagnostic, same.name, same.error]
  exact Diagnostic.alike_errorAt _ _ _ _ _ _ _

theorem Table.parallel_expand {first second : Document}
    (same : first.unplaced = second.unplaced) (catalog : Catalog) (enums : Registry) :
    Parallel Failure.Alike (List.Forall₂ Declared.Alike) (expand first catalog enums)
      (expand second catalog enums) := by
  rw [expand_eq, expand_eq]
  exact (parallel_mapM (Document.alike_instructions same) fun _ _ one =>
    InstructionForm.parallel_declare one catalog enums).mapError fun _ _ fault =>
      BuildFault.Alike.failure fault _ _

/-! ## Validation -/

/-- One instruction, wherever it is declared. -/
def Located.Alike (entry other : Located) : Prop :=
  entry.instruction = other.instruction

namespace Validation

variable {entries others : List Located}

theorem alike_firstBy {α : Type} {related : α → α → Prop} {key : α → String}
    (keys : ∀ value value', related value value' → key value = key value')
    {firsts seconds : List α} (alike : List.Forall₂ related firsts seconds) :
    List.Forall₂ related (firstBy key firsts) (firstBy key seconds) := by
  induction alike with
  | nil => exact .nil
  | cons here _ ih =>
      refine .cons here (List.rel_filter (fun later later' same => ?_) ih)
      simp only [keys _ _ same, keys _ _ here]

theorem alike_named (alike : List.Forall₂ Located.Alike entries others) (name : String) :
    List.Forall₂ Located.Alike (named name entries) (named name others) :=
  List.rel_filter (fun entry entry' (same : _ = _) => by simp only [same]) alike

theorem alike_duplicate? (alike : List.Forall₂ Located.Alike entries others) (name : String) :
    Option.Rel Diagnostic.Alike (duplicate? entries name) (duplicate? others name) := by
  have alike := alike_named alike name
  rw [duplicate?, duplicate?]
  generalize named name entries = found, named name others = found' at alike
  cases alike with
  | nil => exact .none
  | cons first rest =>
      cases rest with
      | nil => exact .none
      | cons second rest =>
          refine .some ⟨rfl, rfl, rfl, ?_⟩
          simp only [Violation.diagnostic, List.length_cons, rest.length_eq]

theorem alike_duplicates (alike : List.Forall₂ Located.Alike entries others) :
    List.Forall₂ Diagnostic.Alike (duplicates entries) (duplicates others) := by
  have names : entries.map (·.instruction.name) = others.map (·.instruction.name) :=
    map_eq_map_iff.2 (alike.imp fun _ _ same => congrArg Instruction.name same)
  rw [duplicates, duplicates, names]
  refine List.rel_filterMap (R := Eq) ?_ (List.forall₂_same.2 fun _ _ => rfl)
  rintro name _ rfl
  exact alike_duplicate? alike name

theorem alike_outsideMask? {entry other : Located} (same : entry.Alike other) :
    Option.Rel Diagnostic.Alike (outsideMask? entry) (outsideMask? other) := by
  have instruction : entry.instruction = other.instruction := same
  simp only [outsideMask?, instruction]
  split
  · exact .none
  · exact .some ⟨rfl, rfl, rfl, rfl⟩

theorem alike_errors (alike : List.Forall₂ Located.Alike entries others) :
    List.Forall₂ Diagnostic.Alike (errors entries) (errors others) :=
  List.rel_append (alike_duplicates alike)
    (List.rel_filterMap (fun _ _ same => alike_outsideMask? same) alike)

/-- One modifier, carried by the same instruction. -/
structure Carried.Alike (carried other : Carried) : Prop where
  /-- The modifier is the same. -/
  modifier : carried.modifier = other.modifier
  /-- The carrier is the same. -/
  carrier : carried.carrier.Alike other.carrier

theorem alike_overflowing (alike : List.Forall₂ Located.Alike entries others) :
    List.Forall₂ Carried.Alike (overflowing entries) (overflowing others) := by
  refine List.rel_flatMap alike fun entry other same => ?_
  have instruction : entry.instruction = other.instruction := same
  rw [instruction]
  refine List.rel_map (R := Eq) ?_ (List.forall₂_same.2 fun _ _ => rfl)
  rintro modifier _ rfl
  exact ⟨rfl, same⟩

theorem alike_warnings (alike : List.Forall₂ Located.Alike entries others) :
    List.Forall₂ Diagnostic.Alike (warnings entries) (warnings others) := by
  refine List.rel_map (fun carried other same => ?_)
    (alike_firstBy (fun _ _ same => by rw [same.modifier]) (alike_overflowing alike))
  have carrier : carried.carrier.instruction = other.carrier.instruction := same.carrier
  rw [Carried.warning, Carried.warning, same.modifier, carrier]
  exact ⟨rfl, rfl, rfl, rfl⟩

theorem parallel_check (alike : List.Forall₂ Located.Alike entries others) :
    Parallel Failure.Alike (List.Forall₂ Diagnostic.Alike) (check entries) (check others) :=
  Phase.parallel_accept (alike_warnings alike) (alike_errors alike)

end Validation

/-! ## Tables -/

namespace Table

/-- Tables with the same content and warnings that say the same. -/
structure Alike (table other : Table) : Prop where
  /-- The instructions are the same. -/
  instructions : table.instructions = other.instructions
  /-- The enumerations are the same. -/
  enums : table.enums = other.enums
  /-- The constants are the same. -/
  luts : table.luts = other.luts
  /-- The warnings say the same, one by one. -/
  warnings : List.Forall₂ Diagnostic.Alike table.warnings other.warnings

theorem Alike.canonical {table other : Table} (alike : table.Alike other) :
    table.canonical = other.canonical := by
  rw [Table.canonical, Table.canonical, json, json, alike.instructions, alike.enums, alike.luts]

theorem Alike.fingerprint {table other : Table} (alike : table.Alike other) :
    table.fingerprint = other.fingerprint := by
  rw [Table.fingerprint, Table.fingerprint, digest, digest, alike.canonical]

/-- Tables that nothing tells apart but the places in their warnings. -/
structure Indistinct (table other : Table) : Prop where
  /-- The content is the same, and the warnings say the same. -/
  alike : table.Alike other
  /-- The canonical forms are the same. -/
  canonical : table.canonical = other.canonical
  /-- The fingerprints are the same. -/
  fingerprint : table.fingerprint = other.fingerprint

theorem Alike.indistinct {table other : Table} (alike : table.Alike other) :
    table.Indistinct other :=
  ⟨alike, alike.canonical, alike.fingerprint⟩

/-- Descriptions that are the same up to places come to tables with the same content, or to reports
that say the same. -/
theorem parallel_ofDocument {first second : Document} (same : first.unplaced = second.unplaced)
    (catalog : Catalog) :
    Parallel Failure.Alike Alike (ofDocument first catalog) (ofDocument second catalog) := by
  refine (Constants.parallel_ofTables (Document.alike_lookupTables same) _ _).bind ?_
  rintro luts _ rfl
  refine (Registry.parallel_ofForms (Document.alike_enumerations same) _ _).bind ?_
  rintro enums _ rfl
  refine (parallel_expand same catalog enums).bind fun declared declared' each => ?_
  have located : List.Forall₂ Located.Alike (declared.map (located first.path))
      (declared'.map (located second.path)) := by
    refine List.rel_map (fun _ _ one => ?_) each
    exact one
  exact (Validation.parallel_check located).bind fun _ _ warned =>
    .ok ⟨map_eq_map_iff.2 each, rfl, rfl, warned⟩

end Table
end InstructionSet

namespace InstructionSet.CommandLine

open InstructionSet.Scanner

set_option autoImplicit false

open Fallible

theorem parallel_tableOf {source text : String}
    (alike : List.Forall₂ Scanned.Alike (scan source).entries (scan text).entries)
    (path other : String) (catalog : Catalog) :
    Parallel Failure.Alike Table.Alike (tableOf path source catalog)
      (tableOf other text catalog) :=
  (Grammar.parallel_document alike path other).bind fun _ _ same =>
    Table.parallel_ofDocument same catalog

/-- **Places do not matter.** Two sources that are scanned to tokens of the same kinds and lexemes,
whatever their layout and under whatever path, come to tables with the same content, canonical form
and fingerprint and with warnings that say the same, or are both refused, in the same phase and with
diagnostics that say the same. So do two descriptions that are the same up to their paths and
places. -/
theorem tableOf_alike (catalog : Catalog) :
    (∀ source text path other,
      List.Forall₂ Scanned.Alike (scan source).entries (scan text).entries →
        Parallel Failure.Alike Table.Indistinct (tableOf path source catalog)
          (tableOf other text catalog)) ∧
    ∀ first second : Document, first.unplaced = second.unplaced →
      Parallel Failure.Alike Table.Indistinct (Table.ofDocument first catalog)
        (Table.ofDocument second catalog) := by
  constructor
  · intro source text path other alike
    exact (parallel_tableOf alike path other catalog).imp (fun _ _ same => same) fun _ _ content =>
      content.indistinct
  · intro first second same
    exact (Table.parallel_ofDocument same catalog).imp (fun _ _ same => same) fun _ _ content =>
      content.indistinct

/-- An instruction with a modifier of five values in a field of two bits. -/
def stepping : String :=
  ":enum STEP \x7b value up value down reserved reserved reserved \x7d\n" ++
    ":ins \"FADD\" opcode=0x10 \x7b mod name=step start=30 size=2 \x7d"

/-- The same instruction, laid out with comments and an escaped character in its name. -/
def steppingLaidOut : String :=
  "# where it steps\n:enum\tSTEP\n\x7bvalue up # or\n value down\n" ++
    "reserved reserved reserved\x7d\n" ++
    ":ins \"F\\ADD\" opcode = 0x10\n\x7bmod name=step\tstart=30 size = 2\x7d\n"

/-- The description of that instruction, made by hand. -/
def steppingForms : Document where
  path := "by hand"
  directives := [
    .enumeration ⟨"STEP", [.value "up" false, .value "down" false, .reserved, .reserved, .reserved],
      .point .origin⟩,
    .instruction ⟨"FADD", { primary := some 0x10 },
      { entries := [.modifier ⟨"step", 30, 2, false⟩] }, .point .origin⟩ ]

theorem tableOf_alike_stepping :
    (∃ table again, tableOf "step.isa" stepping .standard = .ok table ∧
      tableOf "laid out" steppingLaidOut .standard = .ok again ∧
      table.Indistinct again) ∧
    (∃ failure again, tableOf "nop.isa" ":ins NOP" .standard = .error failure ∧
      tableOf "" " : ins\nNOP # of no opcode" .standard = .error again ∧ failure.Alike again) ∧
    ∃ parsed table again, Document.parse "step.isa" stepping = .ok parsed ∧
      Table.ofDocument parsed .standard = .ok table ∧
      Table.ofDocument steppingForms .standard = .ok again ∧
      again.Indistinct table := by
  obtain ⟨sources, documents⟩ := tableOf_alike .standard
  refine ⟨?_, ?_, ?_⟩
  · obtain ⟨table, accepted⟩ : ∃ table, tableOf "step.isa" stepping .standard = .ok table :=
      exists_eq_ok (by decide +kernel)
    have both := sources stepping steppingLaidOut "step.isa" "laid out" (by decide +kernel)
    rw [accepted] at both
    obtain ⟨again, accepts, same⟩ := both.exists_ok
    exact ⟨table, again, accepted, accepts, same⟩
  · obtain ⟨failure, refused⟩ :
        ∃ failure, tableOf "nop.isa" ":ins NOP" .standard = .error failure :=
      exists_eq_error (by decide +kernel)
    have both := sources ":ins NOP" " : ins\nNOP # of no opcode" "nop.isa" "" (by decide +kernel)
    rw [refused] at both
    obtain ⟨again, refuses, same⟩ := both.exists_error
    exact ⟨failure, again, refused, refuses, same⟩
  · obtain ⟨again, accepted⟩ : ∃ again, Table.ofDocument steppingForms .standard = .ok again :=
      exists_eq_ok (by decide +kernel)
    have unplaced : (Document.parse "step.isa" stepping).map (·.unplaced) =
        .ok steppingForms.unplaced := by decide +kernel
    cases read : Document.parse "step.isa" stepping with
    | error failure => rw [read] at unplaced; cases unplaced
    | ok document =>
        rw [read] at unplaced
        have both := documents steppingForms document (Except.ok.inj unplaced).symm
        rw [accepted] at both
        obtain ⟨table, accepts, same⟩ := both.exists_ok
        exact ⟨document, table, again, rfl, accepts, accepted, same⟩

end InstructionSet.CommandLine
