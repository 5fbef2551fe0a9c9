import InstructionSet.Proofs.Enumeration.Registry
import InstructionSet.Proofs.Expansion.Sessions
import InstructionSet.Proofs.Table.Accepted
import InstructionSet.Proofs.Validation.Errors
import Mathlib.Data.List.Flatten
import Mathlib.Data.List.Infix

/-!
# Extending a description

A description is extended by further directives, put at any places among its own
(`Document.ExtendedBy`). What it was made into stays: its instructions, enumerations and lookup
tables are among those of the larger table, and a description that is refused stays refused
(`Table.ofDocument_extended`).

There is one exception, for the registry is what grows. An instruction may be refused because no
enumeration gives the values of one of its modifiers, and a further directive may declare that
enumeration (`Document.WantsEnumeration`). Every other result of building an instruction, be it a
success or a fault, is the same with a larger registry (`InstructionForm.persists_declare`).
-/

namespace InstructionSet

set_option autoImplicit false

open Fallible

/-- The second description has the directives of the first one in their order, and any further
directives among them. -/
structure Document.ExtendedBy (document larger : Document) : Prop where
  /-- Both are descriptions in one file. -/
  path : larger.path = document.path
  /-- The directives are kept, in order. -/
  directives : document.directives.Sublist larger.directives

/-! ## Growing registries -/

/-- The fault is that no enumeration gives the values of a modifier. -/
def BuildError.WantsEnumeration (error : BuildError) : Prop :=
  ∃ name size, error = .modifierWithoutValues name size

section Growing

variable {enums larger : Registry}

theorem Registry.named?_mono (grows : enums.entries ⊆ larger.entries) {name : String}
    {enumeration : Enumeration} (found : enums.named? name = some enumeration) :
    larger.named? name = some enumeration :=
  NameMap.find?_eq_some_iff.2 (grows (NameMap.find?_eq_some_iff.1 found))

theorem ModifierPlacement.persists_resolve (grows : enums.entries ⊆ larger.entries)
    (placement : ModifierPlacement) :
    Persists BuildError.WantsEnumeration (placement.resolve enums) (placement.resolve larger) := by
  cases found : enums.named? placement.name with
  | some enumeration =>
      simp only [resolve, found, Registry.named?_mono grows found]
      exact .same
  | none =>
      simp only [resolve, found]
      split
      · exact .same
      · split
        · exact .same
        · exact .failed rfl ⟨_, _, rfl⟩

theorem Catalog.persists_resolve (grows : enums.entries ⊆ larger.entries) (catalog : Catalog)
    (tag : String) :
    Persists BuildError.WantsEnumeration (catalog.resolve enums tag)
      (catalog.resolve larger tag) := by
  rw [resolve, resolve]
  split
  · exact ModifierPlacement.persists_resolve grows _
  · exact .same

theorem ModifierReference.persists_resolve (grows : enums.entries ⊆ larger.entries)
    (catalog : Catalog) (reference : ModifierReference) :
    Persists BuildError.WantsEnumeration (reference.resolve catalog enums)
      (reference.resolve catalog larger) := by
  cases reference with
  | placed placement => exact ModifierPlacement.persists_resolve grows placement
  | tagged tag => exact Catalog.persists_resolve grows catalog tag

theorem PartialHeader.persists_build (grows : enums.entries ⊆ larger.entries) (catalog : Catalog)
    (header : PartialHeader) (layout : Layout) :
    Persists BuildError.WantsEnumeration (header.build layout catalog enums)
      (header.build layout catalog larger) :=
  Persists.same.bind fun _ => Persists.same.bind fun _ =>
    (persists_mapM (ModifierReference.persists_resolve grows catalog) _).bind fun _ => .same

/-- With a larger registry an instruction is declared alike, unless it wants an enumeration. -/
theorem InstructionForm.persists_declare (grows : enums.entries ⊆ larger.entries)
    (catalog : Catalog) (form : InstructionForm) :
    Persists (fun fault => fault.error.WantsEnumeration) (form.declare catalog enums)
      (form.declare catalog larger) := by
  have persists := PartialHeader.persists_build grows catalog form.header form.layout
  rw [declare, declare]
  generalize form.header.build form.layout catalog larger = again at persists ⊢
  cases persists with
  | same => exact .same
  | failed failed may =>
      rw [failed]
      exact .failed rfl may

end Growing

/-! ## Growing descriptions -/

namespace Document.ExtendedBy

variable {document larger : Document}

theorem lookupTables (extended : document.ExtendedBy larger) :
    document.lookupTables.Sublist larger.lookupTables :=
  extended.directives.filterMap _

theorem enumerations (extended : document.ExtendedBy larger) :
    document.enumerations.Sublist larger.enumerations :=
  extended.directives.filterMap _

theorem instructions (extended : document.ExtendedBy larger) :
    document.instructions.Sublist larger.instructions :=
  extended.directives.flatMap _

theorem luts_mono (extended : document.ExtendedBy larger) {luts more : Constants}
    (tables : Constants.ofTables document.path document.lookupTables = .ok luts)
    (others : Constants.ofTables larger.path larger.lookupTables = .ok more) :
    luts.entries ⊆ more.entries :=
  (Constants.ofTables_eq_ok_iff.1 tables).2.mono (Constants.ofTables_eq_ok_iff.1 others).2
    (extended.lookupTables.map _).subset

theorem enums_mono (extended : document.ExtendedBy larger) {enums more : Registry}
    (registered : document.registry = .ok enums) (others : larger.registry = .ok more) :
    enums.entries ⊆ more.entries :=
  (Registry.ofForms_eq_ok_iff.1 registered).2.2.mono (Registry.ofForms_eq_ok_iff.1 others).2.2
    (extended.enumerations.map _).subset

/-- Lookup tables that are accepted among others are accepted by themselves. -/
theorem exists_luts (extended : document.ExtendedBy larger) {more : Constants}
    (others : Constants.ofTables larger.path larger.lookupTables = .ok more) :
    ∃ luts, Constants.ofTables document.path document.lookupTables = .ok luts :=
  Constants.exists_ofTables_iff.2
    ((Constants.exists_ofTables_iff.1 ⟨more, others⟩).sublist (extended.lookupTables.map _))

/-- Enumerations that are accepted among others are accepted by themselves. -/
theorem exists_enums (extended : document.ExtendedBy larger) {more : Registry}
    (others : larger.registry = .ok more) : ∃ enums, document.registry = .ok enums := by
  obtain ⟨single, distinct⟩ := Registry.exists_ofForms_iff.1 ⟨more, others⟩
  exact Registry.exists_ofForms_iff.2
    ⟨fun form member => single form (extended.enumerations.subset member),
      distinct.sublist (extended.enumerations.map _)⟩

end Document.ExtendedBy

/-! ## Growing lists of instructions -/

namespace Validation

theorem firstBy_isPrefix {α : Type} (key : α → String) (values behind : List α) :
    firstBy key values <+: firstBy key (values ++ behind) := by
  induction values with
  | nil => exact List.nil_prefix
  | cons value rest ih => exact List.cons_prefix_cons.2 ⟨rfl, ih.filter _⟩

/-- Instructions behind others add their warnings behind those of the others. -/
theorem warnings_isPrefix (entries behind : List Located) :
    warnings entries <+: warnings (entries ++ behind) := by
  rw [warnings, warnings, overflowing, overflowing, List.flatMap_append]
  exact (firstBy_isPrefix _ _ _).map _

/-- What makes a table among other instructions makes a table by itself. -/
theorem errors_of_sublist {fewer entries : List Located} (sublist : fewer.Sublist entries)
    (none : errors entries = []) : errors fewer = [] := by
  obtain ⟨distinct, fits⟩ := errors_eq_nil_iff.1 none
  exact errors_eq_nil_iff.2
    ⟨distinct.sublist (sublist.map _), fun entry member => fits entry (sublist.subset member)⟩

end Validation

/-! ## Tables -/

/-- The description is refused for want of an enumeration: the first instruction that cannot be
built has a modifier whose values no enumeration gives. -/
def Document.WantsEnumeration (document : Document) (catalog : Catalog) : Prop :=
  ∃ luts enums fault,
    Constants.ofTables document.path document.lookupTables = .ok luts ∧
      document.registry = .ok enums ∧
        Expansion.FirstFault catalog enums document.directives fault ∧
          fault.error.WantsEnumeration

namespace Table

variable {document larger : Document} {catalog : Catalog} {table more : Table}

/-- In a larger description, the instructions of a description are declared as before, unless it
wants an enumeration. -/
theorem Accepted.declared_of_extended (accepted : Accepted larger catalog more)
    (extended : document.ExtendedBy larger) {luts : Constants} {enums : Registry}
    (tables : Constants.ofTables document.path document.lookupTables = .ok luts)
    (registered : document.registry = .ok enums) :
    document.WantsEnumeration catalog ∨
      document.instructions.mapM (InstructionForm.declare catalog more.enums) =
        document.instructions.mapM (InstructionForm.declare catalog enums) := by
  have persists := persists_mapM (InstructionForm.persists_declare
    (extended.enums_mono registered accepted.enums) catalog) document.instructions
  generalize document.instructions.mapM (InstructionForm.declare catalog more.enums) = again
    at persists ⊢
  cases persists with
  | same => exact .inr rfl
  | failed failed wants =>
      refine .inl ⟨luts, enums, _, tables, registered, ?_, wants⟩
      rw [← Expansion.outcome_directives_eq_error_iff, Expansion.outcome_directives]
      exact failed

/-- A description that can be extended to an accepted one is accepted, unless it wants an
enumeration. -/
theorem Accepted.of_extended (accepted : Accepted larger catalog more)
    (extended : document.ExtendedBy larger) :
    document.WantsEnumeration catalog ∨ ∃ table, Accepted document catalog table := by
  obtain ⟨luts, tables⟩ := extended.exists_luts accepted.luts
  obtain ⟨enums, registered⟩ := extended.exists_enums accepted.enums
  obtain ⟨all, expanded, -, checked⟩ := accepted.expanded
  obtain ⟨declared, succeeds, sublist⟩ := mapM_of_sublist extended.instructions expanded
  rcases accepted.declared_of_extended extended tables registered with wants | same
  · exact .inl wants
  · have none := Validation.errors_of_sublist (sublist.map (located document.path))
      (extended.path ▸ (Validation.check_eq_ok_iff.1 checked).1)
    exact .inr ⟨⟨declared.map (·.instruction), enums, luts, _⟩, tables, registered, declared,
      same ▸ succeeds, rfl, Validation.check_eq_ok_iff.2 ⟨none, rfl⟩⟩

/-- An accepted description wants no enumeration. -/
theorem Accepted.not_wantsEnumeration (accepted : Accepted document catalog table) :
    ¬ document.WantsEnumeration catalog := by
  rintro ⟨luts, enums, fault, -, registered, first, -⟩
  obtain ⟨declared, expanded, -⟩ := accepted.expanded
  rw [← Expansion.outcome_directives_eq_error_iff, Expansion.outcome_directives] at first
  cases registered.symm.trans accepted.enums
  cases first.symm.trans expanded

/-- What a description declares is declared by an extension of it, and in front if its own
directives are. -/
theorem Accepted.declared_among (accepted : Accepted document catalog table)
    (others : Accepted larger catalog more) (extended : document.ExtendedBy larger) :
    ∃ declared all : List Declared,
      (declared.map (·.instruction) = table.instructions ∧
        Validation.warnings (declared.map (located document.path)) = table.warnings) ∧
      (all.map (·.instruction) = more.instructions ∧
        Validation.warnings (all.map (located document.path)) = more.warnings) ∧
      declared.Sublist all ∧
      (document.directives <+: larger.directives → declared <+: all) := by
  obtain ⟨declared, succeeds, instructions, checked⟩ := accepted.expanded
  obtain ⟨all, expanded, allInstructions, allChecked⟩ := others.expanded
  have same : document.instructions.mapM (InstructionForm.declare catalog more.enums) =
      .ok declared :=
    ((others.declared_of_extended extended accepted.luts accepted.enums).resolve_left
      accepted.not_wantsEnumeration).trans succeeds
  refine ⟨declared, all, ⟨instructions, (Validation.check_eq_ok_iff.1 checked).2⟩,
    ⟨allInstructions, extended.path ▸ (Validation.check_eq_ok_iff.1 allChecked).2⟩, ?_, ?_⟩
  · obtain ⟨found, finds, sublist⟩ := mapM_of_sublist extended.instructions expanded
    cases finds.symm.trans same
    exact sublist
  · exact fun front => mapM_of_isPrefix (front.flatMap _) expanded same

/-- **Extending a description keeps what it is made into.** In an extension that is accepted as
well, the instructions of the description stand among those of the extension, unchanged and in
order, and every enumeration and lookup table is there unchanged. When the further directives stand
behind the description's own, its instructions and warnings come first. A description that is
refused has no extension that is accepted, unless it wants an enumeration. -/
theorem ofDocument_extended (extended : document.ExtendedBy larger) (catalog : Catalog) :
    (∀ table more, ofDocument document catalog = .ok table → ofDocument larger catalog = .ok more →
      table.instructions.Sublist more.instructions ∧
        table.enums.entries ⊆ more.enums.entries ∧
        table.luts.entries ⊆ more.luts.entries ∧
        (document.directives <+: larger.directives →
          table.instructions <+: more.instructions ∧ table.warnings <+: more.warnings)) ∧
    ∀ failure, ofDocument document catalog = .error failure →
      ¬ document.WantsEnumeration catalog →
        ∃ failure, ofDocument larger catalog = .error failure := by
  constructor
  · intro table more accepts alsoAccepts
    have accepted := accepted_of_ofDocument accepts
    have others := accepted_of_ofDocument alsoAccepts
    obtain ⟨declared, all, ⟨instructions, warnings⟩, ⟨allInstructions, allWarnings⟩, among,
      front⟩ := accepted.declared_among others extended
    refine ⟨?_, extended.enums_mono accepted.enums others.enums,
      extended.luts_mono accepted.luts others.luts, fun behind => ⟨?_, ?_⟩⟩
    · rw [← instructions, ← allInstructions]
      exact among.map _
    · rw [← instructions, ← allInstructions]
      exact (front behind).map _
    · obtain ⟨further, rfl⟩ := front behind
      rw [← warnings, ← allWarnings, List.map_append]
      exact Validation.warnings_isPrefix _ _
  · intro failure refused satisfied
    cases outcome : ofDocument larger catalog with
    | error other => exact ⟨other, rfl⟩
    | ok more =>
        obtain ⟨table, accepted⟩ :=
          ((accepted_of_ofDocument outcome).of_extended extended).resolve_left satisfied
        cases refused.symm.trans (ofDocument_eq_ok_iff.2 accepted)

end Table

/-- A description with the lanes of a vector, of which there are more than two bits tell apart. -/
def Document.lanes (directives : List Directive) : Document where
  path := "lane.isa"
  directives := directives ++ [.enumeration ⟨"lane", [.value "b0" true, .value "b1" false,
    .value "b2" false, .value "b3" false, .value "none" false], .point ⟨1, 1⟩⟩]

/-- An instruction that selects a lane, with or without an opcode. -/
def Directive.laneShift (opcode : Option UInt32) : Directive :=
  .instruction ⟨"SHIFT.i32", { primary := opcode },
    { plainSources := 1, entries := [.modifier ⟨"lane", 30, 2, false⟩] }, .point ⟨2, 1⟩⟩

/-- Another instruction that selects a lane. -/
def Directive.laneSwap : Directive :=
  .instruction ⟨"SWAP.i32", { primary := some 3 },
    { plainSources := 2, entries := [.modifier ⟨"lane", 28, 2, false⟩] }, .point ⟨3, 1⟩⟩

-- An instruction that wants an enumeration is accepted as soon as it is there.
example : (Table.ofDocument ⟨"lane.isa", [.laneSwap]⟩ .standard).toOption.isSome = false ∧
    (Table.ofDocument (.lanes [.laneSwap]) .standard).toOption.isSome = true := by
  decide +kernel

/-- A description with a further directive at its end. -/
def Document.followedBy (document : Document) (directive : Directive) : Document :=
  { document with directives := document.directives ++ [directive] }

theorem Document.extendedBy_followedBy (document : Document) (directive : Directive) :
    document.ExtendedBy (document.followedBy directive) :=
  ⟨rfl, List.sublist_append_left _ _⟩

theorem Table.ofDocument_extended_lanes :
    (∃ table more, ofDocument (.lanes [.laneShift (some 1)]) .standard = .ok table ∧
      ofDocument (.followedBy (.lanes [.laneShift (some 1)]) .laneSwap) .standard = .ok more ∧
      table.instructions <+: more.instructions ∧ table.warnings <+: more.warnings) ∧
    ∃ failure,
      ofDocument (.followedBy (.lanes [.laneShift none]) .laneSwap) .standard = .error failure := by
  have extended (opcode : Option UInt32) :=
    Document.extendedBy_followedBy (.lanes [.laneShift opcode]) .laneSwap
  constructor
  · obtain ⟨table, accepts⟩ :
        ∃ table, ofDocument (.lanes [.laneShift (some 1)]) .standard = .ok table :=
      exists_eq_ok (by decide +kernel)
    obtain ⟨more, alsoAccepts⟩ : ∃ more,
        ofDocument (.followedBy (.lanes [.laneShift (some 1)]) .laneSwap) .standard = .ok more :=
      exists_eq_ok (by decide +kernel)
    obtain ⟨-, -, -, behind⟩ :=
      (ofDocument_extended (extended (some 1)) .standard).1 table more accepts alsoAccepts
    exact ⟨table, more, accepts, alsoAccepts, behind (List.prefix_append _ _)⟩
  · obtain ⟨failure, refused⟩ :
        ∃ failure, ofDocument (.lanes [.laneShift none]) .standard = .error failure :=
      exists_eq_error (by decide +kernel)
    refine (ofDocument_extended (extended none) .standard).2 failure refused ?_
    rintro ⟨-, enums, fault, -, -, first, name, size, wants⟩
    rw [← Expansion.outcome_directives_eq_error_iff, Expansion.outcome_directives] at first
    cases first
    cases wants

end InstructionSet
