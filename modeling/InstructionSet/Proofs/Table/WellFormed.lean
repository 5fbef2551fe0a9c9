import InstructionSet.CommandLine.Response
import InstructionSet.Proofs.Enumeration.Registry
import InstructionSet.Proofs.Table.Accepted
import InstructionSet.Proofs.Validation.Errors

/-!
# Well-formed tables

A table that was loaded from a source text can be relied on (`CommandLine.wellFormed_of_tableOf`):
no two instructions have one name, every secondary opcode lies inside the mask of its instruction,
operands are numbered in order, destinations exclude staging registers, and every modifier has the
values that its width calls for. Each of these is settled at another stage of the construction, for
members of groups as for single instructions, since both are built from forms of the same kind
(`Document.instructions`) and with modifiers that do not depend on the order of declarations.
-/

namespace InstructionSet

set_option autoImplicit false

open Fallible

/-! ## Modifiers -/

/-- A modifier has the values that its width calls for. -/
structure Modifier.WellFormed (enums : Registry) (modifier : Modifier) : Prop where
  /-- The field has at least one bit. -/
  size : 1 ≤ modifier.size
  /-- A flag is either nothing or the name of the modifier, and nothing by default. -/
  flag : modifier.size = 1 →
    modifier.values = ["", modifier.name] ∧ modifier.default? = some 0
  /-- A wider modifier has the values of the enumeration with its name, in order, and the default
  is where the enumeration marks it. -/
  choice : 1 < modifier.size → ∃ enumeration : Enumeration,
    enums.named? modifier.name = some enumeration ∧
      modifier.values = enumeration.values.map (·.text) ∧
      ∀ code, modifier.default? = some code ↔
        ∃ value, enumeration.values[code]? = some value ∧ value.isDefault = true
  /-- The default is the code of a value. -/
  default : ∀ code, modifier.default? = some code → code < modifier.values.length

theorem ModifierPlacement.wellFormed_flag {enums : Registry} {placement : ModifierPlacement}
    (isFlag : placement.size = 1) : placement.flag.WellFormed enums where
  size := by
    show 1 ≤ placement.size
    rw [isFlag]
    decide
  flag := fun _ => ⟨rfl, rfl⟩
  choice := fun wider => absurd wider (by
    show ¬ 1 < placement.size
    rw [isFlag]
    decide)
  default := fun code same => by
    cases same
    exact Nat.zero_lt_two

theorem ModifierPlacement.wellFormed_choice {enums : Registry}
    (single : enums.SingleDefaults) {placement : ModifierPlacement} {enumeration : Enumeration}
    (wide : 1 < placement.size) (found : enums.named? placement.name = some enumeration) :
    (placement.choice enumeration).WellFormed enums where
  size := UInt8.le_of_lt wide
  flag := fun isFlag => absurd wide (by
    have isFlag : placement.size = 1 := isFlag
    rw [isFlag]
    decide)
  choice := fun _ =>
    ⟨enumeration, found, rfl, Enumeration.default?_eq_some_iff (single.named found)⟩
  default := fun _ marked => Enumeration.default?_lt marked

/-- What a placement resolves to has the values that its width calls for. -/
theorem ModifierPlacement.wellFormed_of_resolve {enums : Registry}
    (single : enums.SingleDefaults) {placement : ModifierPlacement} {modifier : Modifier}
    (resolves : placement.resolve enums = .ok modifier) : modifier.WellFormed enums := by
  unfold resolve at resolves
  split at resolves
  next => cases resolves
  next someBits =>
    split at resolves
    next isFlag =>
      cases resolves
      exact wellFormed_flag (of_decide_eq_true isFlag)
    next notFlag =>
      split at resolves
      next enumeration found =>
        cases resolves
        have notOne : placement.size ≠ 1 := fun one => notFlag (decide_eq_true one)
        exact wellFormed_choice single (by
          have apart := UInt8.toNat_inj.not.2 someBits
          have apart' := UInt8.toNat_inj.not.2 notOne
          rw [UInt8.lt_iff_toNat_lt]
          simp at apart apart' ⊢
          omega) found
      next => cases resolves

theorem ModifierReference.wellFormed_of_resolve {catalog : Catalog} {enums : Registry}
    (single : enums.SingleDefaults) {reference : ModifierReference} {modifier : Modifier}
    (resolves : reference.resolve catalog enums = .ok modifier) : modifier.WellFormed enums := by
  cases reference with
  | placed placement => exact ModifierPlacement.wellFormed_of_resolve single resolves
  | tagged tag =>
      simp only [resolve, Catalog.resolve] at resolves
      split at resolves
      next placement found => exact ModifierPlacement.wellFormed_of_resolve single resolves
      next => cases resolves

/-! ## Instructions -/

/-- The parts of an instruction fit each other and the enumerations. -/
structure Instruction.WellFormed (enums : Registry) (instruction : Instruction) : Prop where
  /-- The secondary opcode lies inside its mask. -/
  opcode2 : ∀ opcode2, instruction.opcode2 = some opcode2 →
    opcode2 &&& instruction.secondaryMask = opcode2
  /-- There are no destinations beside staging registers. -/
  separate : ¬ (instruction.dests ≠ [] ∧ instruction.staging ≠ [])
  /-- At most two staging registers can be encoded. -/
  stagingCount : instruction.staging.length ≤ 2
  /-- The sources carry their places as indices. -/
  sourceIndices : ∀ (place : Nat) (inside : place < instruction.sources.length),
    instruction.sources[place].index.toNat = place
  /-- The staging registers carry their places as indices. -/
  stagingIndices : ∀ (place : Nat) (inside : place < instruction.staging.length),
    instruction.staging[place].index.toNat = place
  /-- Every modifier has the values that its width calls for. -/
  modifiers : ∀ modifier ∈ instruction.modifiers, modifier.WellFormed enums

/-- The elements of a list whose numbers are a range carry their places. -/
theorem number_getElem {α : Type} {number : α → Nat} {values : List α}
    (numbered : values.map number = List.range values.length) (place : Nat)
    (inside : place < values.length) : number values[place] = place := by
  have same := congrArg (·[place]?) numbered
  simpa [inside] using same

theorem Instruction.Built.wellFormed {header : PartialHeader} {layout : Layout}
    {catalog : Catalog} {enums : Registry} {instruction : Instruction}
    (built : instruction.Built header layout catalog enums) (single : enums.SingleDefaults)
    (fits : instruction.fitsMask = true) : instruction.WellFormed enums where
  opcode2 := fitsMask_iff.1 fits
  separate := by
    rintro ⟨someDests, someStaging⟩
    exact built.separate.elim someDests someStaging
  stagingCount := built.staging_length_le
  sourceIndices := number_getElem built.sourceIndices
  stagingIndices := number_getElem built.stagingIndices
  modifiers := by
    intro modifier member
    obtain ⟨reference, -, resolves⟩ := built.exists_reference member
    exact reference.wellFormed_of_resolve single resolves

/-! ## Tables -/

/-- A table whose instructions and enumerations fit each other. -/
structure Table.WellFormed (table : Table) : Prop where
  /-- No two instructions have one name. -/
  names : (table.instructions.map (·.name)).Nodup
  /-- The parts of every instruction fit each other. -/
  instructions : ∀ instruction ∈ table.instructions, instruction.WellFormed table.enums
  /-- Every enumeration marks at most one value as the default. -/
  enums : ∀ entry ∈ table.enums.entries, entry.2.values.countP (·.isDefault) ≤ 1

namespace Table

theorem Accepted.singleDefaults {document : Document} {catalog : Catalog} {table : Table}
    (accepted : Accepted document catalog table) : table.enums.SingleDefaults :=
  Registry.singleDefaults_of_ofForms accepted.enums

theorem Accepted.valid {document : Document} {catalog : Catalog} {table : Table}
    (accepted : Accepted document catalog table) :
    (table.instructions.map (·.name)).Nodup ∧
      ∀ instruction ∈ table.instructions, instruction.fitsMask = true := by
  obtain ⟨declared, -, same, checked⟩ := accepted.expanded
  obtain ⟨distinct, fit⟩ := Validation.errors_eq_nil_iff.1 (Validation.check_eq_ok_iff.1 checked).1
  rw [← same]
  refine ⟨?_, ?_⟩
  · rw [List.map_map] at distinct ⊢
    exact distinct
  · intro instruction member
    obtain ⟨one, among, rfl⟩ := List.mem_map.1 member
    exact fit (located document.path one) (List.mem_map_of_mem among)

theorem Accepted.wellFormed {document : Document} {catalog : Catalog} {table : Table}
    (accepted : Accepted document catalog table) : table.WellFormed where
  names := accepted.valid.1
  instructions := by
    intro instruction member
    obtain ⟨form, -, built⟩ := exists_of_forall₂ accepted.built member
    exact built.wellFormed accepted.singleDefaults (accepted.valid.2 instruction member)
  enums := accepted.singleDefaults

end Table

/-- **Every table that is loaded is well-formed**, whatever the source text, its label and the
catalog. -/
theorem CommandLine.wellFormed_of_tableOf {path source : String} {catalog : Catalog} {table : Table}
    (loaded : tableOf path source catalog = .ok table) : table.WellFormed := by
  obtain ⟨document, -, accepts⟩ := bind_eq_ok_iff.1 loaded
  exact (Table.accepted_of_ofDocument accepts).wellFormed

/-- A description with an enumeration, a modifier of the catalog that needs it, and a group with a
member whose secondary opcode differs. -/
def CommandLine.additions : String :=
  ":enum clamp \x7b value none default=true value m1_1 \x7d\n" ++
    ":group opcode=1 srcs=2 \x7b clamp ins ADD.f32 ins ADD.v2f16 opcode2=1 \x7d"

theorem CommandLine.wellFormed_of_tableOf_additions :
    ∃ table, tableOf "gpu.isa" additions .standard = .ok table ∧ table.WellFormed := by
  have succeeds : (tableOf "gpu.isa" additions .standard).toOption.isSome = true := by
    decide +kernel
  obtain ⟨table, loaded⟩ := exists_eq_ok succeeds
  exact ⟨table, loaded, wellFormed_of_tableOf loaded⟩

end InstructionSet
