import InstructionSet.Proofs.Expansion.Desugaring

/-!
# Where a secondary opcode is encoded

The mask of a secondary opcode is made by rules that set and clear bits one after the other. What
they come to can be said bit by bit (`Instruction.testBit_secondaryMask`): the two lowest bits are
there for every secondary opcode, the next two unless the second of three sources adjusts its width,
one for conversions and one for instructions with a modifier named left. Memory accesses have a mask
and a shift of their own. In a table every instruction goes by these rules itself, be it declared
alone or as a member of a group (`Table.secondaryRules_of_ofDocument`).
-/

namespace InstructionSet

set_option autoImplicit false

namespace Instruction

/-- The name starts as those of the memory accesses do. -/
def AccessesMemory (instruction : Instruction) : Prop :=
  "LOAD.i".toList <+: instruction.name.toList ∨ "STORE.i".toList <+: instruction.name.toList

/-- There are exactly three sources, of which the second can be widened or taken by lanes. -/
def AdjustsMiddle (instruction : Instruction) : Prop :=
  ∃ first middle last, instruction.sources = [first, middle, last] ∧
    (middle.traits.widen = true ∨ middle.traits.lanes = true)

/-- The rules about the secondary opcode of an instruction that a form declares. -/
structure SecondaryRules (form : InstructionForm) (instruction : Instruction) : Prop where
  /-- The name is the form's. -/
  name : instruction.name = form.name
  /-- The primary opcode is the form's. -/
  opcode : form.opcodes.primary = some instruction.opcode
  /-- The secondary opcode is the form's. -/
  opcode2 : form.opcodes.secondary = instruction.opcode2
  /-- Memory accesses have one place for the secondary opcode. -/
  memory : instruction.AccessesMemory →
    instruction.secondaryShift = 27 ∧ instruction.secondaryMask = 7
  /-- Other instructions shift it behind their sources. -/
  shift : ¬ instruction.AccessesMemory →
    instruction.secondaryShift = max 16 (8 * instruction.sources.length)
  /-- The mask of other instructions has these bits and no other. -/
  mask : ¬ instruction.AccessesMemory → ∀ bit,
    instruction.secondaryMask.toNat.testBit bit = true ↔
      (bit = 0 ∨ bit = 1) ∧ instruction.opcode2 ≠ none ∨
      (bit = 2 ∨ bit = 3) ∧ instruction.opcode2 ≠ none ∧ ¬ instruction.AdjustsMiddle ∨
      bit = 4 ∧ instruction.opcode = 0x90 ∨
      bit = 8 ∧ ∃ modifier ∈ instruction.modifiers, modifier.name = "left"

/-! ## What the rules ask about -/

variable {instruction : Instruction}

theorem accessesMemory_iff :
    Mnemonic.accessesMemory instruction.name = true ↔ instruction.AccessesMemory := by
  simp [Mnemonic.accessesMemory, Mnemonic.memoryAccess, AccessesMemory]

theorem middleAdjustsWidth_iff :
    middleAdjustsWidth instruction.sources = true ↔ instruction.AdjustsMiddle := by
  rw [AdjustsMiddle]
  generalize instruction.sources = sources
  constructor
  · intro adjusts
    unfold middleAdjustsWidth at adjusts
    split at adjusts
    next first middle last =>
      rw [Source.adjustsWidth, Bool.or_eq_true] at adjusts
      exact ⟨first, middle, last, rfl, adjusts⟩
    next => cases adjusts
  · rintro ⟨first, middle, last, rfl, adjusts⟩
    simpa [middleAdjustsWidth, Source.adjustsWidth] using adjusts

/-! ## Bit by bit -/

/-- The mask that is made for an instruction that does not access memory: whether it has a secondary
opcode, a modifier named left, a second of three sources that adjusts its width, and the opcode of
the conversions. -/
def maskOf (coded left adjusts converts : Bool) : UInt32 :=
  (((if coded then 0xF else 0) ||| (if left then 0x100 else 0)) &&&
    (if adjusts then ~~~ 0xC else ~~~ 0)) ||| (if converts then 0x10 else 0)

theorem maskOf_lt (coded left adjusts converts : Bool) :
    (maskOf coded left adjusts converts).toNat < 512 := by
  cases coded <;> cases left <;> cases adjusts <;> cases converts <;> decide

theorem testBit_maskOf (coded left adjusts converts : Bool) (bit : Nat) :
    (maskOf coded left adjusts converts).toNat.testBit bit = true ↔
      (bit = 0 ∨ bit = 1) ∧ coded = true ∨
      (bit = 2 ∨ bit = 3) ∧ coded = true ∧ adjusts = false ∨
      bit = 4 ∧ converts = true ∨ bit = 8 ∧ left = true := by
  -- Only finitely many bits are in question, since every mask is below the ninth power of two.
  by_cases low : bit < 9
  · have each : ∀ bit : Fin 9, (maskOf coded left adjusts converts).toNat.testBit bit = true ↔
        (bit = 0 ∨ bit = 1) ∧ coded = true ∨
        (bit = 2 ∨ bit = 3) ∧ coded = true ∧ adjusts = false ∨
        bit = 4 ∧ converts = true ∨ bit = 8 ∧ left = true := by
      cases coded <;> cases left <;> cases adjusts <;> cases converts <;> decide
    simpa [Fin.ext_iff] using each ⟨bit, low⟩
  · have above : 2 ^ 9 ≤ 2 ^ bit := Nat.pow_le_pow_right Nat.two_pos (Nat.not_lt.1 low)
    have high : (maskOf coded left adjusts converts).toNat < 2 ^ bit :=
      Nat.lt_of_lt_of_le (maskOf_lt coded left adjusts converts) above
    rw [Nat.testBit_lt_two_pow high]
    simp only [Bool.false_eq_true, false_iff]
    omega

example : maskOf true true true true = 0x113 := by decide

theorem secondaryMask_eq_maskOf (apart : ¬ instruction.AccessesMemory) :
    instruction.secondaryMask = maskOf instruction.opcode2.isSome
      (instruction.modifiers.any (·.name = "left")) (middleAdjustsWidth instruction.sources)
      (instruction.opcode = conversionOpcode) := by
  rw [secondaryMask, if_neg (mt accessesMemory_iff.1 apart), maskOf]
  simp only [decide_eq_true_eq]

/-- The bits of a mask, one by one. -/
theorem testBit_secondaryMask (apart : ¬ instruction.AccessesMemory) (bit : Nat) :
    instruction.secondaryMask.toNat.testBit bit = true ↔
      (bit = 0 ∨ bit = 1) ∧ instruction.opcode2 ≠ none ∨
      (bit = 2 ∨ bit = 3) ∧ instruction.opcode2 ≠ none ∧ ¬ instruction.AdjustsMiddle ∨
      bit = 4 ∧ instruction.opcode = 0x90 ∨
      bit = 8 ∧ ∃ modifier ∈ instruction.modifiers, modifier.name = "left" := by
  have coded : instruction.opcode2.isSome = true ↔ instruction.opcode2 ≠ none :=
    Option.isSome_iff_ne_none
  have left : instruction.modifiers.any (·.name = "left") = true ↔
      ∃ modifier ∈ instruction.modifiers, modifier.name = "left" := by
    simp only [List.any_eq_true, decide_eq_true_eq]
  rw [secondaryMask_eq_maskOf apart, testBit_maskOf, coded, left, ← middleAdjustsWidth_iff,
    Bool.not_eq_true, decide_eq_true_eq, conversionOpcode]

/-! ## In a table -/

theorem Follows.secondaryRules {form : InstructionForm} (follows : instruction.Follows form) :
    instruction.SecondaryRules form where
  name := follows.name
  opcode := follows.opcode
  opcode2 := follows.opcode2
  memory accesses := by
    have asked := accessesMemory_iff.2 accesses
    rw [secondaryShift, secondaryMask, if_pos asked, if_pos asked]
    exact ⟨rfl, rfl⟩
  shift apart := by
    rw [secondaryShift, if_neg (mt accessesMemory_iff.1 apart)]
  mask := testBit_secondaryMask

end Instruction

/-- **The place of secondary opcodes.** Every instruction of a table, also one that is declared as a
member of a group, encodes its secondary opcode by the rules for its own name, opcodes, sources and
modifiers. -/
theorem Table.secondaryRules_of_ofDocument (document : Document) (catalog : Catalog) (table : Table)
    (accepts : ofDocument document catalog = .ok table) :
    List.Forall₂ (fun form instruction => instruction.SecondaryRules form)
      document.instructions table.instructions :=
  (accepted_of_ofDocument accepts).built.imp fun _ _ built => built.follows.secondaryRules

/-- A group of a conversion that shifts, and of a load in its place, with a source that can be
widened in the middle. -/
def Document.shifts : Document where
  path := "shifts.isa"
  directives := [.group {
    name := none
    opcodes := { primary := some 0x90, secondary := some 0x103 }
    layout := { plainSources := 1, entries :=
      [.source {}, .source { traits := { widen := true } }, .modifier ⟨"left", 41, 1, false⟩] }
    members := [⟨"SHIFT.i32", {}, .point ⟨2, 3⟩⟩,
      ⟨"LOAD.i32", { primary := some 1, secondary := some 5 }, .point ⟨3, 3⟩⟩]
    region := .point ⟨1, 1⟩ }]

theorem Table.secondaryRules_of_ofDocument_shifts :
    ∃ table, ofDocument .shifts .empty = .ok table ∧ List.Forall₂
      (fun form instruction => Instruction.SecondaryRules form instruction)
      Document.shifts.instructions table.instructions := by
  obtain ⟨table, accepts⟩ : ∃ table, ofDocument .shifts .empty = .ok table :=
    Fallible.exists_eq_ok (by decide +kernel)
  exact ⟨table, accepts, secondaryRules_of_ofDocument .shifts .empty table accepts⟩

end InstructionSet
