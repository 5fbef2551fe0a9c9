import InstructionSet.Proofs.Table.WellFormed
import Mathlib.Data.List.ProdSigma
import Mathlib.Data.Set.Pairwise.List

/-!
# The bits of the sources

Each capability of a source claims bits of the encoded instruction. Where they are is fixed by the
index of the source (`Source.claims_neg_iff` and its companions), except for a lane selector, whose
place a description may give. The claims of one source are made without looking at the others, and
no later step compares them: building counts and numbers the sources, and validation asks for names
and secondary opcodes. So a table may well hold an instruction two of whose claims share a bit.

This module says for which instructions that happens (`Instruction.CompatibleSources`). For an
instruction of a table, the claimed fields are pairwise disjoint exactly when its sources are
compatible (`Table.sourceFields_disjoint_iff`), and there are tables with incompatible sources
(`Table.sourceFields_overlap`).
-/

namespace InstructionSet

set_option autoImplicit false

open Fallible

/-! ## Fields that share bits -/

namespace BitField

/-- The bit lies in the field. -/
def Has (field : BitField) (bit : Nat) : Prop :=
  field.start.toNat ≤ bit ∧ bit < field.stop

/-- No bit lies in both fields. -/
def Disjoint (first second : BitField) : Prop :=
  ∀ bit, first.Has bit → ¬ second.Has bit

/-- Fields are disjoint when one of them is empty or they follow each other. -/
theorem disjoint_iff {first second : BitField} : first.Disjoint second ↔
    first.width = 0 ∨ second.width = 0 ∨
      first.stop ≤ second.start.toNat ∨ second.stop ≤ first.start.toNat := by
  have empty (field : BitField) : field.width = 0 ↔ field.width.toNat = 0 := UInt8.toNat_inj.symm
  simp only [Disjoint, Has, stop, empty]
  constructor
  · intro disjoint
    have apart := disjoint (max first.start.toNat second.start.toNat)
    omega
  · omega

instance (first second : BitField) : Decidable (first.Disjoint second) :=
  decidable_of_iff _ disjoint_iff.symm

end BitField

/-- The fields that the sources of an instruction claim. -/
def Instruction.sourceFields (instruction : Instruction) : List BitField :=
  instruction.sources.flatMap fun source => source.encoding.fields.map (·.2)

/-! ## The claims of a source -/

/-- What a source claims bits for. -/
inductive Capability where
  /-- Negation. -/
  | neg
  /-- Absolute value. -/
  | abs
  /-- Complement. -/
  | not
  /-- Widening, or selection by lanes. -/
  | widen
  /-- Lane selector. -/
  | lane
  /-- Swizzle. -/
  | swizzle
  deriving DecidableEq

/-- The capabilities in the order in which their fields are listed. -/
def Capability.all : List Capability :=
  [.neg, .abs, .not, .widen, .lane, .swizzle]

theorem Capability.mem_all (capability : Capability) : capability ∈ all := by
  cases capability <;> decide

/-- The label under which the field of a capability is listed. -/
def Capability.label : Capability → String
  | .neg => "neg"
  | .abs => "abs"
  | .not => "not"
  | .widen => "widen"
  | .lane => "lane"
  | .swizzle => "swizzle"

namespace Source

variable {source : Source} {bit : Nat}

/-- The field that a source claims for a capability. -/
def field? (source : Source) : Capability → Option BitField
  | .neg => source.encoding.neg
  | .abs => source.encoding.abs
  | .not => source.encoding.not
  | .widen => source.encoding.widen
  | .lane => source.encoding.lane
  | .swizzle => source.encoding.swizzle

/-- A source claims a bit for a capability. -/
def Claims (source : Source) (capability : Capability) (bit : Nat) : Prop :=
  ∃ field, source.field? capability = some field ∧ field.Has bit

theorem fields_eq_filterMap (source : Source) : source.encoding.fields =
    Capability.all.filterMap fun capability =>
      (source.field? capability).map fun field => (capability.label, field) := by
  show (Capability.all.map fun capability =>
    (capability.label, source.field? capability)).filterMap _ = _
  rw [List.filterMap_map]
  rfl

/-! ## Where the claims are -/

/-- The slots are counted down from the third source. -/
theorem slot?_eq_some_iff {index slot : UInt8} :
    slot? index = some slot ↔ slot.toNat + index.toNat = 2 := by
  have small := slot.toNat_lt
  rw [slot?, Option.ite_none_right_eq_some, UInt8.le_iff_toNat_le, Option.some.injEq,
    ← UInt8.toNat_inj]
  constructor
  · rintro ⟨inside, same⟩
    rw [UInt8.toNat_sub_of_le _ _ inside] at same
    simp at same inside
    omega
  · intro same
    have inside : index ≤ 2 := by
      rw [UInt8.le_iff_toNat_le]
      simp
      omega
    refine ⟨inside, ?_⟩
    rw [UInt8.toNat_sub_of_le _ _ inside]
    simp
    omega

/-- A field in the slot of a source lies by two bits lower for every source. -/
theorem exists_slotted_has_iff {index start width : UInt8} (low : start.toNat < 128) :
    (∃ field, (slot? index).map (fun slot => BitField.mk (start + 2 * slot) width) = some field ∧
      field.Has bit) ↔
    index.toNat ≤ 2 ∧ start.toNat + 4 ≤ bit + 2 * index.toNat ∧
      bit + 2 * index.toNat < start.toNat + 4 + width.toNat := by
  have toNat {slot : UInt8} (same : slot.toNat + index.toNat = 2) :
      (start + 2 * slot).toNat + 2 * index.toNat = start.toNat + 4 := by
    simp [UInt8.toNat_add, UInt8.toNat_mul]
    omega
  simp only [Option.map_eq_some_iff, slot?_eq_some_iff, BitField.Has, BitField.stop]
  constructor
  · rintro ⟨_, ⟨slot, same, rfl⟩, above, below⟩
    have := toNat same
    dsimp only at above below
    omega
  · rintro ⟨inside, above, below⟩
    have same : (2 - index).toNat + index.toNat = 2 := by
      rw [UInt8.toNat_sub_of_le _ _ (UInt8.le_iff_toNat_le.2 inside)]
      exact Nat.sub_add_cancel inside
    have := toNat same
    refine ⟨_, ⟨2 - index, same, rfl⟩, ?_⟩
    dsimp only
    omega

/-- Negation has a bit of its own for each of three sources, from bit 38 downwards. -/
theorem claims_neg_iff : source.Claims .neg bit ↔
    source.traits.absNeg = true ∧ source.index.toNat ≤ 2 ∧ bit + 2 * source.index.toNat = 38 := by
  have slotted : (∃ field, negField? source.index = some field ∧ field.Has bit) ↔ _ :=
    exists_slotted_has_iff (by decide)
  simp only [Claims, field?, encoding, Option.ite_none_right_eq_some, and_assoc, exists_and_left,
    slotted]
  simp
  omega

/-- The bit of the absolute value is the one above that of negation. -/
theorem claims_abs_iff : source.Claims .abs bit ↔
    source.traits.absNeg = true ∧ source.index.toNat ≤ 2 ∧ bit + 2 * source.index.toNat = 39 := by
  have slotted : (∃ field, absField? source.index = some field ∧ field.Has bit) ↔ _ :=
    exists_slotted_has_iff (by decide)
  simp only [Claims, field?, encoding, Option.ite_none_right_eq_some, and_assoc, exists_and_left,
    slotted]
  simp
  omega

/-- The complement has one bit for whichever source it is. -/
theorem claims_not_iff : source.Claims .not bit ↔ source.traits.not = true ∧ bit = 35 := by
  simp only [Claims, field?, encoding, Option.ite_none_right_eq_some, and_assoc, exists_and_left]
  simp [BitField.Has, BitField.stop]
  omega

/-- An adjustment of the width has four bits for the second source and four for all others. -/
theorem claims_widen_iff : source.Claims .widen bit ↔ source.adjustsWidth = true ∧
    if source.index.toNat = 1 then 26 ≤ bit ∧ bit < 30 else 36 ≤ bit ∧ bit < 40 := by
  have second : source.index = 1 ↔ source.index.toNat = 1 := UInt8.toNat_inj.symm
  simp only [Claims, field?, encoding, adjustsWidth, Option.ite_none_right_eq_some, and_assoc,
    exists_and_left, Option.some.injEq, exists_eq_left', widenField, second]
  split <;> exact Iff.rfl

/-- A swizzle has two bits for each of three sources, from bit 28 downwards. -/
theorem claims_swizzle_iff : source.Claims .swizzle bit ↔ source.traits.swizzle = true ∧
    source.index.toNat ≤ 2 ∧ 28 ≤ bit + 2 * source.index.toNat ∧
      bit + 2 * source.index.toNat < 30 := by
  have slotted : (∃ field, swizzleField? source.index = some field ∧ field.Has bit) ↔ _ :=
    exists_slotted_has_iff (by decide)
  simp only [Claims, field?, encoding, Option.ite_none_right_eq_some, and_assoc, exists_and_left,
    slotted]
  simp

end Source

/-! ## Compatible sources -/

/-- The sources of an instruction leave each other the bits that they claim. -/
structure Instruction.CompatibleSources (instruction : Instruction) : Prop where
  /-- At most one source can be complemented. -/
  complement : ∀ first ∈ instruction.sources, ∀ second ∈ instruction.sources,
    first.traits.not = true → second.traits.not = true → first.index = second.index
  /-- Beside a source that can be complemented the third one cannot be made absolute. -/
  complementAbs : ∀ first ∈ instruction.sources, ∀ second ∈ instruction.sources,
    first.traits.not = true → second.traits.absNeg = true → second.index.toNat ≠ 2
  /-- At most one source adjusts its width, not counting the second one. -/
  width : ∀ first ∈ instruction.sources, ∀ second ∈ instruction.sources,
    first.adjustsWidth = true → second.adjustsWidth = true →
      first.index.toNat ≠ 1 → second.index.toNat ≠ 1 → first.index = second.index
  /-- Beside such a source neither the first one nor the second one can be made absolute. -/
  widthAbs : ∀ first ∈ instruction.sources, ∀ second ∈ instruction.sources,
    first.adjustsWidth = true → first.index.toNat ≠ 1 → second.traits.absNeg = true →
      2 ≤ second.index.toNat
  /-- When the second one adjusts its width, neither it nor the first one can be swizzled. -/
  widthSwizzle : ∀ first ∈ instruction.sources, ∀ second ∈ instruction.sources,
    first.adjustsWidth = true → first.index.toNat = 1 → second.traits.swizzle = true →
      2 ≤ second.index.toNat
  /-- A lane selector, which may be placed anywhere, stays clear of every other capability. -/
  selector : ∀ first ∈ instruction.sources, ∀ second ∈ instruction.sources,
    ∀ bit capability, first.Claims .lane bit → second.Claims capability bit → capability = .lane
  /-- The lane selectors of two sources stay clear of each other. -/
  selectors : ∀ first ∈ instruction.sources, ∀ second ∈ instruction.sources,
    ∀ bit, first.Claims .lane bit → second.Claims .lane bit → first.index = second.index

/-- No bit is claimed twice by the sources of an instruction. -/
def Instruction.ClaimsOnce (instruction : Instruction) : Prop :=
  ∀ first ∈ instruction.sources, ∀ second ∈ instruction.sources,
    ∀ bit capability other, first.Claims capability bit → second.Claims other bit →
      first.index = second.index ∧ capability = other

namespace Instruction

variable {instruction : Instruction}

section

open Source

/-- Compatible sources claim no bit twice for capabilities that have a fixed place. -/
theorem CompatibleSources.eq_of_claims (compatible : instruction.CompatibleSources)
    {first second : Source} (isFirst : first ∈ instruction.sources)
    (isSecond : second ∈ instruction.sources) {bit : Nat} {capability other : Capability}
    (fixed : capability ≠ .lane) (otherFixed : other ≠ .lane)
    (claims : first.Claims capability bit) (otherClaims : second.Claims other bit) :
    first.index = second.index ∧ capability = other := by
  have index : first.index.toNat = second.index.toNat → first.index = second.index :=
    UInt8.toNat_inj.1
  have complement := compatible.complement first isFirst second isSecond
  have complementAbs := compatible.complementAbs first isFirst second isSecond
  have complementAbs' := compatible.complementAbs second isSecond first isFirst
  have width := compatible.width first isFirst second isSecond
  have widthAbs := compatible.widthAbs first isFirst second isSecond
  have widthAbs' := compatible.widthAbs second isSecond first isFirst
  have widthSwizzle := compatible.widthSwizzle first isFirst second isSecond
  have widthSwizzle' := compatible.widthSwizzle second isSecond first isFirst
  -- Slots of one kind are told apart by the bit; every other pair is one of the conditions.
  cases capability <;> cases other
  all_goals first
    | contradiction
    | simp only [claims_neg_iff, claims_abs_iff, claims_not_iff, claims_widen_iff,
        claims_swizzle_iff] at claims otherClaims
      grind

theorem CompatibleSources.claimsOnce (compatible : instruction.CompatibleSources) :
    instruction.ClaimsOnce := by
  intro first isFirst second isSecond bit capability other claims otherClaims
  by_cases lane : capability = .lane
  · subst lane
    obtain rfl := compatible.selector first isFirst second isSecond bit other claims otherClaims
    exact ⟨compatible.selectors first isFirst second isSecond bit claims otherClaims, rfl⟩
  · have fixed : other ≠ .lane := by
      rintro rfl
      exact lane
        (compatible.selector second isSecond first isFirst bit capability otherClaims claims)
    exact compatible.eq_of_claims isFirst isSecond lane fixed claims otherClaims

/-- Each condition of compatibility keeps a bit from being claimed twice. -/
theorem ClaimsOnce.compatibleSources (once : instruction.ClaimsOnce) :
    instruction.CompatibleSources where
  complement first isFirst second isSecond complemented complemented' :=
    (once first isFirst second isSecond 35 .not .not (claims_not_iff.2 ⟨complemented, rfl⟩)
      (claims_not_iff.2 ⟨complemented', rfl⟩)).1
  complementAbs first isFirst second isSecond complemented absNeg third := by
    have claims : first.Claims .not 35 := claims_not_iff.2 ⟨complemented, rfl⟩
    have claims' : second.Claims .abs 35 := claims_abs_iff.2 ⟨absNeg, by omega, by omega⟩
    cases (once first isFirst second isSecond 35 .not .abs claims claims').2
  width first isFirst second isSecond adjusts adjusts' notSecond notSecond' := by
    have claims : first.Claims .widen 36 := claims_widen_iff.2 ⟨adjusts, by simp [notSecond]⟩
    have claims' : second.Claims .widen 36 := claims_widen_iff.2 ⟨adjusts', by simp [notSecond']⟩
    exact (once first isFirst second isSecond 36 .widen .widen claims claims').1
  widthAbs first isFirst second isSecond adjusts notSecond absNeg := by
    by_contra early
    have claims : first.Claims .widen (39 - 2 * second.index.toNat) :=
      claims_widen_iff.2 ⟨adjusts, by rw [if_neg notSecond]; omega⟩
    have claims' : second.Claims .abs (39 - 2 * second.index.toNat) :=
      claims_abs_iff.2 ⟨absNeg, by omega, by omega⟩
    cases (once first isFirst second isSecond _ .widen .abs claims claims').2
  widthSwizzle first isFirst second isSecond adjusts isSecondOne swizzle := by
    by_contra early
    have claims : first.Claims .widen (28 - 2 * second.index.toNat) :=
      claims_widen_iff.2 ⟨adjusts, by rw [if_pos isSecondOne]; omega⟩
    have claims' : second.Claims .swizzle (28 - 2 * second.index.toNat) :=
      claims_swizzle_iff.2 ⟨swizzle, by omega, by omega, by omega⟩
    cases (once first isFirst second isSecond _ .widen .swizzle claims claims').2
  selector first isFirst second isSecond bit capability claims claims' :=
    (once first isFirst second isSecond bit .lane capability claims claims').2.symm
  selectors first isFirst second isSecond bit claims claims' :=
    (once first isFirst second isSecond bit .lane .lane claims claims').1

theorem claimsOnce_iff : instruction.ClaimsOnce ↔ instruction.CompatibleSources :=
  ⟨ClaimsOnce.compatibleSources, CompatibleSources.claimsOnce⟩

end

/-! ## Disjoint fields -/

/-- A source and a capability claim no bit that another source and capability claim. -/
def Apart (claim other : Source × Capability) : Prop :=
  ∀ bit, claim.1.Claims claim.2 bit → ¬ other.1.Claims other.2 bit

theorem Apart.symm {claim other : Source × Capability} (apart : Apart claim other) :
    Apart other claim :=
  fun bit claims claims' => apart bit claims' claims

theorem apart_iff {claim other : Source × Capability} : Apart claim other ↔
    ∀ field, claim.1.field? claim.2 = some field →
      ∀ field', other.1.field? other.2 = some field' → field.Disjoint field' := by
  constructor
  · intro apart field claimed field' claimed' bit inside inside'
    exact apart bit ⟨field, claimed, inside⟩ ⟨field', claimed', inside'⟩
  · rintro disjoint bit ⟨field, claimed, inside⟩ ⟨field', claimed', inside'⟩
    exact disjoint field claimed field' claimed' bit inside inside'

/-- The fields of the sources are those of every source for every capability. -/
theorem sourceFields_eq_filterMap (instruction : Instruction) : instruction.sourceFields =
    (instruction.sources ×ˢ Capability.all).filterMap fun claim => claim.1.field? claim.2 := by
  show _ = (instruction.sources.flatMap fun source =>
    Capability.all.map (Prod.mk source)).filterMap _
  rw [sourceFields, List.filterMap_flatMap]
  congr 1
  funext source
  rw [Source.fields_eq_filterMap, List.map_filterMap, List.filterMap_map]
  simp [Function.comp_def]

/-- When the sources are numbered, their fields are pairwise disjoint exactly when no bit is claimed
twice. -/
theorem pairwise_sourceFields_iff (distinct : (instruction.sources.map (·.index)).Nodup) :
    instruction.sourceFields.Pairwise BitField.Disjoint ↔ instruction.ClaimsOnce := by
  have symmetric : Std.Symm Apart := ⟨fun _ _ => Apart.symm⟩
  have nodup : (instruction.sources ×ˢ Capability.all).Nodup :=
    (List.Nodup.of_map _ distinct).product (by decide)
  rw [sourceFields_eq_filterMap, List.pairwise_filterMap]
  simp only [← apart_iff]
  rw [← nodup.pairwise_coe]
  constructor
  · intro pairwise first isFirst second isSecond bit capability other claims claims'
    have same : (first, capability) = (second, other) := by
      by_contra differ
      exact pairwise (List.mem_product.2 ⟨isFirst, capability.mem_all⟩)
        (List.mem_product.2 ⟨isSecond, other.mem_all⟩) differ bit claims claims'
    cases same
    exact ⟨rfl, rfl⟩
  · rintro once ⟨first, capability⟩ isClaim ⟨second, other⟩ isOther differ bit claims claims'
    have isFirst := (List.mem_product.1 isClaim).1
    have isSecond := (List.mem_product.1 isOther).1
    obtain ⟨index, rfl⟩ := once first isFirst second isSecond bit capability other claims claims'
    obtain rfl := List.inj_on_of_nodup_map distinct isFirst isSecond index
    exact differ rfl

end Instruction

namespace Table

/-- **The fields of an instruction's sources are pairwise disjoint exactly when its sources are
compatible**, whatever document and catalog its table was made from. -/
theorem sourceFields_disjoint_iff {document : Document} {catalog : Catalog} {table : Table}
    (accepts : ofDocument document catalog = .ok table) {instruction : Instruction}
    (member : instruction ∈ table.instructions) :
    instruction.sourceFields.Pairwise BitField.Disjoint ↔ instruction.CompatibleSources := by
  obtain ⟨form, -, built⟩ := exists_of_forall₂ (accepted_of_ofDocument accepts).built member
  have numbers : (instruction.sources.map (·.index.toNat)).Nodup := by
    rw [built.sourceIndices]
    exact List.nodup_range
  have distinct : (instruction.sources.map (·.index)).Nodup :=
    List.Nodup.of_map (·.toNat) (by rwa [List.map_map])
  rw [Instruction.pairwise_sourceFields_iff distinct, Instruction.claimsOnce_iff]

end Table

/-! ## Two descriptions -/

/-- What is computed of some instruction of a description holds of one in its table. -/
theorem CommandLine.exists_instruction_of_any {path source : String} {catalog : Catalog}
    {holds : Instruction → Bool}
    (found : (tableOf path source catalog).toOption.any (·.instructions.any holds) = true) :
    ∃ document table, Document.parse path source = .ok document ∧
      Table.ofDocument document catalog = .ok table ∧
        ∃ instruction ∈ table.instructions, holds instruction = true := by
  obtain ⟨table, loads, among⟩ := exists_of_any found
  obtain ⟨document, parses, accepts⟩ := bind_eq_ok_iff.1 loads
  exact ⟨document, table, parses, accepts, List.any_eq_true.1 among⟩

/-- A description with two sources that can be negated and swizzled before one that can be
complemented. -/
def CommandLine.selecting : String :=
  ":ins SELECT.f32 opcode=1 \x7b\n src absneg=true swizzle=true\n" ++
    " src absneg=true swizzle=true\n src not=true\n\x7d"

theorem Table.sourceFields_disjoint_iff_selecting : ∃ document table,
    Document.parse "gpu.isa" CommandLine.selecting = .ok document ∧
      ofDocument document .standard = .ok table ∧
        ∃ instruction ∈ table.instructions, instruction.sources.length = 3 ∧
          instruction.CompatibleSources := by
  have selects : (CommandLine.tableOf "gpu.isa" CommandLine.selecting .standard).toOption.any
      (·.instructions.any fun instruction => instruction.sources.length = 3 ∧
        instruction.sourceFields.Pairwise BitField.Disjoint) = true := by
    decide +kernel
  obtain ⟨document, table, parses, accepts, instruction, member, holds⟩ :=
    CommandLine.exists_instruction_of_any selects
  obtain ⟨three, disjoint⟩ := of_decide_eq_true holds
  exact ⟨document, table, parses, accepts, instruction, member, three,
    (sourceFields_disjoint_iff accepts member).1 disjoint⟩

/-- A description with a source that can be negated and widened. -/
def CommandLine.overlapping : String :=
  ":ins A opcode=1 \x7b src absneg=true widen=true \x7d"

/-- **A table may hold an instruction that encodes two of its capabilities in one bit**: the first
source is negated by bit 38 and widened by the bits from 36 to 39. -/
theorem Table.sourceFields_overlap : ∃ document table,
    Document.parse "input.isa" CommandLine.overlapping = .ok document ∧
      ofDocument document .standard = .ok table ∧
        ∃ instruction ∈ table.instructions,
          ¬ instruction.sourceFields.Pairwise BitField.Disjoint := by
  have overlaps : (CommandLine.tableOf "input.isa" CommandLine.overlapping .standard).toOption.any
      (·.instructions.any fun instruction =>
        ¬ instruction.sourceFields.Pairwise BitField.Disjoint) = true := by
    decide +kernel
  obtain ⟨document, table, parses, accepts, instruction, member, overlap⟩ :=
    CommandLine.exists_instruction_of_any overlaps
  exact ⟨document, table, parses, accepts, instruction, member, of_decide_eq_true overlap⟩

end InstructionSet
