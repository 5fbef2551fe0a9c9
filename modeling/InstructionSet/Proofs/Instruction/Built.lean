import InstructionSet.Instruction.Assembly
import InstructionSet.Proofs.Fallible
import Mathlib.Data.List.Forall2

/-!
# What a built instruction is

Building checks the header, the operands and the modifiers in turn and succeeds when nothing is
wrong with any of them. The sources of a layout are resolved when a byte counts them and each of
them fits its place (`Layout.resolvedSources_eq_ok_iff`), the staging registers when there are no
more than two. An instruction that was built is then determined field by field by the header and the
layout (`PartialHeader.build_eq_ok_iff`): the name and the opcodes are those of the header, the
operands are those of the layout, numbered in order and as wide as the name tells where the layout
does not (`Instruction.Built.sourceSizes`), and the modifiers are what the layout's references
resolve to.
-/

namespace InstructionSet

set_option autoImplicit false

open Fallible

/-! ## Operands -/

theorem operandIndex_eq_ok_iff {operand : CountedOperand} {place : Nat} {index : UInt8} :
    operandIndex operand place = .ok index ↔ place < 256 ∧ UInt8.ofNat place = index := by
  unfold operandIndex
  split
  next small => simp only [Except.ok.injEq, small, true_and]
  next large => simp only [reduceCtorEq, large, false_and]

/-- The source that a form comes to at a place, apart from what its capabilities require. -/
def SourceForm.placed (form : SourceForm) (index width : UInt8) : Source where
  name := form.name
  index := index
  size := form.size.getD width
  traits := { form.traits with float := form.traits.float || form.traits.absNeg }
  lane := form.lane.bind (Source.laneBit? index)

/-- What the capabilities of a form require of its place and its width, for a mnemonic that tells
the given width. -/
structure SourceForm.Fits (form : SourceForm) (place : Nat) (width : UInt8) : Prop where
  /-- Only the first three sources have a slot. -/
  slot : form.traits.absNeg = true ∨ form.traits.swizzle = true → place ≤ 2
  /-- Only halves and words can be swizzled. -/
  width : form.traits.swizzle = true → form.size.getD width = 16 ∨ form.size.getD width = 32

theorem Source.requireSlot_eq_ok_iff {index : UInt8} {capability : SlottedCapability}
    {nothing : Unit} : requireSlot index capability = .ok nothing ↔ index.toNat ≤ 2 := by
  have slots : (slot? index).isSome = true ↔ index.toNat ≤ 2 := by
    simp [slot?, UInt8.le_iff_toNat_le]
  rw [← slots, requireSlot]
  split
  next found => simp only [found]
  next missing => simp only [reduceCtorEq, missing]

theorem Source.requireSwizzleWidth_eq_ok_iff {index size : UInt8} {nothing : Unit} :
    requireSwizzleWidth index size = .ok nothing ↔ size = 16 ∨ size = 32 := by
  unfold requireSwizzleWidth
  split
  next found => simp only [found]
  next other => simp only [reduceCtorEq, other]

/-- A form is resolved when it fits its place, and comes to the source of this place. -/
theorem Source.resolve_eq_ok_iff {form : SourceForm} {index width : UInt8} {source : Source} :
    Source.resolve form index width = .ok source ↔
      form.Fits index.toNat width ∧ form.placed index width = source := by
  have fits : form.Fits index.toNat width ↔
      (form.traits.absNeg = true → index.toNat ≤ 2) ∧ (form.traits.swizzle = true →
        (form.size.getD width = 16 ∨ form.size.getD width = 32) ∧ index.toNat ≤ 2) := by
    constructor
    · exact fun fits => ⟨fun absNeg => fits.slot (.inl absNeg),
        fun swizzle => ⟨fits.width swizzle, fits.slot (.inr swizzle)⟩⟩
    · exact fun ⟨absNeg, swizzle⟩ => ⟨fun slotted => slotted.elim absNeg fun found =>
        (swizzle found).2, fun found => (swizzle found).1⟩
  rw [fits]
  simp only [Source.resolve]
  split <;> split
  all_goals
    simp only [bind_eq_ok_iff, pure_eq_ok_iff, requireSlot_eq_ok_iff, requireSwizzleWidth_eq_ok_iff,
      SourceForm.placed, *]
    grind

/-! ## Numbered operands -/

theorem Source.resolveFrom_eq_mapM (width : UInt8) (place : Nat) (forms : List SourceForm) :
    Source.resolveFrom width place forms = (forms.zipIdx place).mapM fun entry =>
      operandIndex .source entry.2 >>= fun index => Source.resolve entry.1 index width := by
  induction forms generalizing place with
  | nil => rfl
  | cons form rest ih =>
      rw [Source.resolveFrom, ih, List.zipIdx_cons, List.mapM_cons, bind_assoc]

theorem Source.plainFrom_eq_mapM (width : UInt8) (place count : Nat) :
    Source.plainFrom width place count = (List.range' place count).mapM fun place =>
      operandIndex .source place >>= fun index => pure (.plain index width) := by
  induction count generalizing place with
  | zero => rfl
  | succ count ih =>
      rw [Source.plainFrom, ih, List.range'_succ, List.mapM_cons, bind_assoc]
      rfl

theorem Staging.resolveFrom_eq_mapM (place : Nat) (forms : List StagingForm) :
    Staging.resolveFrom place forms = (forms.zipIdx place).mapM fun entry =>
      operandIndex .staging entry.2 >>= fun index => Staging.resolve entry.1 index := by
  induction forms generalizing place with
  | nil => rfl
  | cons form rest ih =>
      rw [Staging.resolveFrom, ih, List.zipIdx_cons, List.mapM_cons, bind_assoc]

/-- The sources that forms declare, numbered in order, and plain ones behind them. -/
def Source.numbered (width : UInt8) (forms : List SourceForm) (plain : Nat) : List Source :=
  forms.zipIdx.map (fun entry => entry.1.placed (.ofNat entry.2) width) ++
    (List.range' forms.length plain).map fun place => .plain (.ofNat place) width

/-- The staging registers that forms declare, numbered in order. -/
def Staging.numbered (forms : List StagingForm) : List Staging :=
  forms.zipIdx.map fun entry => { entry.1 with index := .ofNat entry.2 }

@[simp] theorem Staging.length_numbered (forms : List StagingForm) :
    (Staging.numbered forms).length = forms.length := by
  rw [numbered, List.length_map, List.length_zipIdx]

/-- Sources are resolved when a byte counts their places and each of them fits its own. -/
theorem Source.resolveFrom_eq_ok_iff {width : UInt8} {place : Nat} {forms : List SourceForm}
    {sources : List Source} : Source.resolveFrom width place forms = .ok sources ↔
      (∀ entry ∈ forms.zipIdx place, entry.2 < 256 ∧ entry.1.Fits entry.2 width) ∧
        (forms.zipIdx place).map (fun entry => entry.1.placed (.ofNat entry.2) width) =
          sources := by
  rw [resolveFrom_eq_mapM]
  refine mapM_eq_ok_iff_of_step fun entry source => ?_
  simp only [bind_eq_ok_iff, operandIndex_eq_ok_iff, resolve_eq_ok_iff]
  constructor
  · rintro ⟨_, ⟨small, rfl⟩, fits, same⟩
    rw [UInt8.toNat_ofNat_of_lt' small] at fits
    exact ⟨⟨small, fits⟩, same⟩
  · rintro ⟨⟨small, fits⟩, same⟩
    refine ⟨_, ⟨small, rfl⟩, ?_, same⟩
    rw [UInt8.toNat_ofNat_of_lt' small]
    exact fits

theorem Source.plainFrom_eq_ok_iff {width : UInt8} {place count : Nat} {sources : List Source} :
    Source.plainFrom width place count = .ok sources ↔
      (∀ index ∈ List.range' place count, index < 256) ∧
        (List.range' place count).map (fun index => .plain (.ofNat index) width) = sources := by
  rw [plainFrom_eq_mapM]
  refine mapM_eq_ok_iff_of_step fun index source => ?_
  simp only [bind_eq_ok_iff, operandIndex_eq_ok_iff, pure_eq_ok_iff]
  constructor
  · rintro ⟨_, ⟨small, rfl⟩, same⟩
    exact ⟨small, same⟩
  · rintro ⟨small, same⟩
    exact ⟨_, ⟨small, rfl⟩, same⟩

/-- Staging registers are resolved when there are no more than two. -/
theorem Staging.resolveFrom_eq_ok_iff {forms : List StagingForm} {registers : List Staging} :
    Staging.resolveFrom 0 forms = .ok registers ↔
      forms.length ≤ 2 ∧ Staging.numbered forms = registers := by
  have room : (∀ entry ∈ forms.zipIdx, entry.2 ≤ 1) ↔ forms.length ≤ 2 := by
    constructor
    · intro few
      by_contra many
      have third : (forms.get ⟨2, by omega⟩, 2) ∈ forms.zipIdx :=
        List.mem_zipIdx_iff_getElem?.2 (List.getElem?_eq_getElem _)
      exact absurd (few _ third) (Nat.not_succ_le_self 1)
    · intro few entry member
      have inside := List.snd_lt_of_mem_zipIdx member
      omega
  rw [resolveFrom_eq_mapM, ← room]
  refine mapM_eq_ok_iff_of_step fun entry register => ?_
  simp only [bind_eq_ok_iff, operandIndex_eq_ok_iff, Staging.resolve]
  constructor
  · rintro ⟨_, ⟨small, rfl⟩, resolved⟩
    split at resolved
    next => cases resolved
    next inRange =>
      have bound : entry.2 ≤ 1 := by
        simpa [UInt8.lt_iff_toNat_lt, Nat.mod_eq_of_lt small] using inRange
      exact ⟨bound, Except.ok.inj resolved⟩
  · rintro ⟨bound, rfl⟩
    have small : entry.2 < 256 := by omega
    have inRange : ¬ UInt8.ofNat entry.2 > 1 := by
      simpa [UInt8.lt_iff_toNat_lt, Nat.mod_eq_of_lt small] using bound
    exact ⟨_, ⟨small, rfl⟩, if_neg inRange⟩

namespace Layout

variable {layout : Layout} {width : UInt8}

/-- The sources of a layout, numbered in order, the plain ones last. -/
def numberedSources (layout : Layout) (width : UInt8) : List Source :=
  Source.numbered width layout.sources layout.plainSources.toNat

/-- The width that each source of a layout has, for a mnemonic that tells the given width. -/
def sourceSizes (layout : Layout) (width : UInt8) : List UInt8 :=
  layout.sources.map (·.size.getD width) ++ List.replicate layout.plainSources.toNat width

/-- A byte counts all sources of a layout. -/
theorem counted_iff : ((∀ entry ∈ layout.sources.zipIdx, entry.2 < 256) ∧
      ∀ place ∈ List.range' layout.sources.length layout.plainSources.toNat, place < 256) ↔
    layout.sources.length + layout.plainSources.toNat ≤ 256 := by
  constructor
  · rintro ⟨declared, plain⟩
    by_contra many
    by_cases none : layout.plainSources.toNat = 0
    · have last : (layout.sources.get ⟨256, by omega⟩, 256) ∈ layout.sources.zipIdx :=
        List.mem_zipIdx_iff_getElem?.2 (List.getElem?_eq_getElem _)
      exact absurd (declared _ last) (Nat.lt_irrefl 256)
    · have last := plain (layout.sources.length + layout.plainSources.toNat - 1)
        (List.mem_range'_1.2 ⟨by omega, by omega⟩)
      omega
  · intro counted
    refine ⟨fun entry member => ?_, fun place member => ?_⟩
    · have inside := List.snd_lt_of_mem_zipIdx member
      omega
    · have inside := (List.mem_range'_1.1 member).2
      omega

/-- The sources of a layout are resolved when a byte counts them and each form fits its place. -/
theorem resolvedSources_eq_ok_iff {sources : List Source} :
    layout.resolvedSources width = .ok sources ↔
      layout.sources.length + layout.plainSources.toNat ≤ 256 ∧
        (∀ entry ∈ layout.sources.zipIdx, entry.1.Fits entry.2 width) ∧
          layout.numberedSources width = sources := by
  simp only [resolvedSources, bind_eq_ok_iff, pure_eq_ok_iff, Source.resolveFrom_eq_ok_iff,
    Source.plainFrom_eq_ok_iff, ← counted_iff]
  constructor
  · rintro ⟨_, ⟨fit, rfl⟩, _, ⟨counted, rfl⟩, same⟩
    exact ⟨⟨fun entry member => (fit entry member).1, counted⟩,
      fun entry member => (fit entry member).2, same⟩
  · rintro ⟨⟨declared, counted⟩, fit, same⟩
    exact ⟨_, ⟨fun entry member => ⟨declared entry member, fit entry member⟩, rfl⟩, _,
      ⟨counted, rfl⟩, same⟩

theorem sizes_numberedSources :
    (layout.numberedSources width).map (·.size) = layout.sourceSizes width := by
  rw [numberedSources, Source.numbered, List.map_append, List.map_map, List.map_map, sourceSizes]
  congr 1
  · conv_rhs => rw [← List.zipIdx_map_fst 0 layout.sources, List.map_map]
    rfl
  · exact List.map_const' .. |>.trans (by rw [List.length_range'])

theorem length_numberedSources : (layout.numberedSources width).length =
    layout.sources.length + layout.plainSources.toNat := by
  simp [numberedSources, Source.numbered]

theorem indices_numberedSources
    (counted : layout.sources.length + layout.plainSources.toNat ≤ 256) :
    (layout.numberedSources width).map (·.index.toNat) =
      List.range (layout.numberedSources width).length := by
  obtain ⟨declared, plain⟩ := counted_iff.2 counted
  rw [length_numberedSources, numberedSources, Source.numbered, List.map_append, List.map_map,
    List.map_map, List.range_eq_range', ← List.range'_append_1, Nat.zero_add,
    ← List.zipIdx_map_snd 0 layout.sources]
  refine congr (congrArg _ (List.map_congr_left fun entry member => ?_)) ?_
  · exact UInt8.toNat_ofNat_of_lt' (declared entry member)
  · exact (List.map_congr_left fun place member =>
      UInt8.toNat_ofNat_of_lt' (plain place member)).trans (List.map_id _)

end Layout

theorem Staging.indices_numbered {forms : List StagingForm} (few : forms.length ≤ 2) :
    (Staging.numbered forms).map (·.index.toNat) = List.range (Staging.numbered forms).length := by
  rw [length_numbered, numbered, List.map_map, List.range_eq_range', ← List.zipIdx_map_snd 0 forms]
  refine List.map_congr_left fun entry member => UInt8.toNat_ofNat_of_lt' ?_
  have inside := List.snd_lt_of_mem_zipIdx member
  show entry.2 < 256
  omega

/-! ## The whole instruction -/

/-- What a header and a layout have to do with the instruction that they make. -/
structure Instruction.Built (header : PartialHeader) (layout : Layout) (catalog : Catalog)
    (enums : Registry) (instruction : Instruction) : Prop where
  /-- The name is the header's. -/
  name : header.name = some instruction.name
  /-- The primary opcode is the header's. -/
  opcode : header.opcodes.primary = some instruction.opcode
  /-- The secondary opcode is the header's. -/
  opcode2 : header.opcodes.secondary = instruction.opcode2
  /-- The sources are the layout's, as wide as the name tells. -/
  sources : layout.resolvedSources (Mnemonic.width instruction.name) = .ok instruction.sources
  /-- The destinations are the layout's. -/
  dests : layout.resolvedDests = instruction.dests
  /-- The staging registers are the layout's. -/
  staging : Staging.resolveFrom 0 layout.staging = .ok instruction.staging
  /-- The immediate operands are the layout's. -/
  immediates : layout.immediates = instruction.immediates
  /-- The modifiers are those that the layout refers to. -/
  modifiers : layout.resolvedModifiers catalog enums = .ok instruction.modifiers
  /-- There are no destinations beside staging registers. -/
  separate : instruction.dests = [] ∨ instruction.staging = []

theorem PartialHeader.complete_eq_ok_iff {header : PartialHeader} {full : Header} :
    header.complete = .ok full ↔ header.name = some full.name ∧
      header.opcodes.primary = some full.opcode ∧ header.opcodes.secondary = full.opcode2 := by
  obtain ⟨name, opcode, opcode2⟩ := full
  unfold complete
  cases header.name with
  | none => simp
  | some found => cases header.opcodes.primary <;> simp

theorem Layout.registers_eq_ok_iff {layout : Layout} {width : UInt8} {registers : Registers} :
    layout.registers width = .ok registers ↔
      layout.resolvedSources width = .ok registers.sources ∧
        Staging.resolveFrom 0 layout.staging = .ok registers.staging := by
  obtain ⟨sources, staging⟩ := registers
  simp only [registers, bind_eq_ok_iff, pure_eq_ok_iff, Registers.mk.injEq]
  constructor
  · rintro ⟨_, first, _, second, rfl, rfl⟩
    exact ⟨first, second⟩
  · rintro ⟨first, second⟩
    exact ⟨sources, first, staging, second, rfl, rfl⟩

theorem Instruction.check_eq_ok_iff {instruction checked : Instruction} :
    instruction.check = .ok checked ↔
      instruction = checked ∧ (instruction.dests = [] ∨ instruction.staging = []) := by
  unfold check
  split
  next both =>
    simp only [reduceCtorEq, false_iff, not_and, not_or]
    exact fun _ => both
  next notBoth =>
    simp only [Except.ok.injEq]
    exact (and_iff_left (by tauto)).symm

/-- A header and a layout make exactly the instruction that they determine. -/
theorem PartialHeader.build_eq_ok_iff {header : PartialHeader} {layout : Layout}
    {catalog : Catalog} {enums : Registry} {instruction : Instruction} :
    header.build layout catalog enums = .ok instruction ↔
      instruction.Built header layout catalog enums := by
  constructor
  · intro built
    obtain ⟨full, completed, built⟩ := bind_eq_ok_iff.1 built
    obtain ⟨registers, registered, built⟩ := bind_eq_ok_iff.1 built
    obtain ⟨modifiers, resolved, assembled⟩ := bind_eq_ok_iff.1 built
    obtain ⟨name, opcode, opcode2⟩ := complete_eq_ok_iff.1 completed
    obtain ⟨sources, staging⟩ := Layout.registers_eq_ok_iff.1 registered
    obtain ⟨rfl, separate⟩ := Instruction.check_eq_ok_iff.1 assembled
    exact ⟨name, opcode, opcode2, sources, rfl, staging, rfl, resolved, separate⟩
  · intro built
    refine bind_eq_ok_iff.2 ⟨⟨instruction.name, instruction.opcode, instruction.opcode2⟩,
      complete_eq_ok_iff.2 ⟨built.name, built.opcode, built.opcode2⟩, ?_⟩
    refine bind_eq_ok_iff.2 ⟨⟨instruction.sources, instruction.staging⟩,
      Layout.registers_eq_ok_iff.2 ⟨built.sources, built.staging⟩, ?_⟩
    refine bind_eq_ok_iff.2 ⟨instruction.modifiers, built.modifiers, ?_⟩
    refine Instruction.check_eq_ok_iff.2 ⟨?_, ?_⟩
    · rw [built.dests, built.immediates]
    · rw [built.dests]
      exact built.separate

namespace Instruction.Built

variable {header : PartialHeader} {layout : Layout} {catalog : Catalog} {enums : Registry}
  {instruction : Instruction}

/-- Every source that has no width of its own is as wide as the instruction's name tells. -/
theorem sourceSizes (built : instruction.Built header layout catalog enums) :
    instruction.sources.map (·.size) = layout.sourceSizes (Mnemonic.width instruction.name) := by
  obtain ⟨-, -, numbered⟩ := Layout.resolvedSources_eq_ok_iff.1 built.sources
  rw [← numbered]
  exact Layout.sizes_numberedSources

theorem sourceIndices (built : instruction.Built header layout catalog enums) :
    instruction.sources.map (·.index.toNat) = List.range instruction.sources.length := by
  obtain ⟨counted, -, numbered⟩ := Layout.resolvedSources_eq_ok_iff.1 built.sources
  rw [← numbered]
  exact Layout.indices_numberedSources counted

theorem stagingIndices (built : instruction.Built header layout catalog enums) :
    instruction.staging.map (·.index.toNat) = List.range instruction.staging.length := by
  obtain ⟨few, numbered⟩ := Staging.resolveFrom_eq_ok_iff.1 built.staging
  rw [← numbered]
  exact Staging.indices_numbered few

theorem staging_length_le (built : instruction.Built header layout catalog enums) :
    instruction.staging.length ≤ 2 := by
  obtain ⟨few, numbered⟩ := Staging.resolveFrom_eq_ok_iff.1 built.staging
  rw [← numbered, Staging.length_numbered]
  exact few

/-- Every modifier is what one of the layout's references resolves to. -/
theorem exists_reference (built : instruction.Built header layout catalog enums)
    {modifier : Modifier} (member : modifier ∈ instruction.modifiers) :
    ∃ reference ∈ layout.modifiers, reference.resolve catalog enums = .ok modifier :=
  exists_of_mapM_eq_ok built.modifiers member

end Instruction.Built
end InstructionSet
