import Mathlib.Data.List.Forall2
import InstructionSet.Proofs.Validation.Batches

/-!
# What a batch is refused for

A batch is refused exactly when a name is repeated in it or a secondary opcode strays from its mask
(`Validation.Verdict`). The diagnostics then tell all of it and nothing else: each repeated name
once, in the order in which the names first occur, with the number of its occurrences and the place
of the second one; and behind these each instruction whose secondary opcode strays, with the bits
that do (`Validation.Complaints`). This holds of each of several batches, whatever came before it
(`Validator.answers_exact`).
-/

namespace InstructionSet

open InstructionSet.Text

set_option autoImplicit false

/-! ## Bits outside a mask -/

namespace Instruction

variable {instruction : Instruction}

/-- The secondary opcode has a bit that the mask does not have. -/
def Strays (instruction : Instruction) : Prop :=
  ∃ opcode2, instruction.opcode2 = some opcode2 ∧ ∃ bit, opcode2.toNat.testBit bit = true ∧
    instruction.secondaryMask.toNat.testBit bit = false

theorem and_eq_left_iff (opcode2 mask : UInt32) : opcode2 &&& mask = opcode2 ↔
    ∀ bit, opcode2.toNat.testBit bit = true → mask.toNat.testBit bit = true := by
  rw [← UInt32.toNat_inj, UInt32.toNat_and]
  constructor
  · intro same bit listed
    rw [← same, Nat.testBit_and, Bool.and_eq_true] at listed
    exact listed.2
  · intro each
    refine Nat.eq_of_testBit_eq fun bit => ?_
    rw [Nat.testBit_and]
    exact Bool.and_eq_left_iff_imp.2 (each bit)

theorem fitsMask_eq_false_iff : instruction.fitsMask = false ↔ instruction.Strays := by
  rw [← Bool.not_eq_true, fitsMask_iff, Strays]
  simp only [and_eq_left_iff, not_forall, Bool.not_eq_true, exists_prop]

instance : DecidablePred Strays := fun _ => decidable_of_iff _ fitsMask_eq_false_iff

/-- The bits that are reported are those of the secondary opcode that the mask does not have. -/
theorem testBit_strayBits {opcode2 : UInt32} (given : instruction.opcode2 = some opcode2)
    (bit : Nat) : instruction.strayBits.toNat.testBit bit =
      (opcode2.toNat.testBit bit && !instruction.secondaryMask.toNat.testBit bit) := by
  have complement : ∀ mask : UInt32, UInt32.size - 1 - mask.toNat = 2 ^ 32 - (mask.toNat + 1) := by
    intro mask
    simp only [UInt32.size]
    omega
  simp only [strayBits, given]
  rw [UInt32.toNat_and, Nat.testBit_and, UInt32.toNat_not, complement,
    Nat.testBit_two_pow_sub_succ (UInt32.toNat_lt _)]
  by_cases inside : bit < 32
  · simp [inside]
  · have high : opcode2.toNat < 2 ^ bit :=
      Nat.lt_of_lt_of_le opcode2.toNat_lt (Nat.pow_le_pow_right Nat.two_pos (Nat.not_lt.1 inside))
    simp [Nat.testBit_lt_two_pow high]

end Instruction

/-! ## Exactly the errors -/

namespace Validation

/-- How often a name occurs in a batch. -/
def occurrences (entries : List Located) (name : String) : Nat :=
  (entries.map (·.instruction.name)).count name

/-- The error about a name that occurs several times. -/
def repetition (name : String) (count : Nat) (span : Option Span) : Diagnostic where
  phase := .validation
  severity := .error
  code := "validation.duplicate-instruction"
  message := "instruction '" ++ name ++ "' appeared " ++ toString count ++ " times"
  span := span

/-- The error about a secondary opcode with bits that its mask does not have. -/
def strayOpcode (name : String) (opcode2 stray mask : UInt32) (span : Option Span) :
    Diagnostic where
  phase := .validation
  severity := .error
  code := "validation.opcode2-mask"
  message := "instruction '" ++ name ++ "' secondary opcode " ++ Hexadecimal.text opcode2.toNat ++
    " has bits " ++ Hexadecimal.text stray.toNat ++ " outside mask " ++
    Hexadecimal.text mask.toNat
  span := span

/-- A diagnostic says exactly how often a name occurs, at the place where it does so for the second
time. -/
def ReportsRepetition (entries : List Located) (name : String) (diagnostic : Diagnostic) : Prop :=
  ∃ second, (entries.filter (·.instruction.name = name))[1]? = some second ∧
    diagnostic = repetition name (occurrences entries name) second.span

/-- A diagnostic says which bits of the secondary opcode of an instruction lie outside its mask, at
the place of the instruction. -/
def ReportsStrayBits (entry : Located) (diagnostic : Diagnostic) : Prop :=
  ∃ opcode2 stray, entry.instruction.opcode2 = some opcode2 ∧
    (∀ bit, stray.toNat.testBit bit =
      (opcode2.toNat.testBit bit && !entry.instruction.secondaryMask.toNat.testBit bit)) ∧
    diagnostic = strayOpcode entry.instruction.name opcode2 stray entry.instruction.secondaryMask
      entry.span

/-- The diagnostics about a batch are one for each repeated name, in the order of the first
occurrences of the names, and then one for each instruction whose secondary opcode strays, in the
order of the batch. All of them are errors. -/
structure Complaints (entries : List Located) (order : List String)
    (repeats strays : List Diagnostic) : Prop where
  /-- The names first occur in this order. -/
  ordered : order.Pairwise fun first later =>
    (entries.map (·.instruction.name)).idxOf first < (entries.map (·.instruction.name)).idxOf later
  /-- The names are those that are repeated. -/
  repeated : ∀ name, name ∈ order ↔ 2 ≤ occurrences entries name
  /-- Each of them is reported. -/
  reportsRepeats : List.Forall₂ (ReportsRepetition entries) order repeats
  /-- Each instruction whose secondary opcode strays is reported. -/
  reportsStrays : List.Forall₂ ReportsStrayBits (entries.filter (·.instruction.Strays)) strays
  /-- No warning is among the diagnostics. -/
  errors : ∀ diagnostic ∈ repeats ++ strays, diagnostic.isError = true

/-- A batch is refused exactly when a name is repeated or a secondary opcode strays, and then with
exactly the diagnostics that say so. -/
structure Verdict (entries : List Located) (answer : Except Failure (List Diagnostic)) : Prop where
  /-- The batch is refused when there is something to complain about. -/
  refused : (∃ failure, answer = .error failure) ↔
    (∃ name, 2 ≤ occurrences entries name) ∨ ∃ entry ∈ entries, entry.instruction.Strays
  /-- It is refused with these complaints. -/
  complaints : ∀ failure, answer = .error failure → ∃ order repeats strays,
    failure = .reported .validation (repeats ++ strays) ∧ Complaints entries order repeats strays

/-- What is kept of a list is related to what is made from it, one by one. -/
theorem forall₂_filter_filterMap {α β : Type} {related : α → β → Prop} {keeps : α → Bool}
    {made? : α → Option β} {values : List α}
    (kept : ∀ value, keeps value = true → ∃ made, made? value = some made ∧ related value made)
    (dropped : ∀ value, keeps value = false → made? value = none) :
    List.Forall₂ related (values.filter keeps) (values.filterMap made?) := by
  induction values with
  | nil => exact .nil
  | cons value rest ih =>
      cases keep : keeps value with
      | true =>
          obtain ⟨made, makes, here⟩ := kept value keep
          rw [List.filter_cons_of_pos keep, List.filterMap_cons_some makes]
          exact .cons here ih
      | false =>
          rw [List.filter_cons_of_neg (by simp [keep]), List.filterMap_cons_none (dropped _ keep)]
          exact ih

variable {entries : List Located}

theorem exists_repeated_iff :
    (∃ name, 2 ≤ occurrences entries name) ↔ ¬ (entries.map (·.instruction.name)).Nodup := by
  rw [List.nodup_iff_count, not_forall]
  simp only [occurrences, Nat.not_le, Nat.lt_iff_add_one_le]

theorem duplicate?_of_repeated {name : String} (repeated : 2 ≤ occurrences entries name) :
    ∃ diagnostic, duplicate? entries name = some diagnostic ∧
      ReportsRepetition entries name diagnostic := by
  have length : occurrences entries name = (named name entries).length :=
    (length_named name entries).symm
  have filtered : entries.filter (·.instruction.name = name) = named name entries := rfl
  simp only [ReportsRepetition, duplicate?, filtered]
  rw [length] at repeated ⊢
  generalize named name entries = found at repeated
  cases found with
  | nil => cases repeated
  | cons first rest =>
      cases rest with
      | nil => exact absurd repeated (by simp)
      | cons second rest => exact ⟨_, rfl, second, rfl, rfl⟩

theorem outsideMask?_of_strays {entry : Located} (strays : entry.instruction.Strays) :
    ∃ diagnostic, outsideMask? entry = some diagnostic ∧ ReportsStrayBits entry diagnostic := by
  have notFits := Instruction.fitsMask_eq_false_iff.2 strays
  obtain ⟨opcode2, given, -⟩ := strays
  refine ⟨_, by simp only [outsideMask?, notFits]; rfl, opcode2, entry.instruction.strayBits, given,
    Instruction.testBit_strayBits given, ?_⟩
  rw [given, Option.getD_some]
  rfl

theorem complaints_errors (entries : List Located) :
    Complaints entries
      ((firstBy id (entries.map (·.instruction.name))).filter (2 ≤ occurrences entries ·))
      (duplicates entries) (entries.filterMap outsideMask?) where
  ordered := (pairwise_firstBy_id _).filter _
  repeated name := by
    rw [List.mem_filter, decide_eq_true_eq]
    refine and_iff_right_of_imp fun repeated => mem_firstBy_id ?_
    exact List.count_pos_iff.1 (Nat.lt_of_lt_of_le Nat.two_pos repeated)
  reportsRepeats := by
    refine forall₂_filter_filterMap (fun name repeated => ?_) fun name once => ?_
    · exact duplicate?_of_repeated (of_decide_eq_true repeated)
    · exact duplicate?_eq_none_iff.2 (Nat.le_of_lt_succ (Nat.not_le.1 (of_decide_eq_false once)))
  reportsStrays := by
    refine forall₂_filter_filterMap (fun entry strays => ?_) fun entry fits => ?_
    · exact outsideMask?_of_strays (of_decide_eq_true strays)
    · refine outsideMask?_eq_none_iff.2 ?_
      rw [← Bool.not_eq_false, Instruction.fitsMask_eq_false_iff]
      exact of_decide_eq_false fits
  errors diagnostic member := by
    rcases List.mem_append.1 member with repeated | strays
    · exact Validator.isError_of_duplicates repeated
    · obtain ⟨entry, -, reported⟩ := List.mem_filterMap.1 strays
      exact Validator.isError_of_outsideMask? (Option.mem_toList.2 reported)

theorem verdict_check (entries : List Located) : Verdict entries (check entries) where
  refused := by
    have strays : (∃ entry ∈ entries, entry.instruction.Strays) ↔
        ¬ ∀ entry ∈ entries, entry.instruction.fitsMask = true := by
      simp only [← Instruction.fitsMask_eq_false_iff, not_forall, Bool.not_eq_true, exists_prop]
    rw [exists_repeated_iff, strays, ← not_and_or, ← errors_eq_nil_iff]
    simp only [check, Phase.accept_eq_error_iff, exists_and_left, exists_eq', and_true, ne_eq]
  complaints failure refused := by
    obtain ⟨-, rfl⟩ := Phase.accept_eq_error_iff.1 refused
    exact ⟨_, _, _, rfl, complaints_errors entries⟩

end Validation

/-! ## Batches -/

namespace Validator

/-- **Exactly the errors.** A validator answers each of several batches as if it were the only one,
and refuses exactly those with a repeated name or a secondary opcode that strays, for exactly
that. -/
theorem answers_exact (batches : List (List Located)) :
    answers batches = batches.map Validation.check ∧
      List.Forall₂ Validation.Verdict batches (answers batches) := by
  rw [answers_eq, List.forall₂_map_right_iff, List.forall₂_same]
  exact ⟨rfl, fun entries _ => Validation.verdict_check entries⟩

/-- An instruction whose secondary opcode has one bit outside its mask. -/
def strayMove : Located :=
  ⟨⟨"MOV", 1, some 0x14, [], [], [], [], []⟩, none⟩

example : (answers [[strayMove], [], [strayMove, strayMove]]).map (·.isOk) =
    [false, true, false] := by
  decide

end Validator

end InstructionSet
