import InstructionSet.Validation
import Mathlib.Data.List.Basic
import Mathlib.Data.List.Count

/-!
# When instructions make a table

Validation reports repeated names and secondary opcodes outside their masks. It reports nothing
exactly when the names are distinct and every secondary opcode lies inside its mask
(`errors_eq_nil_iff`), so instructions that pass have both properties.
-/

namespace InstructionSet

set_option autoImplicit false

namespace Validation

/-! ## First occurrences -/

section FirstOccurrences

variable {α : Type} (key : α → String)

theorem exists_mem_firstBy {values : List α} {value : α}
    (member : value ∈ values) : ∃ found ∈ firstBy key values, key found = key value := by
  induction values with
  | nil => cases member
  | cons first rest ih =>
      by_cases same : key first = key value
      · exact ⟨first, List.mem_cons_self, same⟩
      · have later : value ∈ rest := by
          rcases List.mem_cons.1 member with rfl | later
          · exact absurd rfl same
          · exact later
        obtain ⟨found, among, agrees⟩ := ih later
        refine ⟨found, List.mem_cons_of_mem _ (List.mem_filter.2 ⟨among, ?_⟩), agrees⟩
        rw [agrees]
        exact decide_eq_true (Ne.symm same)

theorem mem_firstBy_id {names : List String} {name : String} (member : name ∈ names) :
    name ∈ firstBy id names := by
  obtain ⟨found, among, same⟩ := exists_mem_firstBy id member
  obtain rfl : found = name := same
  exact among

theorem firstBy_append (values more : List α) :
    firstBy key (values ++ more) = firstBy key values ++
      (firstBy key more).filter fun value => key value ∉ values.map key := by
  induction values with
  | nil => simp [firstBy, List.filter_true]
  | cons value rest ih =>
      rw [List.cons_append, firstBy, firstBy, ih, List.filter_append, List.filter_filter,
        List.cons_append, List.map_cons]
      simp only [List.mem_cons, not_or, Bool.decide_and, decide_not]

theorem firstBy_concat_id (names : List String) (name : String) :
    firstBy id (names ++ [name]) =
      if name ∈ names then firstBy id names else firstBy id names ++ [name] := by
  rw [firstBy_append, List.map_id]
  split <;> simp_all [firstBy]

theorem mem_of_mem_firstBy {values : List α} {value : α} (member : value ∈ firstBy key values) :
    value ∈ values := by
  induction values with
  | nil => cases member
  | cons first rest ih =>
      rcases List.mem_cons.1 member with rfl | later
      · exact List.mem_cons_self
      · exact List.mem_cons_of_mem _ (ih (List.mem_filter.1 later).1)

theorem firstBy_sublist (values : List α) : (firstBy key values).Sublist values := by
  induction values with
  | nil => exact List.Sublist.refl []
  | cons value rest ih => exact (List.filter_sublist.trans ih).cons_cons value

theorem firstBy_map {β : Type} (change : β → α) (values : List β) :
    firstBy key (values.map change) =
      (firstBy (fun value => key (change value)) values).map change := by
  induction values with
  | nil => rfl
  | cons value rest ih =>
      rw [List.map_cons, firstBy, firstBy, ih, List.filter_map, List.map_cons]
      rfl

/-- First occurrences have different keys. -/
theorem nodup_map_firstBy (values : List α) : ((firstBy key values).map key).Nodup := by
  induction values with
  | nil => exact List.nodup_nil
  | cons value rest ih =>
      refine List.nodup_cons.2 ⟨?_, ih.sublist (List.filter_sublist.map key)⟩
      intro repeated
      obtain ⟨later, among, same⟩ := List.mem_map.1 repeated
      exact of_decide_eq_true (List.mem_filter.1 among).2 same

/-- No value in front of a first occurrence has its key. -/
theorem exists_append_of_mem_firstBy {values : List α} {value : α}
    (member : value ∈ firstBy key values) :
    ∃ before after, values = before ++ value :: after ∧ key value ∉ before.map key := by
  induction values with
  | nil => cases member
  | cons first rest ih =>
      rcases List.mem_cons.1 member with rfl | later
      · exact ⟨[], rest, rfl, List.not_mem_nil⟩
      · obtain ⟨among, other⟩ := List.mem_filter.1 later
        obtain ⟨before, after, whole, fresh⟩ := ih among
        refine ⟨first :: before, after, congrArg (first :: ·) whole, ?_⟩
        rw [List.map_cons, List.mem_cons, not_or]
        exact ⟨of_decide_eq_true other, fresh⟩

/-- No value with the key of a first occurrence is ahead of it, in whatever order the values are. -/
theorem not_ahead_of_mem_firstBy {ahead : α → α → Prop}
    (asymm : ∀ {first later}, ahead first later → ¬ ahead later first) {values : List α}
    (ordered : values.Pairwise ahead) {value other : α} (member : value ∈ firstBy key values)
    (among : other ∈ values) (same : key other = key value) : ¬ ahead other value := by
  obtain ⟨before, after, whole, fresh⟩ := exists_append_of_mem_firstBy key member
  rw [whole] at among ordered
  rcases List.mem_append.1 among with inFront | later
  · exact absurd (same ▸ List.mem_map_of_mem inFront) fresh
  · intro otherAhead
    rcases List.mem_cons.1 later with rfl | further
    · exact asymm otherAhead otherAhead
    · obtain ⟨-, tail, -⟩ := List.pairwise_append.1 ordered
      exact asymm otherAhead ((List.pairwise_cons.1 tail).1 other further)

/-- First occurrences come in the order of their places. -/
theorem pairwise_firstBy_id (names : List String) :
    (firstBy id names).Pairwise fun first later => names.idxOf first < names.idxOf later := by
  induction names with
  | nil => exact .nil
  | cons name rest ih =>
      have behind : ∀ {later : String},
          later ∈ (firstBy id rest).filter (fun later => id later ≠ id name) →
            (name :: rest).idxOf later = rest.idxOf later + 1 := by
        intro later member
        exact List.idxOf_cons_ne rest (Ne.symm (of_decide_eq_true (List.mem_filter.1 member).2))
      refine List.pairwise_cons.2 ⟨fun later member => ?_, ?_⟩
      · rw [List.idxOf_cons_self, behind member]
        exact Nat.succ_pos _
      · refine (ih.filter _).imp_of_mem fun first later before => ?_
        rw [behind first, behind later]
        exact Nat.succ_lt_succ before

end FirstOccurrences

/-! ## Repeated names -/

theorem length_named (name : String) (entries : List Located) :
    (named name entries).length = (entries.map (·.instruction.name)).count name := by
  induction entries with
  | nil => rfl
  | cons entry rest ih =>
      rw [named, List.filter_cons, List.map_cons, List.count_cons, ← ih]
      by_cases same : entry.instruction.name = name
      · simp [same, named]
      · simp [same, named]

theorem duplicate?_eq_none_iff {entries : List Located} {name : String} :
    duplicate? entries name = none ↔ (entries.map (·.instruction.name)).count name ≤ 1 := by
  rw [← length_named, duplicate?]
  split
  next first second rest found => simp [found]
  next notTwo =>
    simp only [true_iff]
    match found : named name entries with
    | [] => exact Nat.zero_le 1
    | [_] => exact Nat.le_refl 1
    | first :: second :: rest => exact absurd found (notTwo first second rest)

/-- No repetition is reported exactly when the names are distinct. -/
theorem duplicates_eq_nil_iff {entries : List Located} :
    duplicates entries = [] ↔ (entries.map (·.instruction.name)).Nodup := by
  rw [duplicates, List.filterMap_eq_nil_iff, List.nodup_iff_count]
  constructor
  · intro none name
    by_cases member : name ∈ entries.map (·.instruction.name)
    · exact duplicate?_eq_none_iff.1 (none name (mem_firstBy_id member))
    · rw [List.count_eq_zero_of_not_mem member]
      exact Nat.zero_le 1
  · exact fun once name _ => duplicate?_eq_none_iff.2 (once name)

/-! ## All errors -/

theorem outsideMask?_eq_none_iff {entry : Located} :
    outsideMask? entry = none ↔ entry.instruction.fitsMask = true := by
  simp only [outsideMask?]
  split
  next fits => simp [fits]
  next notFits => simp [notFits]

/-- Nothing is wrong exactly when names are distinct and secondary opcodes lie in their masks. -/
theorem errors_eq_nil_iff {entries : List Located} :
    errors entries = [] ↔ (entries.map (·.instruction.name)).Nodup ∧
      ∀ entry ∈ entries, entry.instruction.fitsMask = true := by
  rw [errors, List.append_eq_nil_iff, duplicates_eq_nil_iff, List.filterMap_eq_nil_iff]
  simp only [outsideMask?_eq_none_iff]

theorem check_eq_ok_iff {entries : List Located} {found : List Diagnostic} :
    check entries = .ok found ↔ errors entries = [] ∧ warnings entries = found :=
  Phase.accept_eq_ok_iff

end Validation

/-- A secondary opcode lies inside the mask when the mask leaves it as it is. -/
theorem Instruction.fitsMask_iff {instruction : Instruction} :
    instruction.fitsMask = true ↔
      ∀ opcode2, instruction.opcode2 = some opcode2 →
        opcode2 &&& instruction.secondaryMask = opcode2 := by
  unfold fitsMask
  cases instruction.opcode2 with
  | none => simp
  | some opcode2 => simp

end InstructionSet
