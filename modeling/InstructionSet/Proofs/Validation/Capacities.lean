import Mathlib.Algebra.Order.Ring.Nat
import InstructionSet.Proofs.Table.WellFormed
import InstructionSet.Proofs.Validation.Verdicts

/-!
# What a batch is warned about

A modifier overflows when it has more values than the bits of its field have patterns. A batch may
carry several modifiers of one name, of different widths and in many places: a use of a modifier is
told by the place of its instruction in the batch and by its own place in the instruction
(`Validation.Use`). A batch without errors earns one warning for each name under which a modifier
overflows. It is about the first use that overflows under this name, and the warnings come in the
order of these uses (`Validation.Notices`).

So in a table without warnings the code of every value fits the field of its modifier, the code of
the default value among them (`Validator.warnings_exact`).
-/

namespace InstructionSet

open InstructionSet.Text

set_option autoImplicit false

/-! ## Capacities -/

namespace BitField

variable (field : BitField)

theorem capacity_of_narrow (narrow : field.width < 64) :
    field.capacity = 2 ^ field.width.toNat := by
  rw [capacity, if_pos narrow, Nat.one_shiftLeft]

/-- From 64 bits on, the capacity is one less than the number of 64-bit words. -/
theorem capacity_of_wide (wide : ¬ field.width < 64) : field.capacity = 2 ^ 64 - 1 := by
  rw [capacity, if_neg wide]
  rfl

theorem two_pow_le_of_wide (wide : ¬ field.width < 64) : 2 ^ 64 ≤ 2 ^ field.width.toNat :=
  Nat.pow_le_pow_right Nat.two_pos (UInt8.le_iff_toNat_le.1 (UInt8.not_lt.1 wide))

theorem capacity_le : field.capacity ≤ 2 ^ field.width.toNat := by
  by_cases narrow : field.width < 64
  · exact Nat.le_of_eq (field.capacity_of_narrow narrow)
  · rw [field.capacity_of_wide narrow]
    exact Nat.le_trans (Nat.sub_le _ 1) (field.two_pow_le_of_wide narrow)

end BitField

namespace Modifier

variable {modifier : Modifier}

/-- There are more values than the bits of the field have patterns. -/
def Overflows (modifier : Modifier) : Prop :=
  2 ^ modifier.size.toNat < modifier.values.length

instance : DecidablePred Overflows :=
  fun modifier => inferInstanceAs (Decidable (2 ^ modifier.size.toNat < modifier.values.length))

/-- No list of values is so long that it overflows a field of 64 bits or more. -/
theorem Overflows.narrow (overflows : modifier.Overflows)
    (listed : modifier.values.length < 2 ^ 64) : modifier.size < 64 := by
  by_contra wide
  have large := modifier.field.two_pow_le_of_wide wide
  exact Nat.lt_asymm overflows (Nat.lt_of_lt_of_le listed large)

theorem overflows_iff (listed : modifier.values.length < 2 ^ 64) :
    Validation.overflows modifier = true ↔ modifier.Overflows := by
  rw [Validation.overflows, decide_eq_true_iff, gt_iff_lt]
  constructor
  · intro above
    by_cases narrow : modifier.size < 64
    · rwa [modifier.field.capacity_of_narrow narrow] at above
    · rw [modifier.field.capacity_of_wide narrow] at above
      exact absurd above (Nat.not_lt.2 (Nat.le_sub_one_of_lt listed))
  · intro overflows
    rwa [modifier.field.capacity_of_narrow (overflows.narrow listed)]

end Modifier

namespace Validation

/-! ## Uses of modifiers -/

/-- A modifier that an instruction of a batch carries, and where it does so. -/
structure Use where
  /-- The place of the instruction in the batch. -/
  row : Nat
  /-- The place of the modifier in the instruction. -/
  column : Nat
  /-- The instruction. -/
  carrier : Located
  /-- The modifier. -/
  modifier : Modifier

namespace Use

/-- The batch has the modifier at this place. -/
def Of (use : Use) (entries : List Located) : Prop :=
  entries[use.row]? = some use.carrier ∧
    use.carrier.instruction.modifiers[use.column]? = some use.modifier

/-- A use comes in front of another one. -/
def Before (first later : Use) : Prop :=
  first.row < later.row ∨ first.row = later.row ∧ first.column < later.column

theorem Before.asymm {first later : Use} (before : first.Before later) : ¬ later.Before first := by
  intro behind
  rcases before with row | ⟨row, column⟩ <;> rcases behind with row' | ⟨row', column'⟩
  · exact Nat.lt_asymm row row'
  · exact absurd row' (Nat.ne_of_gt row)
  · exact absurd row (Nat.ne_of_gt row')
  · exact Nat.lt_asymm column column'

/-- No use in front of it overflows under the same name, and it does itself. -/
structure OverflowsFirst (use : Use) (entries : List Located) : Prop where
  /-- It is a use of the batch. -/
  isUse : use.Of entries
  /-- Its modifier overflows. -/
  overflows : use.modifier.Overflows
  /-- It is the first of its name that does. -/
  first : ∀ other : Use, other.Of entries → other.modifier.Overflows →
    other.modifier.name = use.modifier.name → ¬ other.Before use

/-- A warning names the modifier and the instruction, and quotes the number of values, the width of
the field and how many values it tells apart. -/
def text (use : Use) (capacity : Nat) : String :=
  "modifier '" ++ use.modifier.name ++ "' has " ++ toString use.modifier.values.length ++
    " values but its " ++ toString use.modifier.size.toNat ++ "-bit field encodes only " ++
    toString capacity ++ " (first used by '" ++ use.carrier.instruction.name ++ "')"

/-- The warning about a use. -/
def notice (use : Use) : Diagnostic where
  phase := .validation
  severity := .warning
  code := "validation.modifier.too-many-values"
  message := use.text (2 ^ use.modifier.size.toNat)
  span := use.carrier.span

/-- A use without its place. -/
def carried (use : Use) : Carried :=
  ⟨use.modifier, use.carrier⟩

theorem warning_carried {use : Use} (narrow : use.modifier.size < 64) :
    use.carried.warning = use.notice := by
  have capacity : use.modifier.field.capacity = 2 ^ use.modifier.size.toNat :=
    use.modifier.field.capacity_of_narrow narrow
  show Diagnostic.mk _ _ _ (use.text use.modifier.field.capacity) _ = _
  rw [capacity]
  rfl

end Use

/-- The uses that a batch is warned about: one for each name under which a modifier overflows. -/
structure Notices (entries : List Located) (uses : List Use) : Prop where
  /-- Each of them overflows first under its name. -/
  first : ∀ use ∈ uses, use.OverflowsFirst entries
  /-- Every name under which a modifier overflows has one. -/
  complete : ∀ use : Use, use.Of entries → use.modifier.Overflows →
    use.modifier.name ∈ uses.map (·.modifier.name)
  /-- No name has two. -/
  distinct : (uses.map (·.modifier.name)).Nodup
  /-- They come in the order of the batch. -/
  ordered : uses.Pairwise Use.Before
  /-- None of their fields has 64 bits or more. -/
  narrow : ∀ use ∈ uses, use.modifier.size < 64

/-! ## All uses of a batch -/

/-- The uses of modifiers in the order of a batch. -/
def uses (entries : List Located) : List Use :=
  entries.zipIdx.flatMap fun entry =>
    entry.1.instruction.modifiers.zipIdx.map fun modifier =>
      ⟨entry.2, modifier.2, entry.1, modifier.1⟩

variable {entries : List Located}

theorem mem_uses_iff {use : Use} : use ∈ uses entries ↔ use.Of entries := by
  simp only [uses, List.mem_flatMap, List.mem_map, List.mem_zipIdx_iff_getElem?]
  constructor
  · rintro ⟨entry, here, modifier, there, rfl⟩
    exact ⟨here, there⟩
  · rintro ⟨here, there⟩
    exact ⟨(use.carrier, use.row), here, (use.modifier, use.column), there, rfl⟩

theorem pairwise_zipIdx {α : Type} (values : List α) :
    values.zipIdx.Pairwise fun first later => first.2 < later.2 := by
  rw [← List.pairwise_map (R := (· < ·)), List.zipIdx_map_snd]
  exact List.pairwise_lt_range'

/-- The uses come in order, since instructions do, and modifiers of one instruction. -/
theorem pairwise_uses (entries : List Located) : (uses entries).Pairwise Use.Before := by
  refine List.pairwise_flatMap.2 ⟨fun entry _ => ?_, (pairwise_zipIdx entries).imp ?_⟩
  · rw [List.pairwise_map]
    exact (pairwise_zipIdx _).imp fun column => .inr ⟨rfl, column⟩
  · intro entry later row first firstMember second secondMember
    obtain ⟨modifier, -, rfl⟩ := List.mem_map.1 firstMember
    obtain ⟨other, -, rfl⟩ := List.mem_map.1 secondMember
    exact .inl row

/-- What overflows in a batch are those of its uses that do. -/
theorem overflowing_eq (entries : List Located) :
    overflowing entries = ((uses entries).filter (overflows ·.modifier)).map Use.carried := by
  have row : ∀ entry : Located, ∀ place,
      ((entry.instruction.modifiers.zipIdx.map fun modifier =>
        (⟨place, modifier.2, entry, modifier.1⟩ : Use)).filter (overflows ·.modifier)).map
          Use.carried = (entry.instruction.modifiers.filter overflows).map (⟨·, entry⟩) := by
    intro entry place
    conv_rhs => rw [← List.zipIdx_map_fst 0 entry.instruction.modifiers]
    rw [List.filter_map, List.filter_map, List.map_map, List.map_map]
    rfl
  rw [uses, List.filter_flatMap, List.map_flatMap]
  simp only [row]
  conv_lhs => rw [← List.zipIdx_map_fst 0 entries]
  rw [overflowing, List.flatMap_map]

/-! ## Exactly the warnings -/

/-- No list of values in the batch has 2 to the 64 values. -/
def Listed (entries : List Located) : Prop :=
  ∀ entry ∈ entries, ∀ modifier ∈ entry.instruction.modifiers, modifier.values.length < 2 ^ 64

theorem Use.Of.listed {use : Use} (isUse : use.Of entries) (listed : Listed entries) :
    use.modifier.values.length < 2 ^ 64 :=
  listed _ (List.mem_of_getElem? isUse.1) _ (List.mem_of_getElem? isUse.2)

/-- The uses that a batch is warned about. -/
def noticed (entries : List Located) : List Use :=
  firstBy (·.modifier.name) ((uses entries).filter (overflows ·.modifier))

theorem mem_overflowing_iff (listed : Listed entries) {use : Use} :
    use ∈ (uses entries).filter (overflows ·.modifier) ↔
      use.Of entries ∧ use.modifier.Overflows := by
  rw [List.mem_filter, mem_uses_iff]
  refine and_congr_right fun isUse => ?_
  exact Modifier.overflows_iff (isUse.listed listed)

theorem notices_noticed (listed : Listed entries) : Notices entries (noticed entries) := by
  have ordered : ((uses entries).filter (overflows ·.modifier)).Pairwise Use.Before :=
    (pairwise_uses entries).filter _
  have among : ∀ use ∈ noticed entries, use.Of entries ∧ use.modifier.Overflows := fun use member =>
    (mem_overflowing_iff listed).1 (mem_of_mem_firstBy _ member)
  constructor
  case first =>
    intro use member
    obtain ⟨isUse, overflows⟩ := among use member
    refine ⟨isUse, overflows, fun other isOther overflowsToo same => ?_⟩
    have found := (mem_overflowing_iff listed).2 ⟨isOther, overflowsToo⟩
    exact not_ahead_of_mem_firstBy _ Use.Before.asymm ordered member found same
  case complete =>
    intro use isUse overflows
    obtain ⟨found, member, same⟩ :=
      exists_mem_firstBy (·.modifier.name) ((mem_overflowing_iff listed).2 ⟨isUse, overflows⟩)
    exact List.mem_map.2 ⟨found, member, same⟩
  case distinct => exact nodup_map_firstBy _ _
  case ordered => exact ordered.sublist (firstBy_sublist _ _)
  case narrow =>
    intro use member
    obtain ⟨isUse, overflows⟩ := among use member
    exact overflows.narrow (isUse.listed listed)

theorem warnings_eq (listed : Listed entries) :
    warnings entries = (noticed entries).map (·.notice) := by
  rw [warnings, overflowing_eq, firstBy_map, List.map_map]
  refine List.map_congr_left fun use member => ?_
  exact Use.warning_carried ((notices_noticed listed).narrow use member)

/-- A batch in which no name is repeated and no secondary opcode strays is accepted, with a warning
for each use that is to be noticed. -/
theorem check_of_faultless (once : ∀ name, occurrences entries name ≤ 1)
    (stays : ∀ entry ∈ entries, ¬ entry.instruction.Strays) (listed : Listed entries) :
    check entries = .ok ((noticed entries).map (·.notice)) := by
  have accepted : ¬ ∃ failure, check entries = .error failure := by
    rw [(verdict_check entries).refused]
    rintro (⟨name, repeated⟩ | ⟨entry, member, strays⟩)
    · exact Nat.not_lt.2 (once name) repeated
    · exact stays entry member strays
  cases checked : check entries with
  | ok found => rw [← (check_eq_ok_iff.1 checked).2, warnings_eq listed]
  | error failure => exact absurd ⟨failure, checked⟩ accepted

/-! ## Tables without warnings -/

theorem length_le_of_silent (silent : warnings entries = []) {entry : Located}
    (member : entry ∈ entries) {modifier : Modifier}
    (carried : modifier ∈ entry.instruction.modifiers) :
    modifier.values.length ≤ 2 ^ modifier.size.toNat := by
  have fits : overflows modifier = false := by
    by_contra wide
    rw [Bool.not_eq_false] at wide
    have found : (⟨modifier, entry⟩ : Carried) ∈ overflowing entries :=
      List.mem_flatMap.2 ⟨entry, member, List.mem_map_of_mem (List.mem_filter.2 ⟨carried, wide⟩)⟩
    obtain ⟨first, among, -⟩ := exists_mem_firstBy (·.modifier.name) found
    rw [warnings, List.map_eq_nil_iff] at silent
    rw [silent] at among
    cases among
  exact Nat.le_trans (Nat.not_lt.1 (of_decide_eq_false fits)) modifier.field.capacity_le

end Validation

/-- The codes of all values fit the field of a modifier, the code of the default among them. -/
structure Modifier.Encodable (modifier : Modifier) : Prop where
  /-- The code of every value is a pattern of the bits of the field. -/
  values : ∀ code < modifier.values.length, code < 2 ^ modifier.size.toNat
  /-- So is the code of the default value. -/
  default : ∀ code, modifier.default? = some code → code < 2 ^ modifier.size.toNat

theorem Table.Accepted.encodable {document : Document} {catalog : Catalog} {table : Table}
    (accepted : Accepted document catalog table) (silent : table.warnings = [])
    {instruction : Instruction} (member : instruction ∈ table.instructions) {modifier : Modifier}
    (carried : modifier ∈ instruction.modifiers) : modifier.Encodable := by
  obtain ⟨declared, -, same, checked⟩ := accepted.expanded
  rw [← same] at member
  obtain ⟨one, among, rfl⟩ := List.mem_map.1 member
  have length := Validation.length_le_of_silent
    ((Validation.check_eq_ok_iff.1 checked).2.trans silent)
    (List.mem_map_of_mem (f := located document.path) among) carried
  refine ⟨fun code inside => Nat.lt_of_lt_of_le inside length, fun code isDefault => ?_⟩
  have wellFormed := accepted.wellFormed.instructions one.instruction
    (same ▸ List.mem_map_of_mem among)
  exact Nat.lt_of_lt_of_le ((wellFormed.modifiers modifier carried).default code isDefault) length

namespace Validator

open Validation

/-- **Exactly the warnings.** Each batch without errors is answered with exactly the warnings about
the uses that are to be noticed, whatever batches came before it. So the modifiers of an accepted
table without warnings are encodable. -/
theorem warnings_exact (batches : List (List Located))
    (listed : ∀ entries ∈ batches, Listed entries) :
    List.Forall₂ (fun entries answer =>
      (∀ name, occurrences entries name ≤ 1) → (∀ entry ∈ entries, ¬ entry.instruction.Strays) →
        ∃ uses, Notices entries uses ∧ answer = .ok (uses.map (·.notice)))
      batches (answers batches) ∧
    ∀ document catalog table, Table.ofDocument document catalog = .ok table →
      table.warnings = [] → ∀ instruction ∈ table.instructions,
        ∀ modifier ∈ instruction.modifiers, modifier.Encodable := by
  constructor
  · rw [answers_eq, List.forall₂_map_right_iff, List.forall₂_same]
    intro entries member once stays
    have each := listed entries member
    exact ⟨noticed entries, notices_noticed each, check_of_faultless once stays each⟩
  · intro document catalog table accepts silent instruction member modifier carried
    exact (Table.accepted_of_ofDocument accepts).encodable silent member carried

/-- A modifier with three values. -/
def threeSizes (bits : UInt8) : Modifier :=
  ⟨⟨"vector_size", 28, bits, false⟩, ["none", "v2", "v3"], some 0⟩

/-- Loads whose modifiers have one name: the field of the first one is wide enough, and those of the
others are not. -/
def loads : List Located :=
  [⟨⟨"LD1", 2, none, [], [], [], [], [threeSizes 2, threeSizes 1, threeSizes 0]⟩, none⟩,
    ⟨⟨"LD2", 2, none, [], [], [], [], [threeSizes 0]⟩, none⟩]

/-- A load with a modifier that is wide enough for the values of its enumeration. -/
def loadOfSize : Document where
  path := "load.isa"
  directives := [
    .enumeration ⟨"Vector size", [.value "none" true, .value "v2" false, .reserved], .point ⟨1, 1⟩⟩,
    .instruction ⟨"LD1", { primary := some 2 }, { entries := [.tag "vecsize"] }, .point ⟨5, 1⟩⟩]

theorem warnings_exact_loads :
    (∀ entries ∈ [loads], Listed entries) ∧
      (∃ uses, Notices loads uses ∧ answers [loads] = [.ok (uses.map (·.notice))]) ∧
      ∃ table, Table.ofDocument loadOfSize .standard = .ok table ∧
        ∀ instruction ∈ table.instructions, ∀ modifier ∈ instruction.modifiers,
          modifier.Encodable := by
  have listed : ∀ entries ∈ [loads], Listed entries := by
    simp only [List.forall_mem_singleton, Listed]
    decide
  have once : ∀ name, occurrences loads name ≤ 1 := by
    have distinct : (loads.map (·.instruction.name)).Nodup := by decide
    exact List.nodup_iff_count.1 distinct
  obtain ⟨answered, encodable⟩ := warnings_exact [loads] listed
  refine ⟨listed, ?_, ?_⟩
  · generalize answers [loads] = given at answered
    cases answered with
    | cons exact none =>
        cases none
        obtain ⟨uses, notices, rfl⟩ := exact once (by decide)
        exact ⟨uses, notices, rfl⟩
  · obtain ⟨table, accepts, none⟩ : ∃ table, Table.ofDocument loadOfSize .standard = .ok table ∧
        decide (table.warnings = []) = true :=
      Fallible.exists_of_any (by decide +kernel)
    exact ⟨table, accepts, encodable loadOfSize .standard table accepts (of_decide_eq_true none)⟩

example : (warnings loads).length = 1 := by decide

end Validator

end InstructionSet
