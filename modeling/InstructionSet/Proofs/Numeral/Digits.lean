import Mathlib.Data.Nat.Digits.Defs
import InstructionSet.Numeral

/-!
# Digits and radix marks

What a numeral is made of is said here by tables: the sixteen digits in their two cases, each at the
place of its value (`Numeral.Digit`), and the six radix marks (`Numeral.marks`). One or more digits
write the number that has them as its digits, the highest first (`Numeral.Writes`). A numeral
without a sign is a mark with a body of digits and underscores (`Numeral.Spells`).

Reading digits from left to right comes to the number that they write (`value?_eq_some_iff`), and
splitting a text finds the mark that stands at its front (`splitRadix_eq_iff`).
-/

namespace InstructionSet.Numeral

set_option autoImplicit false

variable {radix : Nat} {c : Char}

/-! ## Digits -/

/-- The digits of the radixes up to sixteen, each at the place of its value. -/
def lowerDigits : List Char :=
  ['0', '1', '2', '3', '4', '5', '6', '7', '8', '9', 'a', 'b', 'c', 'd', 'e', 'f']

/-- The same digits with capital letters. -/
def upperDigits : List Char :=
  ['0', '1', '2', '3', '4', '5', '6', '7', '8', '9', 'A', 'B', 'C', 'D', 'E', 'F']

/-- A character is the digit of a radix with a value. -/
def Digit (radix : Nat) (c : Char) (value : Nat) : Prop :=
  value < radix ∧ (lowerDigits[value]? = some c ∨ upperDigits[value]? = some c)

instance (radix : Nat) (c : Char) (value : Nat) : Decidable (Digit radix c value) :=
  inferInstanceAs (Decidable (_ ∧ _))

/-- A character is found again by its distance from another. -/
theorem eq_ofNat_of_le {first : Char} (ordered : first ≤ c) :
    c = Char.ofNat (first.toNat + (c.toNat - first.toNat)) := by
  have le : first.toNat ≤ c.toNat := ordered
  rw [Nat.add_sub_cancel' le, Char.ofNat_toNat]

/-- The digits follow one another in three ranges of characters. -/
theorem digits_of_offset :
    (∀ offset < 10, lowerDigits[offset]? = some (Char.ofNat ('0'.toNat + offset))) ∧
      (∀ offset < 6, lowerDigits[offset + 10]? = some (Char.ofNat ('a'.toNat + offset))) ∧
        ∀ offset < 6, upperDigits[offset + 10]? = some (Char.ofNat ('A'.toNat + offset)) := by
  decide

theorem digit?_of_getElem? {value : Nat}
    (digit : lowerDigits[value]? = some c ∨ upperDigits[value]? = some c) :
    digit? 16 c = some value := by
  have all : ∀ value < 16, lowerDigits[value]?.bind (digit? 16) = some value ∧
      upperDigits[value]?.bind (digit? 16) = some value := by decide
  rcases digit with lower | upper
  · have here := (all value (List.getElem?_eq_some_iff.1 lower).1).1
    rwa [lower] at here
  · have here := (all value (List.getElem?_eq_some_iff.1 upper).1).2
    rwa [upper] at here

/-- The digits are read by their table. -/
theorem digit?_eq_some_iff {value : Nat} :
    digit? radix c = some value ↔ Digit radix c value := by
  obtain ⟨decimal, small, capital⟩ := digits_of_offset
  constructor
  · intro read
    obtain ⟨found, inside⟩ := Option.filter_eq_some_iff.1 read
    refine ⟨of_decide_eq_true inside, ?_⟩
    split at found
    next range =>
      cases found
      have upper : c.toNat ≤ 57 := range.2
      left
      rw [decimal _ (by simp; omega), ← eq_ofNat_of_le range.1]
    next =>
      split at found
      next range =>
        cases found
        have upper : c.toNat ≤ 102 := range.2
        left
        rw [small _ (by simp; omega), ← eq_ofNat_of_le range.1]
      next =>
        split at found
        next range =>
          cases found
          have upper : c.toNat ≤ 70 := range.2
          right
          rw [capital _ (by simp; omega), ← eq_ofNat_of_le range.1]
        next => cases found
  · rintro ⟨inside, digit⟩
    obtain ⟨found, -⟩ := Option.filter_eq_some_iff.1 (digit?_of_getElem? digit)
    exact Option.filter_eq_some_iff.2 ⟨found, decide_eq_true inside⟩

theorem isDigit_iff : isDigit radix c = true ↔ ∃ value, Digit radix c value := by
  simp only [isDigit, Option.isSome_iff_exists, digit?_eq_some_iff]

theorem mem_of_digit {value : Nat} (digit : Digit radix c value) :
    c ∈ lowerDigits ++ upperDigits := by
  rcases digit.2 with lower | upper
  · exact List.mem_append_left _ (List.mem_of_getElem? lower)
  · exact List.mem_append_right _ (List.mem_of_getElem? upper)

/-! ## Numbers -/

/-- One or more digits of a radix, the highest first, write a number. -/
def Writes (radix : Nat) (digits : List Char) (number : Nat) : Prop :=
  digits ≠ [] ∧ ∃ values, List.Forall₂ (Digit radix) digits values ∧
    number = Nat.ofDigits radix values.reverse

/-- The number with given digits, from the highest one down. -/
theorem ofDigits_reverse (radix : Nat) (values : List Nat) :
    Nat.ofDigits radix values.reverse =
      values.foldl (fun number value => number * radix + value) 0 := by
  rw [Nat.ofDigits_eq_foldr, List.foldr_reverse]
  congr 1
  funext number value
  rw [Nat.cast_id, Nat.add_comm, Nat.mul_comm]

theorem valueAfter_eq_some_iff {digits : List Char} {before number : Nat} :
    valueAfter radix before digits = some number ↔
      ∃ values, List.Forall₂ (Digit radix) digits values ∧
        number = values.foldl (fun number value => number * radix + value) before := by
  induction digits generalizing before with
  | nil =>
      constructor
      · intro same
        exact ⟨[], .nil, (Option.some.inj same).symm⟩
      · rintro ⟨values, nothing, same⟩
        cases nothing
        exact congrArg some same.symm
  | cons c digits ih =>
      rw [valueAfter, Option.bind_eq_some_iff]
      constructor
      · rintro ⟨value, first, rest⟩
        obtain ⟨values, others, same⟩ := ih.1 rest
        exact ⟨value :: values, .cons (digit?_eq_some_iff.1 first) others, same⟩
      · rintro ⟨values, all, same⟩
        cases all with
        | cons first others => exact ⟨_, digit?_eq_some_iff.2 first, ih.2 ⟨_, others, same⟩⟩

/-- Digits are read as the number that they write. -/
theorem value?_eq_some_iff {digits : List Char} {number : Nat} :
    value? radix digits = some number ↔ Writes radix digits number := by
  cases digits with
  | nil =>
      constructor
      · intro impossible
        cases impossible
      · exact fun writes => absurd rfl writes.1
  | cons c digits =>
      simp only [value?, valueAfter_eq_some_iff, Writes, ofDigits_reverse]
      exact ⟨fun read => ⟨List.cons_ne_nil c digits, read⟩, fun writes => writes.2⟩

/-- Digits write some number. -/
theorem exists_writes {digits : List Char} (some : digits ≠ [])
    (all : ∀ c ∈ digits, ∃ value, Digit radix c value) : ∃ number, Writes radix digits number := by
  have values : ∃ values, List.Forall₂ (Digit radix) digits values := by
    clear some
    induction digits with
    | nil => exact ⟨[], .nil⟩
    | cons c digits ih =>
        obtain ⟨value, first⟩ := all c List.mem_cons_self
        obtain ⟨values, others⟩ := ih fun d member => all d (List.mem_cons_of_mem _ member)
        exact ⟨value :: values, .cons first others⟩
  obtain ⟨values, each⟩ := values
  exact ⟨_, some, values, each, rfl⟩

/-! ## Radix marks -/

/-- The radix marks, each with its radix. -/
def marks : List (List Char × Nat) :=
  [(['0', 'b'], 2), (['0', 'B'], 2), (['0', 'o'], 8), (['0', 'O'], 8), (['0', 'x'], 16),
    (['0', 'X'], 16)]

/-- A text has a radix mark at its front, or none and the radix ten. -/
inductive Marked (text : List Char) :
    (mark : List Char) → (radix : Nat) → (behind : List Char) → Prop where
  /-- One of the marks. -/
  | mark {mark behind : List Char} {radix : Nat} (listed : (mark, radix) ∈ marks)
      (whole : text = mark ++ behind) : Marked text mark radix behind
  /-- None of the marks. -/
  | plain (none : ∀ pair ∈ marks, ¬ pair.1 <+: text) : Marked text [] 10 text

theorem radixOf?_eq_some_iff {letter : Char} :
    radixOf? letter = some radix ↔ (['0', letter], radix) ∈ marks := by
  constructor
  · intro found
    unfold radixOf? at found
    split at found <;> cases found <;> decide
  · intro listed
    simp only [marks, List.mem_cons, List.not_mem_nil, or_false, Prod.mk.injEq, List.cons.injEq,
      true_and, and_true] at listed
    rcases listed with ⟨rfl, rfl⟩ | ⟨rfl, rfl⟩ | ⟨rfl, rfl⟩ | ⟨rfl, rfl⟩ | ⟨rfl, rfl⟩ |
      ⟨rfl, rfl⟩ <;> rfl

theorem exists_letter_of_mem_marks {mark : List Char} (listed : (mark, radix) ∈ marks) :
    ∃ letter, mark = ['0', letter] ∧ radixOf? letter = some radix := by
  have all : ∀ pair ∈ marks, ∃ letter, pair.1 = ['0', letter] := by
    simp [marks]
  obtain ⟨letter, rfl⟩ := all _ listed
  exact ⟨letter, rfl, radixOf?_eq_some_iff.2 listed⟩

/-- A text is split behind the mark at its front. -/
theorem splitRadix_of_marked {text mark behind : List Char}
    (marked : Marked text mark radix behind) : splitRadix text = (mark, radix, behind) := by
  cases marked with
  | mark listed whole =>
      obtain ⟨letter, rfl, selects⟩ := exists_letter_of_mem_marks listed
      simp only [whole, List.cons_append, List.nil_append, splitRadix, selects]
  | plain none =>
      unfold splitRadix
      split
      next letter rest =>
        split
        next radix selects =>
          have listed := radixOf?_eq_some_iff.1 selects
          exact absurd (List.prefix_append _ _) (none _ listed)
        next => rfl
      next => rfl

theorem exists_marked (text : List Char) : ∃ mark radix behind, Marked text mark radix behind := by
  by_cases found : ∃ pair ∈ marks, pair.1 <+: text
  · obtain ⟨⟨mark, radix⟩, listed, behind, whole⟩ := found
    exact ⟨mark, radix, behind, .mark listed whole.symm⟩
  · exact ⟨[], 10, text, .plain fun pair listed here => found ⟨pair, listed, here⟩⟩

theorem splitRadix_eq_iff {text mark behind : List Char} :
    splitRadix text = (mark, radix, behind) ↔ Marked text mark radix behind := by
  refine ⟨fun split => ?_, splitRadix_of_marked⟩
  obtain ⟨mark', radix', behind', marked⟩ := exists_marked text
  have same := (splitRadix_of_marked marked).symm.trans split
  obtain ⟨rfl, rfl, rfl⟩ : mark' = mark ∧ radix' = radix ∧ behind' = behind := by simpa using same
  exact marked

/-! ## Numerals without a sign -/

/-- A radix mark and a body of digits of its radix, with underscores among them. Where there is no
mark the radix is ten, and a digit stands first. -/
structure Spells (mark : List Char) (radix : Nat) (body : List Char) : Prop where
  /-- The mark, if there is one, selects the radix. -/
  selects : (mark, radix) ∈ ([], 10) :: marks
  /-- The body has digits and underscores only. -/
  characters : ∀ c ∈ body, (∃ value, Digit radix c value) ∨ c = '_'
  /-- There is a digit. -/
  hasDigit : ∃ c ∈ body, ∃ value, Digit radix c value
  /-- Without a mark, the first character is a digit. -/
  starts : mark = [] → ∃ c ∈ body.head?, ∃ value, Digit radix c value

instance : Decidable (∃ value, Digit radix c value) :=
  decidable_of_iff _ isDigit_iff

instance (mark : List Char) (radix : Nat) (body : List Char) : Decidable (Spells mark radix body) :=
  decidable_of_iff ((mark, radix) ∈ ([], 10) :: marks ∧
      body.all (fun c => (∃ value, Digit radix c value) ∨ c = '_') ∧
      body.any (fun c => ∃ value, Digit radix c value) ∧
      (mark = [] → body.head?.any fun c => ∃ value, Digit radix c value)) <| by
    simp only [List.all_eq_true, List.any_eq_true, Option.any_eq_true, decide_eq_true_eq]
    exact ⟨fun all => ⟨all.1, all.2.1, all.2.2.1, all.2.2.2⟩,
      fun spells => ⟨spells.selects, spells.characters, spells.hasDigit, spells.starts⟩⟩

/-- The digits of a numeral write a number. -/
theorem Spells.exists_writes {mark body : List Char} (spells : Spells mark radix body) :
    ∃ number, Writes radix (body.filter (· ≠ '_')) number := by
  obtain ⟨c, member, value, digit⟩ := spells.hasDigit
  have notUnderscore : c ≠ '_' := by
    rintro rfl
    exact absurd (mem_of_digit digit) (by decide)
  have kept : c ∈ body.filter (· ≠ '_') :=
    List.mem_filter.2 ⟨member, decide_eq_true notUnderscore⟩
  refine Numeral.exists_writes (List.ne_nil_of_mem kept) fun d among => ?_
  obtain ⟨inside, apart⟩ := List.mem_filter.1 among
  exact (spells.characters d inside).resolve_right (of_decide_eq_true apart)

end InstructionSet.Numeral
