import Mathlib.Data.List.Infix
import InstructionSet.Mnemonic
import InstructionSet.Proofs.Numeral.Grammar

/-!
# How a mnemonic tells a width

The last characters of a mnemonic tell the width of its operands. What they tell is said here in the
order in which the endings are tried (`WidthRules`): three endings come first, the longest in front,
and only a mnemonic with none of them is looked at for a number in its last two characters. Such a
number is written with one digit, with two, or with one behind a plus sign (`EndsWithNumber`).

A width is therefore 128 or at most 99, and no character in front of the last three matters to
it (`width_append`).
-/

namespace InstructionSet.Mnemonic

open InstructionSet.Numeral

set_option autoImplicit false

/-! ## The endings of a mnemonic -/

/-- The mnemonic ends in the given characters. -/
def EndsIn (name ending : String) : Prop :=
  ending.toList <:+ name.toList

instance (name ending : String) : Decidable (EndsIn name ending) :=
  inferInstanceAs (Decidable (ending.toList <:+ name.toList))

/-- The last two characters of a mnemonic, or all when there are fewer. -/
def lastTwo (name : String) : List Char :=
  name.toList.drop (name.toList.length - 2)

/-- At most two characters write a number: a digit, two digits, or a digit behind a plus sign. -/
inductive EndsWithNumber : List Char → Nat → Prop where
  /-- A digit alone. -/
  | digit {c : Char} {value : Nat} (ones : Digit 10 c value) : EndsWithNumber [c] value
  /-- Two digits. -/
  | digits {c d : Char} {value more : Nat} (tens : Digit 10 c value) (ones : Digit 10 d more) :
      EndsWithNumber [c, d] (value * 10 + more)
  /-- A digit behind a plus sign. -/
  | plus {c : Char} {value : Nat} (ones : Digit 10 c value) : EndsWithNumber ['+', c] value

/-- The rules by which a mnemonic tells the width of its operands. -/
structure WidthRules (name : String) : Prop where
  /-- The longest ending comes first. -/
  quad : EndsIn name "128" → width name = 128
  /-- Another ending in front of the shortest. -/
  odd : EndsIn name "48" → width name = 48
  /-- Any other mnemonic that ends in an eight. -/
  byte : EndsIn name "8" → ¬ EndsIn name "128" → ¬ EndsIn name "48" → width name = 8
  /-- Without such an ending the last two characters write the width, if they write a number. -/
  number : ¬ EndsIn name "8" → ∀ value, EndsWithNumber (lastTwo name) value →
    (width name).toNat = value
  /-- If they do not, the operands have the usual width. -/
  usual : ¬ EndsIn name "8" → (∀ value, ¬ EndsWithNumber (lastTwo name) value) → width name = 32
  /-- There are no other widths than 128 and those of at most two digits. -/
  range : width name = 128 ∨ (width name).toNat ≤ 99

/-! ## Numbers of at most two characters -/

theorem EndsWithNumber.le {ending : List Char} {value : Nat} (ends : EndsWithNumber ending value) :
    value ≤ 99 := by
  cases ends with
  | digit ones => exact Nat.le_trans (Nat.le_of_lt ones.1) (by decide)
  | digits tens ones =>
      have first := tens.1
      have second := ones.1
      omega
  | plus ones => exact Nat.le_trans (Nat.le_of_lt ones.1) (by decide)

theorem ofDigits_pair (tens ones : Nat) : Nat.ofDigits 10 [ones, tens] = tens * 10 + ones := by
  rw [Nat.ofDigits_cons, Nat.ofDigits_singleton]
  exact (Nat.add_comm _ _).trans (congrArg (· + ones) (Nat.mul_comm _ _))

theorem endsWithNumber_of_writes {digits : List Char} {value : Nat} (short : digits.length ≤ 2)
    (writes : Writes 10 digits value) : EndsWithNumber digits value := by
  obtain ⟨nonempty, values, each, rfl⟩ := writes
  cases each with
  | nil => exact absurd rfl nonempty
  | cons first others =>
      cases others with
      | nil => simpa using EndsWithNumber.digit first
      | cons second none =>
          cases none with
          | nil =>
              rw [List.reverse_cons, List.reverse_singleton, List.singleton_append, ofDigits_pair]
              exact .digits first second
          | cons => simp at short

/-- The characters at the end write a number when they are a magnitude of the radix ten. -/
theorem magnitude_iff_endsWithNumber {ending : List Char} (short : ending.length ≤ 2)
    {value : Nat} : Magnitude 10 ending value ↔ EndsWithNumber ending value := by
  constructor
  · intro magnitude
    cases magnitude with
    | bare writes => exact endsWithNumber_of_writes short writes
    | @plus digits _ writes =>
        have few : digits.length ≤ 1 := Nat.le_of_succ_le_succ short
        cases endsWithNumber_of_writes (Nat.le_succ_of_le few) writes with
        | digit ones => exact .plus ones
        | digits => simp at few
        | plus => simp at few
  · intro ends
    cases ends with
    | digit ones => exact .bare ⟨by simp, [_], .cons ones .nil, by simp⟩
    | digits tens ones =>
        exact .bare ⟨by simp, [_, _], .cons tens (.cons ones .nil), (ofDigits_pair _ _).symm⟩
    | plus ones => exact .plus ⟨by simp, [_], .cons ones .nil, by simp⟩

/-- Where the last characters write a number, this is the width. -/
theorem endingWidth_of_endsWithNumber {ending : List Char} (short : ending.length ≤ 2) {value : Nat}
    (ends : EndsWithNumber ending value) : (endingWidth ending).toNat = value := by
  have read := signed?_eq_some_iff.2 ((magnitude_iff_endsWithNumber short).2 ends)
  rw [endingWidth, read]
  exact UInt8.toNat_ofNat_of_lt' (Nat.lt_of_le_of_lt ends.le (by decide))

/-- Where they do not, the width is the usual one. -/
theorem endingWidth_of_not_endsWithNumber {ending : List Char} (short : ending.length ≤ 2)
    (ends : ∀ value, ¬ EndsWithNumber ending value) : endingWidth ending = 32 := by
  have unread : signed? 10 ending = none := by
    refine Option.eq_none_iff_forall_ne_some.2 fun value read => ends value ?_
    exact (magnitude_iff_endsWithNumber short).1 (signed?_eq_some_iff.1 read)
  rw [endingWidth, unread]
  rfl

theorem endingWidth_le {ending : List Char} (short : ending.length ≤ 2) :
    (endingWidth ending).toNat ≤ 99 := by
  by_cases ends : ∃ value, EndsWithNumber ending value
  · obtain ⟨value, ends⟩ := ends
    rw [endingWidth_of_endsWithNumber short ends]
    exact ends.le
  · rw [endingWidth_of_not_endsWithNumber short (not_exists.1 ends)]
    decide

/-! ## The characters of a mnemonic from its end -/

theorem endsIn_iff {name ending : String} :
    EndsIn name ending ↔ ending.toList.reverse <+: name.toList.reverse :=
  List.reverse_prefix.symm

theorem lastTwo_eq (name : String) : lastTwo name = (name.toList.reverse.take 2).reverse := by
  rw [lastTwo, List.take_reverse, List.reverse_reverse]

theorem widthFromEnd_of_not_eight {characters : List Char} (apart : ¬ ['8'] <+: characters) :
    widthFromEnd characters = endingWidth (characters.take 2).reverse := by
  unfold widthFromEnd
  split
  next rest => exact absurd (List.prefix_append ['8'] _) apart
  next rest => exact absurd (List.prefix_append ['8'] _) apart
  next rest => exact absurd (List.prefix_append ['8'] _) apart
  next last previous rest _ _ _ => rfl
  next ending _ _ _ short =>
    cases characters with
    | nil => rfl
    | cons last front =>
        cases front with
        | nil => rfl
        | cons previous rest => exact absurd rfl (short last previous rest)

theorem widthFromEnd_of_eight {front : List Char} (notQuad : ¬ ['2', '1'] <+: front)
    (notOdd : ¬ ['4'] <+: front) : widthFromEnd ('8' :: front) = 8 := by
  unfold widthFromEnd
  split
  next rest same =>
    cases same
    exact absurd (List.prefix_append ['2', '1'] _) notQuad
  next rest same =>
    cases same
    exact absurd (List.prefix_append ['4'] _) notOdd
  next => rfl
  next last previous rest _ _ notEight same =>
    cases same
    exact (notEight rfl).elim
  next notEight _ => exact (notEight _ rfl).elim

/-- What the characters from the end on tell, by the endings that are tried. -/
theorem widthFromEnd_eq (characters : List Char) :
    widthFromEnd characters =
      if ['8', '2', '1'] <+: characters then 128
      else if ['8', '4'] <+: characters then 48
      else if ['8'] <+: characters then 8
      else endingWidth (characters.take 2).reverse := by
  by_cases eight : ['8'] <+: characters
  · obtain ⟨front, rfl⟩ := eight
    rw [List.singleton_append]
    simp only [List.cons_prefix_cons, true_and, List.nil_prefix, if_true]
    split
    next quad =>
      obtain ⟨rest, rfl⟩ := quad
      rfl
    next notQuad =>
      split
      next odd =>
        obtain ⟨rest, rfl⟩ := odd
        rfl
      next notOdd => exact widthFromEnd_of_eight notQuad notOdd
  · have apart : ∀ rest, ¬ '8' :: rest <+: characters := fun rest here =>
      eight ((List.prefix_append ['8'] rest).trans here)
    rw [if_neg (apart _), if_neg (apart _), if_neg eight]
    exact widthFromEnd_of_not_eight eight

/-! ## The rules -/

/-- The width depends on the last three characters only. -/
theorem width_append (front : String) {ending : String} (long : 3 ≤ ending.length) :
    width (front ++ ending) = width ending := by
  have reversed : 3 ≤ ending.toList.reverse.length := by
    rwa [List.length_reverse, String.length_toList]
  have same : ∀ start : List Char, start.length ≤ 3 →
      (start <+: ending.toList.reverse ++ front.toList.reverse ↔
        start <+: ending.toList.reverse) :=
    fun start short => List.isPrefix_append_of_length (Nat.le_trans short reversed)
  rw [width, width, String.toList_append, List.reverse_append, widthFromEnd_eq, widthFromEnd_eq]
  simp only [same ['8', '2', '1'] (by decide), same ['8', '4'] (by decide), same ['8'] (by decide),
    List.take_append_of_le_length (Nat.le_of_succ_le reversed)]

theorem width_eq_endingWidth {name : String} (apart : ¬ EndsIn name "8") :
    width name = endingWidth (lastTwo name) := by
  rw [endsIn_iff] at apart
  rw [width, lastTwo_eq]
  exact widthFromEnd_of_not_eight apart

theorem length_lastTwo_le (name : String) : (lastTwo name).length ≤ 2 := by
  rw [lastTwo, List.length_drop]
  omega

/-- Every mnemonic tells its width by the rules. -/
theorem widthRules (name : String) : WidthRules name := by
  have whole := widthFromEnd_eq name.toList.reverse
  have quad : EndsIn name "128" → width name = 128 := fun ends =>
    whole.trans (if_pos (endsIn_iff.1 ends))
  have odd : EndsIn name "48" → width name = 48 := by
    intro ends
    obtain ⟨front, same⟩ := endsIn_iff.1 ends
    rw [width, ← same]
    rfl
  have byte : EndsIn name "8" → ¬ EndsIn name "128" → ¬ EndsIn name "48" → width name = 8 := by
    intro ends notQuad notOdd
    rw [endsIn_iff] at ends notQuad notOdd
    exact whole.trans ((if_neg notQuad).trans ((if_neg notOdd).trans (if_pos ends)))
  refine ⟨quad, odd, byte, ?_, ?_, ?_⟩
  · intro apart value ends
    rw [width_eq_endingWidth apart]
    exact endingWidth_of_endsWithNumber (length_lastTwo_le name) ends
  · intro apart ends
    rw [width_eq_endingWidth apart]
    exact endingWidth_of_not_endsWithNumber (length_lastTwo_le name) ends
  · by_cases ends : EndsIn name "8"
    · by_cases isQuad : EndsIn name "128"
      · exact .inl (quad isQuad)
      · right
        by_cases isOdd : EndsIn name "48"
        · rw [odd isOdd]
          decide
        · rw [byte ends isQuad isOdd]
          decide
    · right
      rw [width_eq_endingWidth ends]
      exact endingWidth_le (length_lastTwo_le name)

end InstructionSet.Mnemonic
