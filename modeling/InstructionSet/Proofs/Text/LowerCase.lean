import InstructionSet.Text.Alphabetic
import InstructionSet.Text.LowerCase

/-!
# Text without capitals

A character is settled when lower case leaves it as it is wherever it stands. The lower case of any
text is made of settled characters (`settled_of_mem_lowerCase`), and a text that is made of them is
its own lower case (`lowerCase_of_settled`). The lower case starts with a letter when the text does
(`exists_lowerCase_cons_of_isAlphabetic`).

Both rest on the tables: no small letter is a capital itself, and all of them are alphabetic. A set
of code points is written for this as a number that has the bits of its members. The tables then are
compared at one stroke, by the bitwise conjunction of two numbers.
-/

namespace InstructionSet.Text

set_option autoImplicit false

/-! ## Sets of code points as numbers -/

/-- The first terms of the arithmetic progression from zero on, as the bits of a number. -/
def progression (step : Nat) : (count : Nat) → Nat
  | 0 => 0
  | count + 1 => progression step count <<< step ||| 1

theorem testBit_progression {step count term : Nat} (inside : term < count) :
    (progression step count).testBit (term * step) = true := by
  induction count generalizing term with
  | zero => exact absurd inside (Nat.not_lt_zero term)
  | succ count ih =>
      rw [progression, Nat.testBit_or, Nat.testBit_shiftLeft]
      cases term with
      | zero => simp
      | succ term =>
          have further : term < count := Nat.lt_of_succ_lt_succ inside
          have above : step ≤ (term + 1) * step := Nat.le_mul_of_pos_left step term.succ_pos
          rw [decide_eq_true above, Nat.succ_mul, Nat.add_sub_cancel, ih further]
          rfl

/-- The numbers from the first to the last of a range, as the bits of a number. -/
def CodeRange.bits (range : CodeRange) : Nat :=
  (1 <<< (range.2 + 1 - range.1) - 1) <<< range.1

theorem CodeRange.holds_of_testBit {range : CodeRange} {code : Nat}
    (listed : range.bits.testBit code = true) : range.holds code = true := by
  rw [bits, Nat.testBit_shiftLeft, Bool.and_eq_true, Nat.one_shiftLeft,
    Nat.testBit_two_pow_sub_one, decide_eq_true_iff, decide_eq_true_iff] at listed
  rw [holds, Bool.and_eq_true, decide_eq_true_iff, decide_eq_true_iff]
  omega

/-- The members of all sets. -/
def union (sets : List Nat) : Nat :=
  sets.foldr (· ||| ·) 0

theorem testBit_union_iff {sets : List Nat} {code : Nat} :
    (union sets).testBit code = true ↔ ∃ set ∈ sets, set.testBit code = true := by
  induction sets with
  | nil => simp [union]
  | cons set rest ih =>
      rw [union, List.foldr_cons, ← union, Nat.testBit_or, Bool.or_eq_true, ih]
      simp only [List.mem_cons, or_and_right, exists_or, exists_eq_left]

/-! ## The tables -/

/-- The number of capitals in a run. -/
def CapitalRun.count (run : CapitalRun) : Nat :=
  (run.last - run.first) / run.step + 1

/-- The capitals that have a single small letter. -/
def capitals : Nat :=
  union (capitalRuns.map fun run => progression run.step run.count <<< run.first)

/-- Their small letters. -/
def smallLetters : Nat :=
  union (capitalRuns.map fun run => progression run.step run.count <<< run.small)

/-- The alphabetic code points. -/
def letters : Nat :=
  union (alphabeticRanges.map (·.bits))

theorem capitals_and_smallLetters : capitals &&& smallLetters = 0 := by
  decide +kernel

theorem smallLetters_and_letters : smallLetters &&& letters = smallLetters := by
  decide +kernel

/-- Small letters are code points of characters, stand behind all ASCII punctuation in the table of
characters, and are not the dotted capital I. -/
theorem bounds_of_mem_capitalRuns : ∀ run ∈ capitalRuns,
    0x60 < run.small ∧
    (run.small + (run.last - run.first) < 0x130 ∨ 0x130 < run.small) ∧
    (run.small + (run.last - run.first) < 0xD800 ∨ 0xE000 ≤ run.small) ∧
    run.small + (run.last - run.first) < 0x110000 := by
  decide +kernel

section Runs

variable {run : CapitalRun} {code small : Nat}

theorem le_of_small? (found : run.small? code = some small) :
    run.small ≤ small ∧ small ≤ run.small + (run.last - run.first) := by
  rw [CapitalRun.small?, Option.ite_none_right_eq_some] at found
  obtain ⟨⟨-, below, -⟩, same⟩ := found
  cases same
  omega

/-- A capital and its small letter are at the same place of their progressions. -/
theorem exists_term_of_small? (found : run.small? code = some small) :
    ∃ term < run.count, code = run.first + term * run.step ∧
      small = run.small + term * run.step := by
  rw [CapitalRun.small?, Option.ite_none_right_eq_some] at found
  obtain ⟨⟨above, below, divides⟩, same⟩ := found
  cases same
  have term : (code - run.first) / run.step * run.step = code - run.first :=
    Nat.div_mul_cancel (Nat.dvd_of_mod_eq_zero divides)
  refine ⟨(code - run.first) / run.step, ?_, ?_, ?_⟩
  · exact Nat.lt_succ_of_le (Nat.div_le_div_right (Nat.sub_le_sub_right below run.first))
  · rw [term, Nat.add_sub_cancel' above]
  · rw [term]

variable (member : run ∈ capitalRuns)
include member

theorem testBit_capitals (found : run.small? code = some small) : capitals.testBit code = true := by
  obtain ⟨term, inside, rfl, -⟩ := exists_term_of_small? found
  refine testBit_union_iff.2 ⟨_, List.mem_map_of_mem member, ?_⟩
  rw [Nat.testBit_shiftLeft, Nat.add_sub_cancel_left, testBit_progression inside,
    decide_eq_true (Nat.le_add_right _ _)]
  rfl

theorem testBit_smallLetters (found : run.small? code = some small) :
    smallLetters.testBit small = true := by
  obtain ⟨term, inside, -, rfl⟩ := exists_term_of_small? found
  refine testBit_union_iff.2 ⟨_, List.mem_map_of_mem member, ?_⟩
  rw [Nat.testBit_shiftLeft, Nat.add_sub_cancel_left, testBit_progression inside,
    decide_eq_true (Nat.le_add_right _ _)]
  rfl

/-- A small letter is no capital. -/
theorem findSome?_small (found : run.small? code = some small) :
    capitalRuns.findSome? (·.small? small) = none := by
  rw [List.findSome?_eq_none_iff]
  intro other among
  cases again : other.small? small with
  | none => rfl
  | some smaller =>
      have both : (capitals &&& smallLetters).testBit small = true := by
        rw [Nat.testBit_and, testBit_capitals among again, testBit_smallLetters member found]
        rfl
      rw [capitals_and_smallLetters, Nat.zero_testBit] at both
      cases both

theorem toNat_small (found : run.small? code = some small) : (Char.ofNat small).toNat = small := by
  obtain ⟨above, below⟩ := le_of_small? found
  obtain ⟨-, -, surrogates, valid⟩ := bounds_of_mem_capitalRuns run member
  have isChar : small.isValidChar := by
    unfold Nat.isValidChar
    omega
  rw [Char.ofNat, dif_pos isChar]
  rfl

theorem isAlphabetic_small (found : run.small? code = some small) :
    isAlphabetic (Char.ofNat small) = true := by
  have letter : letters.testBit small = true := by
    have both := testBit_smallLetters member found
    rw [← smallLetters_and_letters, Nat.testBit_and, Bool.and_eq_true] at both
    exact both.2
  obtain ⟨set, listed, holds⟩ := testBit_union_iff.1 letter
  obtain ⟨range, among, rfl⟩ := List.mem_map.1 listed
  refine List.any_eq_true.2 ⟨range, among, ?_⟩
  rw [toNat_small member found]
  exact CodeRange.holds_of_testBit holds

end Runs

/-! ## Settled characters -/

/-- Lower case leaves the character as it is, whatever stands around it. -/
def Settled (c : Char) : Prop :=
  lowerCaseOf c = [c] ∧ c ≠ 'Σ'

instance : DecidablePred Settled :=
  fun c => inferInstanceAs (Decidable (lowerCaseOf c = [c] ∧ c ≠ 'Σ'))

theorem settled_of_findSome? {c : Char} (notDotted : c ≠ 'İ')
    (none : capitalRuns.findSome? (·.small? c.toNat) = none) : Settled c := by
  constructor
  · rw [lowerCaseOf, if_neg notDotted, none]
  · rintro rfl
    exact absurd none (by decide)

theorem settled_smallSigma (before after : List Char) : Settled (smallSigma before after) := by
  unfold smallSigma
  split
  · decide
  · decide

/-- A character is lowered to itself, to the small letter that its run gives it, or, when it is the
dotted capital, to a small i with a dot above. -/
theorem lowerCaseOf_cases (c : Char) :
    (lowerCaseOf c = [c] ∧ capitalRuns.findSome? (·.small? c.toNat) = none ∧ c ≠ 'İ') ∨
    (∃ run ∈ capitalRuns, ∃ small, run.small? c.toNat = some small ∧
      lowerCaseOf c = [Char.ofNat small]) ∨
    lowerCaseOf c = ['i', '\u0307'] := by
  by_cases dotted : c = 'İ'
  · exact .inr (.inr (by rw [lowerCaseOf, if_pos dotted]))
  · cases found : capitalRuns.findSome? (·.small? c.toNat) with
    | none => exact .inl ⟨by rw [lowerCaseOf, if_neg dotted, found], rfl, dotted⟩
    | some small =>
        obtain ⟨run, member, gives⟩ := List.exists_of_findSome?_eq_some found
        exact .inr (.inl ⟨run, member, small, gives, by rw [lowerCaseOf, if_neg dotted, found]⟩)

theorem settled_small {run : CapitalRun} {code small : Nat} (member : run ∈ capitalRuns)
    (found : run.small? code = some small) : Settled (Char.ofNat small) := by
  have code := toNat_small member found
  refine settled_of_findSome? ?_ ?_
  · intro dotted
    obtain ⟨above, below⟩ := le_of_small? found
    obtain ⟨-, apart, -⟩ := bounds_of_mem_capitalRuns run member
    have same : small = 0x130 := by rw [← code, dotted]; rfl
    omega
  · rw [code]
    exact findSome?_small member found

/-- What a character is lowered to is settled. -/
theorem settled_of_mem_lowerCaseOf {c lowered : Char} (member : lowered ∈ lowerCaseOf c) :
    Settled lowered := by
  rcases lowerCaseOf_cases c with ⟨same, none, notDotted⟩ | ⟨run, among, small, found, same⟩ | same
  · rw [same, List.mem_singleton] at member
    rw [member]
    exact settled_of_findSome? notDotted none
  · rw [same, List.mem_singleton] at member
    rw [member]
    exact settled_small among found
  · rw [same, List.mem_cons, List.mem_singleton] at member
    rcases member with rfl | rfl
    · decide
    · decide

/-! ## The lower case of a text -/

/-- What is in the lower case of a text is a small sigma, or is one of its characters lowered. -/
theorem exists_of_mem_lowerCaseAfter {before text : List Char} {lowered : Char}
    (member : lowered ∈ lowerCaseAfter before text) :
    (∃ front behind, lowered = smallSigma front behind) ∨
      ∃ c ∈ text, lowered ∈ lowerCaseOf c := by
  induction text generalizing before with
  | nil => cases member
  | cons c rest ih =>
      rw [lowerCaseAfter] at member
      rcases List.mem_append.1 member with here | later
      · split at here
        · exact .inl ⟨before, rest, List.mem_singleton.1 here⟩
        · exact .inr ⟨c, List.mem_cons_self, here⟩
      · refine (ih later).imp_right ?_
        rintro ⟨other, among, lowers⟩
        exact ⟨other, List.mem_cons_of_mem _ among, lowers⟩

/-- The lower case of a text has no capitals. -/
theorem settled_of_mem_lowerCase {text : List Char} {lowered : Char}
    (member : lowered ∈ lowerCase text) : Settled lowered := by
  rcases exists_of_mem_lowerCaseAfter member with ⟨front, behind, rfl⟩ | ⟨c, -, lowers⟩
  · exact settled_smallSigma front behind
  · exact settled_of_mem_lowerCaseOf lowers

theorem lowerCaseAfter_of_settled {before text : List Char} (settled : ∀ c ∈ text, Settled c) :
    lowerCaseAfter before text = text := by
  induction text generalizing before with
  | nil => rfl
  | cons c rest ih =>
      obtain ⟨⟨same, notSigma⟩, others⟩ := List.forall_mem_cons.1 settled
      rw [lowerCaseAfter, if_neg notSigma, same, ih others]
      rfl

theorem lowerCase_of_settled {text : List Char} (settled : ∀ c ∈ text, Settled c) :
    lowerCase text = text :=
  lowerCaseAfter_of_settled settled

/-- The lower case of a text that starts with a letter starts with a letter. -/
theorem exists_lowerCase_cons_of_isAlphabetic {c : Char} (letter : isAlphabetic c = true)
    (rest : List Char) :
    ∃ first others, lowerCase (c :: rest) = first :: others ∧ isAlphabetic first = true := by
  rw [lowerCase, lowerCaseAfter]
  split
  · refine ⟨_, _, rfl, ?_⟩
    unfold smallSigma
    split
    · decide +kernel
    · decide +kernel
  · rcases lowerCaseOf_cases c with ⟨same, -, -⟩ | ⟨run, among, small, found, same⟩ | same
    · exact ⟨c, _, by rw [same]; rfl, letter⟩
    · exact ⟨Char.ofNat small, _, by rw [same]; rfl, isAlphabetic_small among found⟩
    · exact ⟨'i', _, by rw [same]; rfl, by decide +kernel⟩

end InstructionSet.Text
