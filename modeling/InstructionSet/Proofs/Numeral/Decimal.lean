import InstructionSet.Proofs.Numeral.Grammar

/-!
# Decimal numerals

A number that is written in decimal digits, without a radix mark, is read back as itself: by every
reading that its value is in the range of.
-/

namespace InstructionSet.Numeral

open InstructionSet.Text InstructionSet.Scanner

set_option autoImplicit false

theorem digit?_of_isDigit {c : Char} (digit : c.isDigit = true) :
    digit? 10 c = some (c.toNat - '0'.toNat) := by
  have bounds : '0' ≤ c ∧ c ≤ '9' := by
    simp only [Char.isDigit, Bool.and_eq_true, decide_eq_true_eq] at digit
    exact digit
  have upper : c.toNat ≤ 57 := bounds.2
  simp only [digit?, bounds, and_self, if_true, Char.reduceToNat, Option.filter]
  rw [if_pos (by simp; omega)]

theorem valueAfter_digits {digits : List Char} (all : ∀ c ∈ digits, c.isDigit = true)
    (value : Nat) : valueAfter 10 value digits = some (Nat.ofDigitChars 10 digits value) := by
  induction digits generalizing value with
  | nil => rfl
  | cons c digits ih =>
      have rest := ih (fun d member => all d (List.mem_cons_of_mem _ member))
      rw [valueAfter, digit?_of_isDigit (all c List.mem_cons_self), Option.bind_some, rest,
        Nat.ofDigitChars_cons, Nat.mul_comm]

theorem writes_toDigits (number : Nat) : Writes 10 (Nat.toDigits 10 number) number := by
  have all : ∀ c ∈ Nat.toDigits 10 number, c.isDigit = true := fun c member =>
    Nat.isDigit_of_mem_toDigits (by decide) (by decide) member
  have read := valueAfter_digits all 0
  rw [Nat.ofDigitChars_ten_toDigits] at read
  obtain ⟨c, rest, digits⟩ := List.exists_cons_of_ne_nil (@Nat.toDigits_ne_nil number 10)
  rw [digits] at read ⊢
  exact value?_eq_some_iff.1 read

/-- The decimal digits of a number are a numeral of its value. -/
theorem value_toString {number : Nat} (fits : number < UInt64.size) :
    value (toString number) = .ok number := by
  have writes := writes_toDigits number
  have digit : ∀ c ∈ Nat.toDigits 10 number, ∃ value, Digit 10 c value := fun c member =>
    isDigit_iff.1 (isDigit_ten (Nat.isDigit_of_mem_toDigits (by decide) (by decide) member))
  have plain : (Nat.toDigits 10 number).filter (· ≠ '_') = Nat.toDigits 10 number := by
    refine List.filter_eq_self.2 fun c member => decide_eq_true ?_
    rintro rfl
    obtain ⟨value, underscore⟩ := digit '_' member
    exact absurd (mem_of_digit underscore) (by decide)
  have unsigned : Unsigned (toString number).toList 10 (Nat.toDigits 10 number) := by
    have characters := @unsigned_of_characters [] (Nat.toDigits 10 number) [] [] 10
      List.mem_cons_self writes.1 (fun c member => .inl (digit c member))
      (List.forall_mem_nil _) (List.forall_mem_nil _)
    rw [Nat.toString_eq_ofList_toDigits, String.toList_ofList]
    simpa using characters
  exact value_of_reads (.number unsigned (.bare (plain.symm ▸ writes)) fits)

theorem below_toString {number bound : Nat} (small : number < bound) (fits : bound ≤ UInt64.size) :
    below bound (toString number) = .ok number := by
  rw [below, value_toString (Nat.lt_of_lt_of_le small fits)]
  show (if number < bound then _ else _ : Except NumeralError Nat) = _
  rw [if_pos small]
  rfl

theorem word32_toString (word : UInt32) : word32 (toString word.toNat) = .ok word := by
  rw [word32, below_toString word.toNat_lt (by decide)]
  exact congrArg Except.ok (UInt32.ofNat_toNat)

theorem byte_toString (byte : UInt8) : Numeral.byte (toString byte.toNat) = .ok byte := by
  rw [Numeral.byte, below_toString byte.toNat_lt (by decide)]
  exact congrArg Except.ok (UInt8.ofNat_toNat)

end InstructionSet.Numeral
