import Mathlib.Data.List.TakeWhile
import InstructionSet.Proofs.Token.Spelling

/-!
# The grammar of numerals

What any text at all is read as is said here without a reader (`Numeral.Reads`). White space around
the text does not count. Nothing between it, and a minus sign in front, are faults of their own.
Otherwise the radix mark in front is left out, if there is one, and then all underscores; an
optional plus sign and one or more digits of the radix must remain, with a number that fits 64 bits.
Every other text is malformed, and the fault shows what stands behind the mark.

Reading a numeral comes to just that (`word64_reads`). So a number is read back from all its
spellings: in each of the radixes, in either case, with zeros in front, with underscores anywhere
behind the mark, and with white space around it.
-/

namespace InstructionSet.Numeral

open InstructionSet.Text InstructionSet.Scanner

set_option autoImplicit false

/-! ## White space around a text -/

/-- A text with white space around it, which itself has none at its ends. -/
structure Trims (text core : List Char) : Prop where
  /-- There is white space in front and behind. -/
  within : ∃ before after, text = before ++ (core ++ after) ∧
    (∀ c ∈ before, isWhiteSpace c = true) ∧ ∀ c ∈ after, isWhiteSpace c = true
  /-- The first character is no white space. -/
  front : ∀ c ∈ core.head?, isWhiteSpace c = false
  /-- The last character is no white space. -/
  back : ∀ c ∈ core.getLast?, isWhiteSpace c = false

theorem dropWhile_of_front {text : List Char} (front : ∀ c ∈ text.head?, isWhiteSpace c = false) :
    text.dropWhile isWhiteSpace = text := by
  cases text with
  | nil => rfl
  | cons c rest => exact List.dropWhile_cons_of_neg (by simp [front c rfl])

theorem trim_of_trims {text core : List Char} (trims : Trims text core) : trim text = core := by
  obtain ⟨⟨before, after, rfl, blank, blank'⟩, front, back⟩ := trims
  rw [trim, List.dropWhile_append_of_pos blank]
  by_cases nothing : core = []
  · subst nothing
    rw [List.nil_append, List.dropWhile_eq_nil_iff.2 blank']
    rfl
  · have first : ∀ c ∈ (core ++ after).head?, isWhiteSpace c = false := by
      rwa [List.head?_append_of_ne_nil core nothing]
    have last : ∀ c ∈ core.reverse.head?, isWhiteSpace c = false := by
      rwa [List.head?_reverse]
    have behind : ∀ c ∈ after.reverse, isWhiteSpace c = true := fun c member =>
      blank' c (List.mem_reverse.1 member)
    rw [dropWhile_of_front first, List.reverse_append, List.dropWhile_append_of_pos behind,
      dropWhile_of_front last, List.reverse_reverse]

theorem front_dropWhile (text : List Char) :
    ∀ c ∈ (text.dropWhile isWhiteSpace).head?, isWhiteSpace c = false := by
  intro c first
  have apart := List.head?_dropWhile_not isWhiteSpace text
  rw [Option.mem_def.1 first] at apart
  exact apart

/-- Trimming takes off the white space around a text. -/
theorem trims_trim (text : List Char) : Trims text (trim text) := by
  have front := List.takeWhile_append_dropWhile (p := isWhiteSpace) (l := text)
  have back := congrArg List.reverse (List.takeWhile_append_dropWhile (p := isWhiteSpace)
    (l := (text.dropWhile isWhiteSpace).reverse))
  rw [List.reverse_append, List.reverse_reverse] at back
  constructor
  · refine ⟨text.takeWhile isWhiteSpace, _, (front.symm.trans (congrArg _ back.symm)), ?_, ?_⟩
    · exact fun c member => List.mem_takeWhile_imp member
    · exact fun c member => List.mem_takeWhile_imp (List.mem_reverse.1 member)
  · intro c first
    refine front_dropWhile text c ?_
    rw [← back]
    exact List.mem_head?_append_of_mem_head? first
  · intro c last
    rw [trim, List.getLast?_reverse] at last
    exact front_dropWhile _ c last

/-! ## Unsigned numerals -/

/-- Digits that write a number, with an optional plus sign in front. -/
inductive Magnitude (radix : Nat) : List Char → Nat → Prop where
  /-- Digits alone. -/
  | bare {digits : List Char} {number : Nat} (writes : Writes radix digits number) :
      Magnitude radix digits number
  /-- Digits behind a plus sign. -/
  | plus {digits : List Char} {number : Nat} (writes : Writes radix digits number) :
      Magnitude radix ('+' :: digits) number

theorem signed?_eq_some_iff {radix : Nat} {text : List Char} {number : Nat} :
    signed? radix text = some number ↔ Magnitude radix text number := by
  constructor
  · intro read
    unfold signed? at read
    split at read
    next => exact .plus (value?_eq_some_iff.1 read)
    next => exact .bare (value?_eq_some_iff.1 read)
  · intro magnitude
    unfold signed?
    split
    next digits =>
      cases magnitude with
      | bare writes =>
          obtain ⟨-, values, each, -⟩ := writes
          cases each with
          | cons first others => exact absurd (mem_of_digit first) (by decide)
      | plus writes => exact value?_eq_some_iff.2 writes
    next notPlus =>
      cases magnitude with
      | bare writes => exact value?_eq_some_iff.2 writes
      | plus writes => exact absurd rfl (notPlus _)

theorem Magnitude.unique {radix number other : Nat} {text : List Char}
    (magnitude : Magnitude radix text number) (again : Magnitude radix text other) :
    number = other :=
  Option.some.inj ((signed?_eq_some_iff.2 magnitude).symm.trans (signed?_eq_some_iff.2 again))

/-- A trimmed text that is neither empty nor negative, split behind its mark. -/
structure Unsigned (text : List Char) (radix : Nat) (behind : List Char) : Prop where
  /-- Something is left between white space, without a minus sign in front, and with a mark of the
  radix unless this is ten. -/
  exists_core : ∃ core mark, Trims text core ∧ (∃ c ∈ core.head?, c ≠ '-') ∧
    Marked core mark radix behind

/-- What a text is read as. -/
inductive Reads (text : List Char) : Except NumeralError Nat → Prop where
  /-- Nothing is left between white space. -/
  | empty (nothing : Trims text []) : Reads text (.error .empty)
  /-- What is left starts with a minus sign. -/
  | negative {rest : List Char} (minus : Trims text ('-' :: rest)) : Reads text (.error .negative)
  /-- Behind its mark, and without underscores, the text writes a number of 64 bits. -/
  | number {radix number : Nat} {behind : List Char} (unsigned : Unsigned text radix behind)
      (magnitude : Magnitude radix (behind.filter (· ≠ '_')) number) (fits : number < UInt64.size) :
      Reads text (.ok number)
  /-- It writes no number of 64 bits. -/
  | malformed {radix : Nat} {behind : List Char} (unsigned : Unsigned text radix behind)
      (none : ∀ number, Magnitude radix (behind.filter (· ≠ '_')) number → UInt64.size ≤ number) :
      Reads text (.error (.malformed (String.ofList behind)))

theorem unsigned_eq_ok {core mark behind : List Char} {radix number : Nat}
    (marked : Marked core mark radix behind)
    (magnitude : Magnitude radix (behind.filter (· ≠ '_')) number) (fits : number < UInt64.size) :
    unsigned core = .ok number := by
  simp only [unsigned, splitRadix_of_marked marked, signed?_eq_some_iff.2 magnitude, Option.filter,
    decide_eq_true fits, if_true]

theorem unsigned_eq_malformed {core mark behind : List Char} {radix : Nat}
    (marked : Marked core mark radix behind)
    (none : ∀ number, Magnitude radix (behind.filter (· ≠ '_')) number → UInt64.size ≤ number) :
    unsigned core = .error (.malformed (String.ofList behind)) := by
  have nothing : (signed? radix (behind.filter (· ≠ '_'))).filter (· < UInt64.size) = .none := by
    rw [Option.filter_eq_none_iff]
    intro number read fits
    exact Nat.not_lt.2 (none number (signed?_eq_some_iff.1 read)) (of_decide_eq_true fits)
  simp only [unsigned, splitRadix_of_marked marked, nothing]

theorem value_of_unsigned {numeral : String} {radix : Nat} {behind : List Char}
    (unsigned : Unsigned numeral.toList radix behind) :
    ∃ core mark, Marked core mark radix behind ∧ value numeral = Numeral.unsigned core := by
  obtain ⟨core, mark, trims, ⟨c, first, notMinus⟩, marked⟩ := unsigned.exists_core
  refine ⟨core, mark, marked, ?_⟩
  unfold value
  rw [trim_of_trims trims]
  split
  next => cases first
  next => exact absurd (Option.some.inj first).symm notMinus
  next => rfl

theorem value_of_reads {numeral : String} {result : Except NumeralError Nat}
    (reads : Reads numeral.toList result) : value numeral = result := by
  cases reads with
  | empty nothing =>
      unfold value
      rw [trim_of_trims nothing]
  | negative minus =>
      unfold value
      rw [trim_of_trims minus]
      rfl
  | number unsigned magnitude fits =>
      obtain ⟨core, mark, marked, same⟩ := value_of_unsigned unsigned
      rw [same, unsigned_eq_ok marked magnitude fits]
  | malformed unsigned none =>
      obtain ⟨core, mark, marked, same⟩ := value_of_unsigned unsigned
      rw [same, unsigned_eq_malformed marked none]

/-- Every text is read as something. -/
theorem exists_reads (text : List Char) : ∃ result, Reads text result := by
  have trims := trims_trim text
  cases core : trim text with
  | nil => exact ⟨_, .empty (core ▸ trims)⟩
  | cons c rest =>
      rw [core] at trims
      by_cases minus : c = '-'
      · subst minus
        exact ⟨_, .negative trims⟩
      · obtain ⟨mark, radix, behind, marked⟩ := exists_marked (c :: rest)
        have unsigned : Unsigned text radix behind := ⟨_, mark, trims, ⟨c, rfl, minus⟩, marked⟩
        by_cases found : ∃ number, Magnitude radix (behind.filter (· ≠ '_')) number ∧
            number < UInt64.size
        · obtain ⟨number, magnitude, fits⟩ := found
          exact ⟨_, .number unsigned magnitude fits⟩
        · refine ⟨_, .malformed unsigned fun number magnitude => Nat.not_lt.1 fun fits => ?_⟩
          exact found ⟨number, magnitude, fits⟩

/-- Reading a numeral comes to what the grammar says. -/
theorem value_eq_iff {numeral : String} {result : Except NumeralError Nat} :
    value numeral = result ↔ Reads numeral.toList result := by
  refine ⟨fun same => ?_, value_of_reads⟩
  obtain ⟨found, reads⟩ := exists_reads numeral.toList
  rwa [← same, value_of_reads reads]

theorem value_lt {numeral : String} {number : Nat} (read : value numeral = .ok number) :
    number < UInt64.size := by
  cases value_eq_iff.1 read with
  | number unsigned magnitude fits => exact fits

/-- The value of a word is the value that is read. -/
theorem toNat_word64 (numeral : String) : UInt64.toNat <$> word64 numeral = value numeral := by
  rw [word64]
  cases read : value numeral with
  | error fault => rfl
  | ok number =>
      show Except.ok (UInt64.ofNat number).toNat = _
      rw [UInt64.toNat_ofNat', Nat.mod_eq_of_lt (value_lt read)]

/-! ## Spellings of a number -/

/-- A number is written by its digits with zeros in front. -/
theorem writes_of_digits {radix zeros number : Nat} {digits : List Char} (some : digits ≠ [])
    (each : List.Forall₂ (Digit radix) digits
      (List.replicate zeros 0 ++ (Nat.digits radix number).reverse)) :
    Writes radix digits number := by
  refine ⟨some, _, each, ?_⟩
  rw [List.reverse_append, List.reverse_reverse, List.reverse_replicate,
    Nat.ofDigits_append_replicate_zero, Nat.ofDigits_digits]

/-- The characters of a radix mark and of the body behind it all continue an identifier. -/
theorem continues_of_characters {mark body : List Char} {radix : Nat}
    (selects : (mark, radix) ∈ ([], 10) :: marks)
    (characters : ∀ c ∈ body, (∃ value, Digit radix c value) ∨ c = '_') :
    ∀ c ∈ mark ++ body, continuesIdentifier c = true := by
  intro c member
  rcases List.mem_append.1 member with inMark | inBody
  · rcases List.mem_cons.1 selects with plain | listed
    · rw [(Prod.mk.inj plain).1] at inMark
      cases inMark
    · have all : ∀ pair ∈ marks, pair.1.all continuesIdentifier = true := by decide
      exact List.all_eq_true.1 (all _ listed) c inMark
  · exact continues_of_continuesNumber (continuesNumber_iff.2 (characters c inBody))

/-- A text without white space, with white space around it. -/
theorem trims_of_solid {core before after : List Char} (solid : ∀ c ∈ core, isWhiteSpace c = false)
    (blank : ∀ c ∈ before, isWhiteSpace c = true) (blank' : ∀ c ∈ after, isWhiteSpace c = true) :
    Trims (before ++ (core ++ after)) core :=
  ⟨⟨before, after, rfl, blank, blank'⟩, fun c first => solid c (List.mem_of_mem_head? first),
    fun c last => solid c (List.mem_of_mem_getLast? last)⟩

/-- A radix mark with digits and underscores behind it, and white space around both. -/
theorem unsigned_of_characters {mark body before after : List Char} {radix : Nat}
    (selects : (mark, radix) ∈ ([], 10) :: marks) (some : body ≠ [])
    (characters : ∀ c ∈ body, (∃ value, Digit radix c value) ∨ c = '_')
    (blank : ∀ c ∈ before, isWhiteSpace c = true) (blank' : ∀ c ∈ after, isWhiteSpace c = true) :
    Unsigned (before ++ (mark ++ body ++ after)) radix body := by
  have stops : Stops [] := trivial
  have marked := marked_append selects characters stops
  rw [List.append_nil] at marked
  have continues := continues_of_characters selects characters
  have trims := trims_of_solid (fun c member => not_blank_of_continues (continues c member))
    blank blank'
  refine ⟨mark ++ body, mark, trims, ?_, marked⟩
  obtain ⟨c, rest, whole⟩ :=
    List.exists_cons_of_ne_nil (List.append_ne_nil_of_right_ne_nil mark some)
  refine ⟨c, by rw [whole]; rfl, ?_⟩
  exact ne_of_continues (continues c (whole ▸ List.mem_cons_self)) (by decide)

/-- **Numerals.** Any text is read as a 64-bit word exactly as the grammar says. So every spelling
of a word is read as this word: its digits in a radix, in either case, with zeros in front, with
underscores anywhere behind the mark of the radix, and with white space around. -/
theorem word64_reads :
    (∀ numeral result, UInt64.toNat <$> word64 numeral = result ↔ Reads numeral.toList result) ∧
    ∀ (word : UInt64) (mark body before after : List Char) (radix zeros : Nat),
      (mark, radix) ∈ ([], 10) :: marks → (∃ c ∈ body, c ≠ '_') →
      List.Forall₂ (Digit radix) (body.filter (· ≠ '_'))
        (List.replicate zeros 0 ++ (Nat.digits radix word.toNat).reverse) →
      (∀ c ∈ before, isWhiteSpace c = true) → (∀ c ∈ after, isWhiteSpace c = true) →
        word64 (String.ofList (before ++ (mark ++ body ++ after))) = .ok word := by
  refine ⟨fun numeral result => ?_, ?_⟩
  · rw [toNat_word64]
    exact value_eq_iff
  · intro word mark body before after radix zeros selects hasDigit each blank blank'
    obtain ⟨c, member, notUnderscore⟩ := hasDigit
    have kept : c ∈ body.filter (· ≠ '_') :=
      List.mem_filter.2 ⟨member, decide_eq_true notUnderscore⟩
    have characters : ∀ c ∈ body, (∃ value, Digit radix c value) ∨ c = '_' := by
      intro c member
      by_cases underscore : c = '_'
      · exact .inr underscore
      · have kept : c ∈ body.filter (· ≠ '_') :=
          List.mem_filter.2 ⟨member, decide_eq_true underscore⟩
        obtain ⟨value, -, digit⟩ := Fallible.exists_of_forall₂ each.flip kept
        exact .inl ⟨value, digit⟩
    have unsigned :=
      unsigned_of_characters selects (List.ne_nil_of_mem member) characters blank blank'
    have magnitude := Magnitude.bare (writes_of_digits (List.ne_nil_of_mem kept) each)
    have read : value (String.ofList (before ++ (mark ++ body ++ after))) = .ok word.toNat := by
      rw [value_eq_iff, String.toList_ofList]
      exact .number unsigned magnitude word.toNat_lt
    rw [word64, read]
    exact congrArg Except.ok (UInt64.ofNat_toNat)

theorem word64_reads_spellings :
    Reads "0b".toList (.error (.malformed "")) ∧ Reads "_+5".toList (.ok 5) ∧
      word64 "\u00a00X_00fF_\t" = .ok 255 := by
  refine ⟨(word64_reads.1 "0b" _).1 (by decide +kernel),
    (word64_reads.1 "_+5" _).1 (by decide +kernel),
    ?_⟩
  refine word64_reads.2 255 ['0', 'X'] ['_', '0', '0', 'f', 'F', '_'] ['\u00a0'] ['\t'] 16 2
    (by decide) ⟨'f', by decide, by decide⟩ ?_ (List.forall_mem_singleton.2 (by decide))
    (List.forall_mem_singleton.2 (by decide))
  have digits : (Nat.digits 16 255).reverse = [15, 15] := by norm_num
  show List.Forall₂ (Digit 16) ['0', '0', 'f', 'F'] ([0, 0] ++ (Nat.digits 16 255).reverse)
  rw [digits]
  exact .cons (by decide) (.cons (by decide) (.cons (by decide) (.cons (by decide) .nil)))

end InstructionSet.Numeral
