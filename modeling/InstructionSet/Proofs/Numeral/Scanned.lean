import InstructionSet.Proofs.Numeral.Grammar

/-!
# Numerals in a source

A numeral that was scanned is read without surprise. The radix that was chosen where it stands in
the source is the one that its mark selects, and its digits write a number in this radix. Without a
minus sign in front, every reading comes to this number when the number is in its range, and there
is no other fault than that the number is too large (`words_of_scan`).
-/

namespace InstructionSet.Numeral

open InstructionSet.Text InstructionSet.Scanner

set_option autoImplicit false

/-! ## The parts of a scanned numeral -/

theorem Marked.whole {text mark behind : List Char} {radix : Nat}
    (marked : Marked text mark radix behind) : text = mark ++ behind := by
  cases marked with
  | mark listed whole => exact whole
  | plain none => rfl

/-- A numeral that was scanned stands somewhere in the source, where the radix of its mark was
chosen. -/
theorem exists_spells_of_mem_scan {source : String} {token : Token}
    (member : .token token ∈ (scan source).entries) (isNumber : token.kind = .number) :
    ∃ before sign mark radix body after, (sign = [] ∨ sign = ['-']) ∧
      source.toList = before ++ (sign ++ (mark ++ (body ++ after))) ∧
      token.lexeme.toList = sign ++ mark ++ body ∧ Spells mark radix body ∧
        splitRadix (mark ++ (body ++ after)) = (mark, radix, body ++ after) := by
  obtain ⟨before, c, rest, whole, read⟩ := exists_cut_of_mem_stream member
  rw [isNumber] at read
  cases cut_cases c rest with
  | punctuation kind punctuation same =>
      rw [same] at read
      obtain ⟨rfl, -⟩ := Reading.token.inj read
      unfold TokenKind.ofPunctuation? at punctuation
      split at punctuation <;> cases punctuation
  | quoted same =>
      rw [same] at read
      cases cutQuoted_token read
  | number sign text isSign front starts same =>
      rw [same] at read
      obtain ⟨mark, radix, body, -, lexeme, spells, marked⟩ :=
        exists_spells_of_cutNumber starts read
      generalize (cutNumber sign text).rest = after at marked
      have behind := marked.whole
      rw [behind] at marked front
      refine ⟨before, sign, mark, radix, body, after, isSign, ?_, lexeme, spells,
        splitRadix_of_marked marked⟩
      rw [← front]
      exact whole
  | identifier starts same =>
      rw [same] at read
      cases (Reading.token.inj read).1
  | unexpected same =>
      rw [same] at read
      cases read

/-! ## Reading scanned numerals -/

/-- What reading a numeral whose digits write a number comes to, below some bound. -/
def verdict (bound number : Nat) (numeral : String) (body : List Char) : Except NumeralError Nat :=
  if number < bound then .ok number
  else if number < UInt64.size then .error (.outOfRange numeral)
  else .error (.malformed (String.ofList body))

/-- No white space is taken off a numeral that was scanned. -/
theorem trims_lexeme {sign mark body : List Char} {radix : Nat} (isSign : sign = [] ∨ sign = ['-'])
    (spells : Spells mark radix body) :
    Trims (sign ++ (mark ++ body)) (sign ++ (mark ++ body)) := by
  have solid : ∀ c ∈ sign ++ (mark ++ body), isWhiteSpace c = false := by
    intro c member
    rcases List.mem_append.1 member with inSign | behind
    · rcases isSign with rfl | rfl
      · cases inSign
      · obtain rfl := List.mem_singleton.1 inSign
        decide
    · exact not_blank_of_continues
        (continues_of_characters spells.selects spells.characters c behind)
  simpa using trims_of_solid solid (List.forall_mem_nil _) (List.forall_mem_nil _)

theorem unsigned_of_spells {mark body : List Char} {radix : Nat} (spells : Spells mark radix body) :
    Unsigned (mark ++ body) radix body := by
  obtain ⟨c, member, -⟩ := spells.hasDigit
  simpa using unsigned_of_characters spells.selects (List.ne_nil_of_mem member) spells.characters
    (List.forall_mem_nil _) (List.forall_mem_nil _)

section Readings

variable {numeral : String} {mark body : List Char} {radix number : Nat}

/-- Behind a minus sign, a numeral is refused for the sign. -/
theorem value_of_minus (spells : Spells mark radix body)
    (lexeme : numeral.toList = '-' :: (mark ++ body)) : value numeral = .error .negative := by
  have trims := trims_lexeme (.inr rfl) spells
  rw [value_eq_iff, lexeme]
  exact .negative trims

/-- Without a sign, a numeral is read as the number that its digits write, if 64 bits hold it. -/
theorem value_of_spells (spells : Spells mark radix body) (lexeme : numeral.toList = mark ++ body)
    (writes : Writes radix (body.filter (· ≠ '_')) number) :
    value numeral = verdict UInt64.size number numeral body := by
  have unsigned := unsigned_of_spells spells
  have magnitude := Magnitude.bare writes
  rw [value_eq_iff, lexeme]
  unfold verdict
  by_cases fits : number < UInt64.size
  · rw [if_pos fits]
    exact .number unsigned magnitude fits
  · rw [if_neg fits, if_neg fits]
    refine .malformed unsigned fun other again => ?_
    rw [← magnitude.unique again]
    exact Nat.not_lt.1 fits

theorem below_of_spells {bound : Nat} (spells : Spells mark radix body)
    (lexeme : numeral.toList = mark ++ body)
    (writes : Writes radix (body.filter (· ≠ '_')) number) (le : bound ≤ UInt64.size) :
    below bound numeral = verdict bound number numeral body := by
  have trimmed : trim numeral.toList = numeral.toList := by
    rw [lexeme]
    exact trim_of_trims (trims_lexeme (.inl rfl) spells)
  rw [below, value_of_spells spells lexeme writes, trimmed, String.ofList_toList]
  unfold verdict
  by_cases fits : number < UInt64.size
  · rw [if_pos fits, if_pos fits]
    rfl
  · have large : ¬ number < bound := fun small => fits (Nat.lt_of_lt_of_le small le)
    rw [if_neg fits, if_neg fits, if_neg large]
    rfl

theorem below_of_value_error {bound : Nat} {fault : NumeralError}
    (refused : value numeral = .error fault) : below bound numeral = .error fault := by
  rw [below, refused]
  rfl

theorem lt_of_below {bound : Nat} (read : below bound numeral = .ok number) : number < bound := by
  obtain ⟨found, -, checked⟩ := Fallible.bind_eq_ok_iff.1 read
  split at checked
  next small => exact Fallible.pure_eq_ok_iff.1 checked ▸ small
  next => cases checked

theorem toNat_word32 (numeral : String) :
    UInt32.toNat <$> word32 numeral = below UInt32.size numeral := by
  rw [word32]
  cases read : below UInt32.size numeral with
  | error fault => rfl
  | ok number =>
      show Except.ok (UInt32.ofNat number).toNat = _
      rw [UInt32.toNat_ofNat', Nat.mod_eq_of_lt (lt_of_below read)]

theorem toNat_byte (numeral : String) :
    UInt8.toNat <$> Numeral.byte numeral = below UInt8.size numeral := by
  rw [Numeral.byte]
  cases read : below UInt8.size numeral with
  | error fault => rfl
  | ok number =>
      show Except.ok (UInt8.ofNat number).toNat = _
      rw [UInt8.toNat_ofNat', Nat.mod_eq_of_lt (lt_of_below read)]

end Readings

/-- **Scanned numerals.** A numeral of a source that starts with a minus sign is refused for it by
every reading. Any other one is a radix mark and a body, the radix being the one that was chosen
where the numeral stands; the digits of the body write a number, and every reading comes to this
number or to the fault that it is too large. -/
theorem words_of_scan {source : String} {token : Token}
    (member : .token token ∈ (scan source).entries) (isNumber : token.kind = .number) :
    (token.lexeme.toList.head? = some '-' →
      word64 token.lexeme = .error .negative ∧ word32 token.lexeme = .error .negative ∧
        Numeral.byte token.lexeme = .error .negative) ∧
    (token.lexeme.toList.head? ≠ some '-' →
      ∃ before mark radix body after number,
        source.toList = before ++ (mark ++ (body ++ after)) ∧
        token.lexeme.toList = mark ++ body ∧
        splitRadix (mark ++ (body ++ after)) = (mark, radix, body ++ after) ∧
        Writes radix (body.filter (· ≠ '_')) number ∧
        UInt64.toNat <$> word64 token.lexeme = verdict UInt64.size number token.lexeme body ∧
        UInt32.toNat <$> word32 token.lexeme = verdict UInt32.size number token.lexeme body ∧
        UInt8.toNat <$> Numeral.byte token.lexeme =
          verdict UInt8.size number token.lexeme body) := by
  obtain ⟨before, sign, mark, radix, body, after, isSign, whole, lexeme, spells, chosen⟩ :=
    exists_spells_of_mem_scan member isNumber
  rcases isSign with rfl | rfl
  · constructor
    · intro minus
      rw [lexeme, List.nil_append] at minus
      have inside := List.mem_of_mem_head? (Option.mem_def.2 minus)
      have continues := continues_of_characters spells.selects spells.characters '-' inside
      exact absurd continues (by decide)
    · intro _
      obtain ⟨number, writes⟩ := spells.exists_writes
      refine ⟨before, mark, radix, body, after, number, whole, lexeme, chosen, writes, ?_, ?_, ?_⟩
      · rw [toNat_word64, value_of_spells spells lexeme writes]
      · rw [toNat_word32, below_of_spells spells lexeme writes (by decide)]
      · rw [toNat_byte, below_of_spells spells lexeme writes (by decide)]
  · have refused := value_of_minus spells lexeme
    constructor
    · intro _
      refine ⟨?_, ?_, ?_⟩
      · rw [word64, refused]
        rfl
      · rw [word32, below_of_value_error refused]
        rfl
      · rw [Numeral.byte, below_of_value_error refused]
        rfl
    · intro notMinus
      rw [lexeme] at notMinus
      exact absurd rfl notMinus

/-- A value of a lookup table that is too large for 32 bits. -/
theorem words_of_scan_shift : ∃ token,
    .token token ∈ (scan ":lut l \x7b 0X1_0000_0000 \x7d").entries ∧
    token.kind = .number ∧ ∃ radix body number, Writes radix (body.filter (· ≠ '_')) number ∧
      UInt32.toNat <$> word32 token.lexeme = verdict UInt32.size number token.lexeme body := by
  have member : .token ⟨.number, "0X1_0000_0000", ⟨1, 10⟩⟩ ∈
      (scan ":lut l \x7b 0X1_0000_0000 \x7d").entries := by decide +kernel
  obtain ⟨-, mark, radix, body, -, number, -, -, -, writes, -, read, -⟩ :=
    (words_of_scan member rfl).2 (by decide)
  exact ⟨_, member, rfl, radix, body, number, writes, read⟩

end InstructionSet.Numeral
