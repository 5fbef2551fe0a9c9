import Mathlib.Data.List.TakeWhile
import InstructionSet.Proofs.Numeral.Digits
import InstructionSet.Proofs.Token.Requests

/-!
# Spelling tokens

A token that is spelled well is read back from its spelling. Punctuation and quoted texts end by
themselves; behind an identifier or a numeral must stand a character that does not continue an
identifier (`Stops`). And whatever is scanned is a token that is spelled well
(`wellSpelled_of_mem_scan`).

The texts that read as given tokens (`ReadsAs`) are built from the end of a source backwards: a
blank in front changes nothing, and a spelling in front adds its token.
-/

namespace InstructionSet.Scanner

open InstructionSet.Text

set_option autoImplicit false

/-! ## Escaping -/

/-- What stands for a character of a quoted text between the quotation marks. -/
def escapeChar (c : Char) : List Char :=
  if c = '"' then ['\\', '"'] else if c = '\\' then ['\\', '\\']
  else if c = '\n' then ['\\', 'n'] else [c]

/-- What stands for a quoted text between its quotation marks. -/
def escape (text : List Char) : List Char :=
  text.flatMap escapeChar

theorem splitQuoted_escape (text rest : List Char) :
    splitQuoted (escape text ++ '"' :: rest) = (escape text ++ ['"'], some text, rest) := by
  induction text with
  | nil => simp [escape, splitQuoted]
  | cons c text ih =>
      have front : escape (c :: text) = escapeChar c ++ escape text := rfl
      rw [front, List.append_assoc]
      by_cases quote : c = '"'
      · subst quote
        simp [escapeChar, splitQuoted, ih, unescape]
      · by_cases backslash : c = '\\'
        · subst backslash
          simp [escapeChar, splitQuoted, ih, unescape]
        · by_cases newline : c = '\n'
          · subst newline
            simp [escapeChar, splitQuoted, ih, unescape]
          · simp only [escapeChar, if_neg quote, if_neg backslash, if_neg newline,
              List.singleton_append]
            rw [splitQuoted.eq_def]
            split <;> simp_all

/-! ## Characters -/

theorem codes_of_isAlpha {c : Char} (letter : c.isAlpha = true) :
    (65 ≤ c.toNat ∧ c.toNat ≤ 90) ∨ (97 ≤ c.toNat ∧ c.toNat ≤ 122) := by
  rcases Bool.or_eq_true_iff.1 letter with upper | lower
  · have bounds : 'A'.val ≤ c.val ∧ c.val ≤ 'Z'.val := of_decide_eq_true upper
    exact .inl ⟨bounds.1, bounds.2⟩
  · obtain ⟨low, high⟩ := Bool.and_eq_true_iff.1 lower
    have least : 'a'.val ≤ c.val := of_decide_eq_true low
    have most : c.val ≤ 'z'.val := of_decide_eq_true high
    exact .inr ⟨least, most⟩

theorem codes_of_isDigit {c : Char} (digit : c.isDigit = true) :
    48 ≤ c.toNat ∧ c.toNat ≤ 57 :=
  Char.isDigit_iff_toNat.1 digit

theorem codes_of_continues {c : Char} (continues : continuesIdentifier c = true) :
    ((65 ≤ c.toNat ∧ c.toNat ≤ 90) ∨ (97 ≤ c.toNat ∧ c.toNat ≤ 122)) ∨ c = '_' ∨
      (48 ≤ c.toNat ∧ c.toNat ≤ 57) ∨ c = '.' := by
  simp only [continuesIdentifier, startsIdentifier, Bool.or_eq_true, decide_eq_true_eq,
    or_assoc] at continues
  rcases continues with letter | underscore | digit | dot
  · exact .inl (codes_of_isAlpha letter)
  · exact .inr (.inl underscore)
  · exact .inr (.inr (.inl (codes_of_isDigit digit)))
  · exact .inr (.inr (.inr dot))

theorem not_isDigit_of_starts {c : Char} (starts : startsIdentifier c = true) :
    c.isDigit = false := by
  rw [Bool.eq_false_iff]
  intro digit
  obtain ⟨low, high⟩ := codes_of_isDigit digit
  rcases Bool.or_eq_true_iff.1 starts with letter | underscore
  · rcases codes_of_isAlpha letter with upper | lower
    · omega
    · omega
  · rw [of_decide_eq_true underscore] at digit
    exact absurd digit (by decide)

theorem not_blank_of_continues {c : Char} (continues : continuesIdentifier c = true) :
    isWhiteSpace c = false := by
  rw [Bool.eq_false_iff, isWhiteSpace, ne_eq, CodeRange.cover_iff]
  simp only [whiteSpaceRanges, List.mem_cons, List.not_mem_nil, or_false, exists_eq_or_imp,
    exists_eq_left]
  rcases codes_of_continues continues with letter | rfl | digit | rfl
  · omega
  · decide
  · omega
  · decide

theorem ofPunctuation?_of_continues {c : Char} (continues : continuesIdentifier c = true) :
    TokenKind.ofPunctuation? c = none := by
  unfold TokenKind.ofPunctuation?
  split <;> first | rfl | exact absurd continues (by decide)

theorem ne_of_continues {c other : Char} (continues : continuesIdentifier c = true)
    (apart : continuesIdentifier other = false) : c ≠ other := by
  rintro rfl
  rw [continues] at apart
  cases apart

/-- Whether an identifier or a numeral in front of a text ends there. -/
def Stops : List Char → Prop
  | [] => True
  | c :: _ => continuesIdentifier c = false

theorem stops_of_blank {c : Char} {rest : List Char} (blank : isWhiteSpace c = true) :
    Stops (c :: rest) := by
  show continuesIdentifier c = false
  rw [Bool.eq_false_iff]
  intro continues
  rw [not_blank_of_continues continues] at blank
  cases blank

theorem takeWhile_of_stops {text rest : List Char} {fits : Char → Bool}
    (all : ∀ c ∈ text, fits c = true) (stops : Stops rest)
    (continues : ∀ c, fits c = true → continuesIdentifier c = true) :
    (text ++ rest).takeWhile fits = text ∧ (text ++ rest).dropWhile fits = rest := by
  have none : rest.takeWhile fits = [] ∧ rest.dropWhile fits = rest := by
    cases rest with
    | nil => exact ⟨rfl, rfl⟩
    | cons c later =>
        have apart : ¬ fits c = true := by
          intro fit
          have stopped : continuesIdentifier c = false := stops
          rw [continues c fit] at stopped
          cases stopped
        exact ⟨List.takeWhile_cons_of_neg apart, List.dropWhile_cons_of_neg apart⟩
  rw [List.takeWhile_append_of_pos all, List.dropWhile_append_of_pos all, none.1, none.2,
    List.append_nil]
  exact ⟨rfl, rfl⟩

/-! ## Numerals -/

theorem continues_of_digit {radix value : Nat} {c : Char} (digit : Numeral.Digit radix c value) :
    continuesIdentifier c = true := by
  have all : (Numeral.lowerDigits ++ Numeral.upperDigits).all continuesIdentifier = true := by
    decide
  exact List.all_eq_true.1 all c (Numeral.mem_of_digit digit)

theorem isDigit_of_digit {value : Nat} {c : Char} (digit : Numeral.Digit 10 c value) :
    c.isDigit = true := by
  have all : ∀ value < 10, Numeral.lowerDigits[value]?.all Char.isDigit = true ∧
      Numeral.upperDigits[value]?.all Char.isDigit = true := by
    decide
  obtain ⟨lower, upper⟩ := all value digit.1
  rcases digit.2 with found | found
  · rwa [found] at lower
  · rwa [found] at upper

theorem continuesNumber_iff {radix : Nat} {c : Char} :
    continuesNumber radix c = true ↔ (∃ value, Numeral.Digit radix c value) ∨ c = '_' := by
  rw [continuesNumber, Bool.or_eq_true, Numeral.isDigit_iff, decide_eq_true_eq]

theorem continues_of_continuesNumber {radix : Nat} {c : Char}
    (continues : continuesNumber radix c = true) : continuesIdentifier c = true := by
  rcases continuesNumber_iff.1 continues with ⟨value, digit⟩ | rfl
  · exact continues_of_digit digit
  · decide

theorem radixOf?_of_continuesNumber {c : Char} (continues : continuesNumber 10 c = true) :
    Numeral.radixOf? c = none := by
  unfold Numeral.radixOf?
  split <;> first | rfl | exact absurd continues (by decide)

theorem radixOf?_of_stops {c : Char} {rest : List Char} (stops : Stops (c :: rest)) :
    Numeral.radixOf? c = none := by
  have stopped : continuesIdentifier c = false := stops
  unfold Numeral.radixOf?
  split <;> first | rfl | exact absurd stopped (by decide)

section Numerals

variable {sign mark body rest : List Char} {radix : Nat}

/-- What stands behind digits and underscores does not change the mark in front of them. -/
theorem marked_append (selects : (mark, radix) ∈ ([], 10) :: Numeral.marks)
    (characters : ∀ c ∈ body, (∃ value, Numeral.Digit radix c value) ∨ c = '_')
    (stops : Stops rest) : Numeral.Marked (mark ++ (body ++ rest)) mark radix (body ++ rest) := by
  rcases List.mem_cons.1 selects with plain | listed
  · obtain ⟨rfl, rfl⟩ := Prod.mk.inj plain
    refine .plain fun pair listed here => ?_
    obtain ⟨letter, same, selects⟩ := Numeral.exists_letter_of_mem_marks listed
    rw [same, List.nil_append] at here
    -- The zero and the letter of a mark both continue an identifier, and only the zero is a digit.
    have apart : Numeral.radixOf? letter = none := by
      cases body with
      | nil =>
          cases rest with
          | nil => simp at here
          | cons zero later =>
              obtain ⟨rfl, -⟩ := List.cons_prefix_cons.1 here
              have stopped : continuesIdentifier '0' = false := stops
              exact absurd stopped (by decide)
      | cons first others =>
          obtain ⟨-, behind⟩ := List.cons_prefix_cons.1 here
          cases others with
          | nil =>
              cases rest with
              | nil => simp at behind
              | cons next later =>
                  obtain ⟨rfl, -⟩ := List.cons_prefix_cons.1 behind
                  exact radixOf?_of_stops stops
          | cons second others =>
              obtain ⟨rfl, -⟩ := List.cons_prefix_cons.1 behind
              have inside := characters letter (by simp)
              exact radixOf?_of_continuesNumber (continuesNumber_iff.2 inside)
    rw [apart] at selects
    cases selects
  · exact .mark listed rfl

/-- A numeral is cut off the front of a text as a whole. -/
theorem cutNumber_of_spells (sign : List Char) (spells : Numeral.Spells mark radix body)
    (stops : Stops rest) :
    cutNumber sign (mark ++ (body ++ rest)) =
      ⟨sign ++ mark ++ body, rest, .token .number (sign ++ mark ++ body)⟩ := by
  have continues : ∀ c ∈ body, continuesNumber radix c = true := fun c member =>
    continuesNumber_iff.2 (spells.characters c member)
  have marked := marked_append spells.selects spells.characters stops
  obtain ⟨front, behind⟩ :=
    takeWhile_of_stops continues stops fun _ => continues_of_continuesNumber
  have hasDigit : body.any (Numeral.isDigit radix) = true := by
    obtain ⟨c, member, digit⟩ := spells.hasDigit
    exact List.any_eq_true.2 ⟨c, member, Numeral.isDigit_iff.2 digit⟩
  have read (lexeme : List Char) : readNumber radix body rest lexeme = .token .number lexeme := by
    unfold readNumber
    rw [if_pos hasDigit]
    cases rest with
    | nil => rfl
    | cons c later =>
        have apart : ¬ startsIdentifier c = true := by
          intro starts
          have stopped : continuesIdentifier c = false := stops
          simp [continuesIdentifier, starts] at stopped
        simp only [if_neg apart]
  simp only [cutNumber, Numeral.splitRadix_of_marked marked, front, behind, read]

/-- A numeral starts with a decimal digit. -/
theorem exists_digit_of_spells (spells : Numeral.Spells mark radix body) (rest : List Char) :
    ∃ c later, mark ++ (body ++ rest) = c :: later ∧ c.isDigit = true := by
  rcases List.mem_cons.1 spells.selects with plain | listed
  · obtain ⟨rfl, rfl⟩ := Prod.mk.inj plain
    obtain ⟨c, first, value, digit⟩ := spells.starts rfl
    cases body with
    | nil => cases first
    | cons d others =>
        obtain rfl : d = c := Option.some.inj first
        exact ⟨d, others ++ rest, rfl, isDigit_of_digit digit⟩
  · obtain ⟨letter, rfl, -⟩ := Numeral.exists_letter_of_mem_marks listed
    exact ⟨'0', _, rfl, by decide⟩

/-- Decimal digits are a numeral without a mark. -/
theorem spells_of_digits {digits : List Char} (some : digits ≠ [])
    (all : ∀ c ∈ digits, c.isDigit = true) : Numeral.Spells [] 10 digits := by
  have digit : ∀ c ∈ digits, ∃ value, Numeral.Digit 10 c value := fun c member =>
    Numeral.isDigit_iff.1 (isDigit_ten (all c member))
  obtain ⟨c, others, rfl⟩ := List.exists_cons_of_ne_nil some
  have first := digit c List.mem_cons_self
  exact ⟨List.mem_cons_self, fun d member => .inl (digit d member),
    ⟨c, List.mem_cons_self, first⟩, fun _ => ⟨c, rfl, first⟩⟩

end Numerals

/-! ## Spellings -/

/-- The characters that stand for a token in a source. -/
def spelling (token : Token) : List Char :=
  if token.kind = .text then '"' :: (escape token.lexeme.toList ++ ['"']) else token.lexeme.toList

/-- Whether a token is read back from its spelling: it is a punctuation character, an identifier, a
numeral with or without a minus sign, or any text. -/
inductive WellSpelled (token : Token) : Prop where
  | punctuation (c : Char) (lexeme : token.lexeme.toList = [c])
      (kind : TokenKind.ofPunctuation? c = some token.kind)
  | identifier (kind : token.kind = .identifier)
      (spelled : isIdentifier token.lexeme.toList = true)
  | number (kind : token.kind = .number) {sign mark body : List Char} {radix : Nat}
      (isSign : sign = [] ∨ sign = ['-']) (lexeme : token.lexeme.toList = sign ++ mark ++ body)
      (spells : Numeral.Spells mark radix body)
  | text (kind : token.kind = .text)

theorem wellSpelled_of_digits {token : Token} (kind : token.kind = .number)
    (some : token.lexeme.toList ≠ []) (digits : ∀ c ∈ token.lexeme.toList, c.isDigit = true) :
    WellSpelled token :=
  .number kind (.inl rfl) rfl (spells_of_digits some digits)

/-- Whether a token ends in front of a text: an identifier or a numeral could go on. -/
def EndsAt (token : Token) (rest : List Char) : Prop :=
  token.kind = .identifier ∨ token.kind = .number → Stops rest

/-- The spelling of a token is cut off the front of a text as a whole, and is the token. -/
theorem cut_spelling {token : Token} {rest : List Char} (spelled : WellSpelled token)
    (ends : EndsAt token rest) :
    ∃ c later, spelling token ++ rest = c :: later ∧ isWhiteSpace c = false ∧ c ≠ '#' ∧
      (cut c later).rest = rest ∧
      (cut c later).reading = .token token.kind token.lexeme.toList := by
  cases spelled with
  | punctuation c lexeme kind =>
      have notText : token.kind ≠ .text := by
        intro same
        rw [same] at kind
        unfold TokenKind.ofPunctuation? at kind
        split at kind <;> cases kind
      have blank : isWhiteSpace c = false ∧ c ≠ '#' := by
        unfold TokenKind.ofPunctuation? at kind
        split at kind <;> first | (exact ⟨by decide, by decide⟩) | cases kind
      refine ⟨c, rest, ?_, blank.1, blank.2, ?_⟩
      · rw [spelling, if_neg notText, lexeme]
        rfl
      · simp only [cut, kind, lexeme, and_self]
  | identifier kind spelled =>
      have notText : token.kind ≠ .text := by simp [kind]
      have stops : Stops rest := ends (.inl kind)
      rw [spelling, if_neg notText, kind]
      cases lexeme : token.lexeme.toList with
      | nil => simp [lexeme, isIdentifier] at spelled
      | cons c later =>
          rw [lexeme] at spelled
          obtain ⟨starts, others⟩ := Bool.and_eq_true_iff.1 spelled
          have continues : continuesIdentifier c = true := by simp [continuesIdentifier, starts]
          have all : ∀ d ∈ c :: later, continuesIdentifier d = true := by
            intro d member
            rcases List.mem_cons.1 member with rfl | listed
            · exact continues
            · exact List.all_eq_true.1 others d listed
          obtain ⟨front, behind⟩ := takeWhile_of_stops all stops fun _ same => same
          refine ⟨c, later ++ rest, rfl, not_blank_of_continues continues,
            ne_of_continues continues (by decide), ?_⟩
          have minus : c ≠ '-' := ne_of_continues continues (by decide)
          have quote : c ≠ '"' := ne_of_continues continues (by decide)
          simp only [cut, ofPunctuation?_of_continues continues, if_neg quote, minus,
            decide_false, Bool.false_and, not_isDigit_of_starts starts, starts, if_true,
            cutIdentifier]
          rw [← List.cons_append, front, behind]
          exact ⟨rfl, rfl⟩
  | @number kind sign mark body radix isSign lexeme spells =>
      have notText : token.kind ≠ .text := by simp [kind]
      have stops : Stops rest := ends (.inr kind)
      have whole := cutNumber_of_spells sign spells stops
      obtain ⟨c, later, front, digit⟩ := exists_digit_of_spells spells rest
      have continues : continuesIdentifier c = true := by simp [continuesIdentifier, digit]
      rw [spelling, if_neg notText, kind, lexeme, List.append_assoc, List.append_assoc, front]
      rw [front] at whole
      rcases isSign with rfl | rfl
      · refine ⟨c, later, rfl, not_blank_of_continues continues,
          ne_of_continues continues (by decide), ?_⟩
        have minus : c ≠ '-' := ne_of_continues continues (by decide)
        have quote : c ≠ '"' := ne_of_continues continues (by decide)
        simp only [cut, ofPunctuation?_of_continues continues, if_neg quote, minus,
          decide_false, Bool.false_and, digit, if_true, whole]
        exact ⟨rfl, rfl⟩
      · refine ⟨'-', c :: later, rfl, by decide, by decide, ?_⟩
        have minus : cut '-' (c :: later) = cutNumber ['-'] (c :: later) := by
          simp [cut, TokenKind.ofPunctuation?, startsWithDigit, digit]
        rw [minus, whole]
        exact ⟨rfl, rfl⟩
  | text kind =>
      rw [spelling, if_pos kind, kind]
      refine ⟨'"', escape token.lexeme.toList ++ ['"'] ++ rest, rfl, by decide, by decide, ?_⟩
      have split := splitQuoted_escape token.lexeme.toList rest
      have quote : cut '"' (escape token.lexeme.toList ++ ['"'] ++ rest) =
          cutQuoted (escape token.lexeme.toList ++ '"' :: rest) := by
        rw [List.append_assoc]
        rfl
      rw [quote, cutQuoted, split]
      exact ⟨rfl, rfl⟩

/-! ## What is scanned is spelled well -/

theorem spells_of_readNumber {text spelling lexeme mark body : List Char} {radix : Nat}
    {kind : TokenKind} (marked : Numeral.Marked text mark radix body)
    (starts : startsWithDigit text = true)
    (read : readNumber radix (body.takeWhile (continuesNumber radix))
      (body.dropWhile (continuesNumber radix)) spelling = .token kind lexeme) :
    Numeral.Spells mark radix (body.takeWhile (continuesNumber radix)) := by
  have hasDigit : (body.takeWhile (continuesNumber radix)).any (Numeral.isDigit radix) = true := by
    by_contra none
    unfold readNumber at read
    rw [if_neg none] at read
    cases read
  constructor
  · cases marked with
    | mark listed whole => exact List.mem_cons_of_mem _ listed
    | plain none => exact List.mem_cons_self
  · exact fun c member => continuesNumber_iff.1 (List.mem_takeWhile_imp member)
  · obtain ⟨c, member, digit⟩ := List.any_eq_true.1 hasDigit
    exact ⟨c, member, Numeral.isDigit_iff.1 digit⟩
  · rintro rfl
    cases marked with
    | mark listed whole =>
        obtain ⟨letter, impossible, -⟩ := Numeral.exists_letter_of_mem_marks listed
        cases impossible
    | plain none =>
        cases text with
        | nil => cases starts
        | cons c rest =>
            have digit : Numeral.isDigit 10 c = true := isDigit_ten starts
            refine ⟨c, ?_, Numeral.isDigit_iff.1 digit⟩
            rw [List.takeWhile_cons_of_pos (by simp [continuesNumber, digit])]
            rfl

/-- A numeral that is cut off a text has the parts of one, and its radix is the one that the text
has shown. -/
theorem exists_spells_of_cutNumber {sign text lexeme : List Char} {kind : TokenKind}
    (starts : startsWithDigit text = true)
    (read : (cutNumber sign text).reading = .token kind lexeme) :
    ∃ mark radix body, kind = .number ∧ lexeme = sign ++ mark ++ body ∧
      Numeral.Spells mark radix body ∧
        Numeral.Marked text mark radix (body ++ (cutNumber sign text).rest) := by
  cases split : Numeral.splitRadix text with
  | mk mark others =>
      obtain ⟨radix, body⟩ := others
      have marked := Numeral.splitRadix_eq_iff.1 split
      simp only [cutNumber, split] at read ⊢
      obtain ⟨rfl, rfl⟩ := readNumber_token read
      refine ⟨mark, radix, _, rfl, rfl, spells_of_readNumber marked starts read, ?_⟩
      rwa [List.takeWhile_append_dropWhile]

/-- Whatever is cut off a text as a token is spelled well. -/
theorem wellSpelled_of_cut {c : Char} {rest lexeme : List Char} {kind : TokenKind}
    (read : (cut c rest).reading = .token kind lexeme) (position : Position) :
    WellSpelled ⟨kind, String.ofList lexeme, position⟩ := by
  have identifier := (cut_token read).2
  cases cut_cases c rest with
  | punctuation found punctuation same =>
      rw [same] at read
      cases read
      exact .punctuation c String.toList_ofList punctuation
  | quoted same =>
      rw [same] at read
      exact .text (cutQuoted_token read)
  | number sign text isSign whole starts same =>
      rw [same] at read
      obtain ⟨mark, radix, body, rfl, rfl, spells, -⟩ := exists_spells_of_cutNumber starts read
      exact .number rfl isSign String.toList_ofList spells
  | identifier starts same =>
      rw [same] at read
      cases read
      refine .identifier rfl ?_
      rw [String.toList_ofList]
      exact identifier rfl
  | unexpected same =>
      rw [same] at read
      cases read

/-- A token in a stream was cut off the front of what is left of the source somewhere. -/
theorem exists_cut_of_mem_stream {tail : Tail} {token : Token}
    (member : .token token ∈ tail.stream.entries) :
    ∃ before c rest, tail.text = before ++ c :: rest ∧
      (cut c rest).reading = .token token.kind token.lexeme.toList := by
  fun_induction Tail.stream tail with
  | case1 tail blank => cases member
  | case2 tail more stream ih =>
      have whole := splitBlank_append false tail.text
      cases front : tail.skipBlank with
      | mk position text =>
          have behind : (splitBlank false tail.text).2 = text := congrArg Tail.text front
          rw [behind] at whole
          cases text with
          | nil => simp [front] at more
          | cons c rest =>
              have next := Tail.next_of_skipBlank front
              rcases List.mem_cons.1 member with here | later
              · refine ⟨_, c, rest, whole.symm, ?_⟩
                rw [next] at here
                simp only [Cut.scanned] at here
                split at here
                next kind lexeme read => cases here; rw [String.toList_ofList, read]
                next => cases here
                next => cases here
              · obtain ⟨before, d, others, same, read⟩ := ih later
                rw [next] at same
                refine ⟨(splitBlank false tail.text).1 ++ ((cut c rest).spelling ++ before), d,
                  others, ?_, read⟩
                rw [List.append_assoc, List.append_assoc, ← same, cut_whole, whole]

/-- Every token of a source is spelled well. -/
theorem wellSpelled_of_mem_scan {source : String} {token : Token}
    (member : .token token ∈ (scan source).entries) : WellSpelled token := by
  obtain ⟨before, c, rest, -, read⟩ := exists_cut_of_mem_stream member
  have spelled := wellSpelled_of_cut read token.position
  rwa [String.ofList_toList] at spelled

/-! ## Texts that read as tokens -/

/-- A text reads as tokens, wherever it starts. -/
def ReadsAs (text : List Char) (tokens : List Token) : Prop :=
  ∀ position, ∃ found, (Tail.stream ⟨position, text⟩).entries = found.map .token ∧
    Alike found tokens

theorem readsAs_nil : ReadsAs [] [] := by
  intro position
  have blank : (⟨position, []⟩ : Tail).skipBlank.text = [] := rfl
  refine ⟨[], ?_, rfl⟩
  rw [Tail.stream, dif_pos blank]
  rfl

theorem stream_of_skipBlank {first second : Tail} (same : first.skipBlank = second.skipBlank) :
    first.stream = second.stream := by
  have next : first.next = second.next := by
    unfold Tail.next
    rw [same]
  rw [Tail.stream.eq_1 first, Tail.stream.eq_1 second, next, same]

theorem readsAs_blank {c : Char} {text : List Char} {tokens : List Token}
    (blank : isWhiteSpace c = true) (reads : ReadsAs text tokens) :
    ReadsAs (c :: text) tokens := by
  intro position
  have notComment : c ≠ '#' := by
    rintro rfl
    exact absurd blank (by decide)
  have same : (⟨position, c :: text⟩ : Tail).skipBlank =
      (⟨position.step c, text⟩ : Tail).skipBlank := by
    simp only [Tail.skipBlank, splitBlank, blank, Bool.true_or, if_true, notComment, decide_false,
      Position.after_cons]
  rw [stream_of_skipBlank same]
  exact reads _

theorem readsAs_token {token : Token} {rest : List Char} {tokens : List Token}
    (spelled : WellSpelled token) (ends : EndsAt token rest) (reads : ReadsAs rest tokens) :
    ReadsAs (spelling token ++ rest) (token :: tokens) := by
  intro position
  obtain ⟨c, later, whole, notBlank, notComment, restIs, reading⟩ := cut_spelling spelled ends
  rw [whole]
  have skip : (⟨position, c :: later⟩ : Tail).skipBlank = ⟨position, c :: later⟩ := by
    simp only [Tail.skipBlank, splitBlank, notBlank, notComment, Bool.false_or, decide_false]
    rfl
  have next : (⟨position, c :: later⟩ : Tail).next =
      (.token ⟨token.kind, token.lexeme, position⟩,
        ⟨position.after (cut c later).spelling, rest⟩) := by
    unfold Tail.next
    rw [skip]
    simp only [Cut.scanned, reading, restIs, String.ofList_toList]
  obtain ⟨found, entries, alike⟩ := reads (position.after (cut c later).spelling)
  refine ⟨⟨token.kind, token.lexeme, position⟩ :: found, ?_, ?_⟩
  · rw [Tail.stream, dif_neg (by rw [skip]; exact List.cons_ne_nil _ _), next]
    simp only [entries, List.map_cons]
  · unfold Alike at *
    rw [List.map_cons, List.map_cons, alike]
    rfl

end InstructionSet.Scanner
