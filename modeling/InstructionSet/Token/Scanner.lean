import InstructionSet.Token
import InstructionSet.Numeral

/-!
# Scanning a source text

A source is white space, comments and spellings, in turn. A comment runs from a number sign to the
end of its line. A spelling is cut off the front of a text by its first character: punctuation
stands for itself, an identifier and a numeral run as far as their characters do, and a quoted text
runs to its closing quotation mark, on the same line. A spelling that is no token is a fault, and
scanning goes on behind it.

Every cut takes at least one character (`Cut.spelling_ne_nil`) and loses none (`Cut.whole`), which
is why the scan comes to an end.
-/

namespace InstructionSet.Scanner

open InstructionSet.Text

set_option autoImplicit false

/-! ## Characters of identifiers -/

/-- Whether a character may start an identifier. -/
def startsIdentifier (c : Char) : Bool :=
  c.isAlpha || c = '_'

/-- Whether a character may stand inside an identifier. -/
def continuesIdentifier (c : Char) : Bool :=
  startsIdentifier c || c.isDigit || c = '.'

/-! ## White space and comments -/

/-- The blank text at the front of a text, and the text behind it; `inComment` says that the front
already belongs to a comment. -/
def splitBlank : (inComment : Bool) → List Char → List Char × List Char
  | _, [] => ([], [])
  | true, c :: rest =>
      let (blank, remainder) := splitBlank (c ≠ '\n') rest
      (c :: blank, remainder)
  | false, c :: rest =>
      if isWhiteSpace c || c = '#' then
        let (blank, remainder) := splitBlank (c = '#') rest
        (c :: blank, remainder)
      else
        ([], c :: rest)

theorem splitBlank_append (inComment : Bool) (text : List Char) :
    (splitBlank inComment text).1 ++ (splitBlank inComment text).2 = text := by
  induction text generalizing inComment with
  | nil => cases inComment <;> rfl
  | cons c rest ih =>
      cases inComment with
      | true => simpa [splitBlank] using ih _
      | false =>
          simp only [splitBlank]
          split
          · simpa using ih _
          · rfl

/-! ## Spellings -/

/-- The kind and the lexeme of a token, or what keeps a spelling from being one. A fault says
whether it lies behind the spelling rather than at its front. -/
inductive Reading where
  /-- A token. -/
  | token (kind : TokenKind) (lexeme : List Char)
  /-- A fault at the front of the spelling. -/
  | faultAtFront (error : SpellingError)
  /-- A fault behind the spelling. -/
  | faultBehind (error : SpellingError)

/-- A spelling cut off the front of a text. -/
structure Cut where
  /-- The characters cut off. -/
  spelling : List Char
  /-- The characters behind them. -/
  rest : List Char
  /-- What the spelling comes to. -/
  reading : Reading

namespace Cut

/-- What the cut comes to in a source where its spelling starts at a position. -/
def scanned (cut : Cut) (position : Position) : Scanned :=
  match cut.reading with
  | .token kind lexeme => .token ⟨kind, String.ofList lexeme, position⟩
  | .faultAtFront error => .fault ⟨error, position⟩
  | .faultBehind error => .fault ⟨error, position.after cut.spelling⟩

end Cut

/-- The characters of an identifier at the front of a text. -/
def cutIdentifier (text : List Char) : Cut where
  spelling := text.takeWhile continuesIdentifier
  rest := text.dropWhile continuesIdentifier
  reading := .token .identifier (text.takeWhile continuesIdentifier)

/-- Whether a character is a digit of a radix or separates digits. -/
def continuesNumber (radix : Nat) (c : Char) : Bool :=
  Numeral.isDigit radix c || c = '_'

/-- What a numeral comes to: it needs a digit, and no identifier may start right behind it. -/
def readNumber (radix : Nat) (digits rest spelling : List Char) : Reading :=
  if digits.any (Numeral.isDigit radix) then
    match rest with
    | [] => .token .number spelling
    | c :: _ => if startsIdentifier c then .faultBehind .runsIntoIdentifier
                else .token .number spelling
  else
    .faultAtFront .missingDigits

/-- The characters of a numeral at the front of a text, behind the sign already read. -/
def cutNumber (sign text : List Char) : Cut :=
  let (mark, radix, body) := Numeral.splitRadix text
  let digits := body.takeWhile (continuesNumber radix)
  let rest := body.dropWhile (continuesNumber radix)
  let spelling := sign ++ mark ++ digits
  ⟨spelling, rest, readNumber radix digits rest spelling⟩

/-- The character that an escaped character stands for. -/
def unescape (c : Char) : Char :=
  if c = 'n' then '\n' else if c = 't' then '\t' else c

/-- The rest of a quoted text behind its opening quotation mark: the characters up to and with the
closing mark, the text they quote, and what is behind. There is no quoted text when the line or the
source ends first, also when it ends behind a backslash. -/
def splitQuoted : List Char → List Char × Option (List Char) × List Char
  | [] => ([], none, [])
  | '"' :: rest => (['"'], some [], rest)
  | '\n' :: rest => ([], none, '\n' :: rest)
  | ['\\'] => (['\\'], none, [])
  | '\\' :: '\n' :: rest => (['\\'], none, '\n' :: rest)
  | '\\' :: c :: rest =>
      let (spelling, quoted, remainder) := splitQuoted rest
      ('\\' :: c :: spelling, quoted.map (unescape c :: ·), remainder)
  | c :: rest =>
      let (spelling, quoted, remainder) := splitQuoted rest
      (c :: spelling, quoted.map (c :: ·), remainder)

/-- A quoted text, without its opening quotation mark. -/
def cutQuoted (text : List Char) : Cut :=
  let (spelling, quoted, rest) := splitQuoted text
  let reading := match quoted with
    | some lexeme => .token .text lexeme
    | none => .faultAtFront .unterminated
  ⟨'"' :: spelling, rest, reading⟩

/-- Whether a text starts with a decimal digit. -/
def startsWithDigit : List Char → Bool
  | [] => false
  | c :: _ => c.isDigit

/-- The spelling at the front of a text that starts with a character. -/
def cut (c : Char) (rest : List Char) : Cut :=
  match TokenKind.ofPunctuation? c with
  | some kind => ⟨[c], rest, .token kind [c]⟩
  | none =>
      if c = '"' then cutQuoted rest
      else if c = '-' && startsWithDigit rest then cutNumber ['-'] rest
      else if c.isDigit then cutNumber [] (c :: rest)
      else if startsIdentifier c then cutIdentifier (c :: rest)
      else ⟨[c], rest, .faultAtFront (.unexpected c)⟩

/-! ### A cut loses no character and takes at least one -/

theorem cutIdentifier_whole (text : List Char) :
    (cutIdentifier text).spelling ++ (cutIdentifier text).rest = text :=
  List.takeWhile_append_dropWhile

theorem splitRadix_whole (text : List Char) :
    (Numeral.splitRadix text).1 ++ (Numeral.splitRadix text).2.2 = text := by
  unfold Numeral.splitRadix
  split
  · split <;> rfl
  · rfl

theorem cutNumber_whole (sign text : List Char) :
    (cutNumber sign text).spelling ++ (cutNumber sign text).rest = sign ++ text := by
  simp only [cutNumber, List.append_assoc, List.takeWhile_append_dropWhile, splitRadix_whole]

theorem splitQuoted_whole (text : List Char) :
    (splitQuoted text).1 ++ (splitQuoted text).2.2 = text := by
  fun_induction splitQuoted text <;> simp_all

theorem cutQuoted_whole (text : List Char) :
    (cutQuoted text).spelling ++ (cutQuoted text).rest = '"' :: text := by
  simpa [cutQuoted] using splitQuoted_whole text

/-- A cut is the whole text: its spelling, and then the rest. -/
theorem cut_whole (c : Char) (rest : List Char) :
    (cut c rest).spelling ++ (cut c rest).rest = c :: rest := by
  unfold cut
  split
  · rfl
  · split
    next quote => rw [quote]; exact cutQuoted_whole rest
    next =>
      split
      next minus =>
        simp only [Bool.and_eq_true, decide_eq_true_eq] at minus
        rw [minus.1]
        exact cutNumber_whole _ _
      next =>
        split
        · exact cutNumber_whole _ _
        · split
          · exact cutIdentifier_whole _
          · rfl

theorem splitRadix_cases (text : List Char) :
    (Numeral.splitRadix text).1 ≠ [] ∨ Numeral.splitRadix text = ([], 10, text) := by
  unfold Numeral.splitRadix
  split
  · split
    · exact .inl (List.cons_ne_nil _ _)
    · exact .inr rfl
  · exact .inr rfl

theorem isDigit_ten {c : Char} (digit : c.isDigit = true) : Numeral.isDigit 10 c = true := by
  have bounds : '0' ≤ c ∧ c ≤ '9' := by
    simp only [Char.isDigit, Bool.and_eq_true, decide_eq_true_eq] at digit
    exact digit
  have upper : c.toNat ≤ 57 := bounds.2
  have lower : 48 ≤ c.toNat := bounds.1
  simp only [Numeral.isDigit, Numeral.digit?, bounds, and_self, ↓reduceIte]
  simp only [Option.filter, Char.reduceToNat]
  rw [if_pos (by simp; omega)]
  rfl

theorem cutNumber_spelling_ne_nil {c : Char} (rest : List Char) (digit : c.isDigit = true) :
    (cutNumber [] (c :: rest)).spelling ≠ [] := by
  rcases splitRadix_cases (c :: rest) with marked | plain
  · simp [cutNumber, marked]
  · simp [cutNumber, plain, continuesNumber, isDigit_ten digit]

/-- A cut takes at least one character. -/
theorem cut_spelling_ne_nil (c : Char) (rest : List Char) : (cut c rest).spelling ≠ [] := by
  unfold cut
  split
  · simp
  · split
    next => simp [cutQuoted]
    next =>
      split
      next => simp [cutNumber]
      next =>
        split
        next digit => exact cutNumber_spelling_ne_nil rest digit
        next =>
          split
          next starts =>
            simp [cutIdentifier, continuesIdentifier, starts]
          next => simp

theorem cut_rest_length (c : Char) (rest : List Char) :
    (cut c rest).rest.length < (c :: rest).length := by
  have whole := congrArg List.length (cut_whole c rest)
  have positive := List.length_pos_iff.2 (cut_spelling_ne_nil c rest)
  rw [List.length_append] at whole
  omega

/-! ## Scanning on -/

/-- The part of a source that is still to be scanned. -/
structure Tail where
  /-- Where the part starts. -/
  position : Position
  /-- Its characters. -/
  text : List Char

namespace Tail

/-- The part of a source behind the blank text at its front. -/
def skipBlank (tail : Tail) : Tail :=
  let (blank, text) := splitBlank false tail.text
  ⟨tail.position.after blank, text⟩

/-- What the next spelling comes to, and the part of the source behind it. The end of the source is
a token too, and comes again as often as it is asked for. -/
def next (tail : Tail) : Scanned × Tail :=
  match tail.skipBlank with
  | ⟨position, []⟩ => (.token (.finish position), ⟨position, []⟩)
  | ⟨position, c :: rest⟩ =>
      let cut := cut c rest
      (cut.scanned position, ⟨position.after cut.spelling, cut.rest⟩)

theorem skipBlank_length_le (tail : Tail) :
    tail.skipBlank.text.length ≤ tail.text.length := by
  have whole := congrArg List.length (splitBlank_append false tail.text)
  rw [List.length_append] at whole
  simp only [skipBlank]
  omega

/-- Unless only blank text is left, the next spelling takes at least one character. -/
theorem next_length_lt {tail : Tail} (more : tail.skipBlank.text ≠ []) :
    tail.next.2.text.length < tail.text.length := by
  have blank := tail.skipBlank_length_le
  unfold next
  split
  next same => simp [same] at more
  next c rest same =>
    rw [same] at blank
    exact Nat.lt_of_lt_of_le (cut_rest_length c rest) blank

end Tail

/-- Everything that a source comes to: its tokens and faults in order, and where it ends. -/
structure Stream where
  /-- The tokens and faults, without the token that marks the end. -/
  entries : List Scanned
  /-- Where the source ends, blank text included. -/
  finish : Position

/-- What a part of a source comes to. -/
def Tail.stream (tail : Tail) : Stream :=
  if _blank : tail.skipBlank.text = [] then
    ⟨[], tail.skipBlank.position⟩
  else
    let stream := stream tail.next.2
    ⟨tail.next.1 :: stream.entries, stream.finish⟩
termination_by tail.text.length
decreasing_by exact next_length_lt _blank

/-- What a source comes to. -/
def scan (source : String) : Stream :=
  Tail.stream ⟨.origin, source.toList⟩

end InstructionSet.Scanner
