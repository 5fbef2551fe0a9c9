import InstructionSet.Proofs.Token.Lines
import Mathlib.Data.List.Induction

/-!
# Tiling a source with its tokens

A source without faults of spelling is tiled by its tokens: it is blank text, the spelling of the
first token, blank text, the spelling of the second one, and so on, with blank text at its end
(`Scanner.tiles_of_scan`). No character is left out and none is used twice.

The tiles are said without the scanner. Blank text is white space and comments, a comment runs to
the end of its line (`Scanner.Blank`), a quoted text is spelled with escapes between quotation marks
(`Scanner.Quotes`), and any other token is spelled as its lexeme. Every token stands where the
characters in front of it say: its line is counted by their newlines, and its column by those behind
the last newline (`Text.Position.endOf`).
-/

namespace InstructionSet

open InstructionSet.Text

set_option autoImplicit false

/-! ## Counting lines and columns -/

namespace Text.Position

/-- The position behind a text, counted in newlines and in characters behind the last one. -/
def endOf (text : List Char) : Position where
  line := 1 + text.count '\n'
  column := 1 + (text.reverse.takeWhile (· ≠ '\n')).length

/-- Reading a text leads to the position that is counted. -/
theorem origin_after (text : List Char) : origin.after text = endOf text := by
  induction text using List.reverseRecOn with
  | nil => rfl
  | append_singleton text c ih =>
      rw [after_append, ih, after_cons, after_nil, step, endOf, endOf, List.reverse_concat,
        List.count_append]
      by_cases newline : c = '\n'
      · rw [if_pos newline, newline, List.takeWhile_cons_of_neg (by decide)]
        rfl
      · rw [if_neg newline, List.takeWhile_cons_of_pos (by simpa using newline),
          List.count_singleton, if_neg (by simpa using newline)]
        rfl

end Text.Position

namespace Scanner

/-! ## Blank text -/

/-- A comment may end in front of a text that is empty or starts with a newline. -/
def EndsLine (text : List Char) : Prop :=
  ∀ c ∈ text.head?, c = '\n'

/-- White space and comments in front of some other text. -/
inductive Blank (behind : List Char) : List Char → Prop where
  /-- No text. -/
  | nil : Blank behind []
  /-- A character of white space. -/
  | space {c : Char} {rest : List Char} (white : isWhiteSpace c = true)
      (others : Blank behind rest) : Blank behind (c :: rest)
  /-- A comment, which runs up to a newline or to the end. -/
  | comment {characters rest : List Char} (oneLine : '\n' ∉ characters)
      (ends : EndsLine (rest ++ behind)) (others : Blank behind rest) :
      Blank behind ('#' :: characters ++ rest)

/-- A comment that has begun runs to the end of its line, and blank text follows. -/
def Continues (behind blank : List Char) : Prop :=
  ∃ characters rest, blank = characters ++ rest ∧ '\n' ∉ characters ∧
    EndsLine (rest ++ behind) ∧ Blank behind rest

theorem Continues.cons {behind blank : List Char} (continues : Continues behind blank) {c : Char}
    (sameLine : c ≠ '\n') : Continues behind (c :: blank) := by
  obtain ⟨characters, rest, rfl, oneLine, ends, others⟩ := continues
  refine ⟨c :: characters, rest, rfl, ?_, ends, others⟩
  exact List.not_mem_cons_of_ne_of_not_mem (Ne.symm sameLine) oneLine

theorem Continues.comment {behind blank : List Char} (continues : Continues behind blank) :
    Blank behind ('#' :: blank) := by
  obtain ⟨characters, rest, rfl, oneLine, ends, others⟩ := continues
  exact .comment oneLine ends others

/-- What is split off the front of a text is blank, also behind the number sign of a comment. -/
theorem blank_and_continues_splitBlank (text : List Char) :
    Blank (splitBlank false text).2 (splitBlank false text).1 ∧
      Continues (splitBlank true text).2 (splitBlank true text).1 := by
  induction text with
  | nil =>
      refine ⟨.nil, [], [], rfl, List.not_mem_nil, ?_, .nil⟩
      intro c impossible
      cases impossible
  | cons c rest ih =>
      obtain ⟨blank, continues⟩ := ih
      constructor
      · rw [splitBlank]
        split
        next skipped =>
          by_cases sign : c = '#'
          · subst sign
            exact continues.comment
          · have white : isWhiteSpace c = true := by simpa [sign] using skipped
            rw [decide_eq_false sign]
            exact .space white blank
        next => exact .nil
      · rw [splitBlank]
        by_cases newline : c = '\n'
        · subst newline
          refine ⟨[], _, rfl, List.not_mem_nil, ?_, .space (by decide) blank⟩
          intro c first
          exact (Option.some.inj first).symm
        · rw [decide_eq_true newline]
          exact continues.cons newline

/-! ## Spellings -/

/-- What stands between quotation marks for a text. -/
inductive Quotes : (quoted text : List Char) → Prop where
  /-- Nothing. -/
  | nil : Quotes [] []
  /-- A character that needs no escape. -/
  | plain {c : Char} {quoted text : List Char} (notMark : c ≠ '"') (notBackslash : c ≠ '\\')
      (notNewline : c ≠ '\n') (others : Quotes quoted text) : Quotes (c :: quoted) (c :: text)
  /-- An escaped newline. -/
  | newline {quoted text : List Char} (others : Quotes quoted text) :
      Quotes ('\\' :: 'n' :: quoted) ('\n' :: text)
  /-- An escaped tab. -/
  | tab {quoted text : List Char} (others : Quotes quoted text) :
      Quotes ('\\' :: 't' :: quoted) ('\t' :: text)
  /-- Another escaped character, which stands for itself. -/
  | escaped {c : Char} {quoted text : List Char} (notNewline : c ≠ '\n') (notN : c ≠ 'n')
      (notT : c ≠ 't') (others : Quotes quoted text) : Quotes ('\\' :: c :: quoted) (c :: text)

/-- How a token of a kind with a lexeme is spelled. -/
inductive Spells : (kind : TokenKind) → (lexeme spelling : List Char) → Prop where
  /-- A quoted text stands between quotation marks. -/
  | text {quoted lexeme : List Char} (quotes : Quotes quoted lexeme) :
      Spells .text lexeme ('"' :: quoted ++ ['"'])
  /-- Any other token is spelled as its lexeme. -/
  | plain {kind : TokenKind} {lexeme : List Char} (notText : kind ≠ .text) :
      Spells kind lexeme lexeme

theorem Quotes.unescape {quoted text : List Char} (quotes : Quotes quoted text) {c : Char}
    (notNewline : c ≠ '\n') : Quotes ('\\' :: c :: quoted) (unescape c :: text) := by
  unfold Scanner.unescape
  by_cases isN : c = 'n'
  · subst isN
    exact .newline quotes
  · by_cases isT : c = 't'
    · subst isT
      exact .tab quotes
    · rw [if_neg isN, if_neg isT]
      exact .escaped notNewline isN isT quotes

theorem quotes_of_splitQuoted {text spelling lexeme behind : List Char}
    (split : splitQuoted text = (spelling, some lexeme, behind)) :
    ∃ quoted, spelling = quoted ++ ['"'] ∧ Quotes quoted lexeme := by
  fun_induction splitQuoted text generalizing spelling lexeme behind with
  | case1 => cases split
  | case2 rest =>
      cases split
      exact ⟨[], rfl, .nil⟩
  | case3 => cases split
  | case4 => cases split
  | case5 => cases split
  | case6 c rest notNewline spelling quoted remainder others ih =>
      cases quoted with
      | none => cases split
      | some text =>
          cases split
          obtain ⟨quoted, rfl, quotes⟩ := ih others
          exact ⟨'\\' :: c :: quoted, rfl, quotes.unescape notNewline⟩
  | case7 c rest notMark notNewline alone _ escapes spelling quoted remainder others ih =>
      have notBackslash : c ≠ '\\' := by
        intro backslash
        cases rest with
        | nil => exact alone backslash rfl
        | cons next rest => exact escapes next rest backslash rfl
      cases quoted with
      | none => cases split
      | some text =>
          cases split
          obtain ⟨quoted, rfl, quotes⟩ := ih others
          exact ⟨c :: quoted, rfl, .plain notMark notBackslash notNewline quotes⟩

/-- The spelling is that of the token it comes to, if it comes to one. -/
def Cut.Spelled (cut : Cut) : Prop :=
  ∀ kind lexeme, cut.reading = .token kind lexeme → Spells kind lexeme cut.spelling

theorem spelled_cutQuoted (text : List Char) : (cutQuoted text).Spelled := by
  intro kind lexeme read
  cases split : splitQuoted text with
  | mk spelling found =>
      obtain ⟨quoted, behind⟩ := found
      rw [cutQuoted, split] at read ⊢
      cases quoted with
      | none => cases read
      | some text =>
          cases read
          obtain ⟨quoted, rfl, quotes⟩ := quotes_of_splitQuoted split
          exact .text quotes

theorem spelled_cutNumber (sign text : List Char) : (cutNumber sign text).Spelled := by
  intro kind lexeme read
  obtain ⟨rfl, rfl⟩ := readNumber_token read
  exact .plain (by decide)

theorem spelled_cutIdentifier (text : List Char) : (cutIdentifier text).Spelled := by
  intro kind lexeme read
  cases read
  exact .plain (by decide)

/-- A spelling that is cut off a text is that of its token. -/
theorem spelled_cut (c : Char) (rest : List Char) : (cut c rest).Spelled := by
  cases cut_cases c rest with
  | punctuation kind punctuation same =>
      intro found lexeme read
      rw [same] at read ⊢
      cases read
      exact .plain (ofPunctuation?_ne punctuation).2.2
  | quoted same => exact same ▸ spelled_cutQuoted rest
  | number sign text isSign whole starts same => exact same ▸ spelled_cutNumber sign text
  | identifier starts same => exact same ▸ spelled_cutIdentifier _
  | unexpected same =>
      intro kind lexeme read
      rw [same] at read
      cases read

/-! ## Tilings -/

/-- Behind some characters, a text is blank text and spellings in turn, each spelling that of the
next token, and the last token marks the end of the text. Every token stands where its spelling
starts. -/
inductive Tiles : (before text : List Char) → List Token → Prop where
  /-- Only blank text is left. -/
  | finish {before blank : List Char} (isBlank : Blank [] blank) :
      Tiles before blank [.finish (.endOf (before ++ blank))]
  /-- Blank text and a spelling stand in front of other tokens. -/
  | token {before blank spelling rest : List Char} {token : Token} {tokens : List Token}
      (isBlank : Blank (spelling ++ rest) blank) (notEmpty : spelling ≠ [])
      (spells : Spells token.kind token.lexeme.toList spelling) (notFinish : token.kind ≠ .finish)
      (placed : token.position = .endOf (before ++ blank))
      (others : Tiles (before ++ (blank ++ spelling)) rest tokens) :
      Tiles before (blank ++ spelling ++ rest) (token :: tokens)

variable {tail : Tail}

/-- The blank text at the front of a source, and the source behind it. -/
theorem exists_blank_skipBlank (tail : Tail) :
    ∃ blank, tail.text = blank ++ tail.skipBlank.text ∧ Blank tail.skipBlank.text blank ∧
      tail.skipBlank.position = tail.position.after blank :=
  ⟨(splitBlank false tail.text).1, (splitBlank_append false tail.text).symm,
    (blank_and_continues_splitBlank tail.text).1, rfl⟩

/-- One answer that is a token takes blank text and the spelling of the token. -/
theorem exists_spelling_of_next (more : tail.skipBlank.text ≠ []) {token : Token}
    (answered : tail.next.1 = .token token) :
    ∃ blank spelling, tail.text = blank ++ spelling ++ tail.next.2.text ∧
      Blank (spelling ++ tail.next.2.text) blank ∧ spelling ≠ [] ∧
        Spells token.kind token.lexeme.toList spelling ∧
          token.position = tail.position.after blank ∧
            tail.next.2.position = tail.position.after (blank ++ spelling) := by
  obtain ⟨blank, whole, isBlank, start⟩ := exists_blank_skipBlank tail
  cases front : tail.skipBlank with
  | mk position text =>
      rw [front] at whole isBlank start more
      cases text with
      | nil => exact absurd rfl more
      | cons c rest =>
          obtain rfl : position = tail.position.after blank := start
          rw [Tail.next_of_skipBlank front] at answered ⊢
          refine ⟨blank, (cut c rest).spelling, ?_, ?_, cut_spelling_ne_nil c rest, ?_⟩
          · rw [List.append_assoc, cut_whole, whole]
          · rwa [cut_whole]
          · simp only [Cut.scanned] at answered
            split at answered
            next kind lexeme read =>
              cases answered
              rw [String.toList_ofList, Position.after_append]
              exact ⟨spelled_cut c rest kind lexeme read, rfl, rfl⟩
            next => cases answered
            next => cases answered

/-- A part of a source without faults is tiled by what it is scanned to. -/
theorem tiles_stream {before : List Char} {tokens : List Token}
    (start : tail.position = Position.origin.after before)
    (clean : tail.stream.results = tokens.map .token) : Tiles before tail.text tokens := by
  -- The characters in front grow by what each answer takes, and so do the counts.
  induction tail using Tail.stream.induct generalizing before tokens with
  | case1 tail noMore =>
      rw [Tail.stream, dif_pos noMore] at clean
      obtain ⟨blank, whole, isBlank, skipped⟩ := exists_blank_skipBlank tail
      rw [noMore, List.append_nil] at whole
      rw [noMore] at isBlank
      obtain ⟨token, rfl, same⟩ := List.map_eq_singleton_iff.1 clean.symm
      cases same
      rw [whole, skipped, start, ← Position.after_append, Position.origin_after]
      exact .finish isBlank
  | case2 tail more ih =>
      rw [Tail.stream, dif_neg more] at clean
      obtain ⟨token, others, rfl, answered, cleanRest⟩ := List.map_eq_cons_iff.1 clean.symm
      obtain ⟨blank, spelling, whole, isBlank, notEmpty, spells, placed, further⟩ :=
        exists_spelling_of_next more answered.symm
      rw [start, ← Position.after_append] at placed further
      rw [Position.origin_after] at placed
      rw [whole]
      have notFinish : token.kind ≠ .finish := (proper_of_next more answered.symm).notFinish
      exact .token isBlank notEmpty spells notFinish placed (ih further cleanRest.symm)

/-- **A source without faults of spelling is tiled by its tokens**, each at its place, with the
token that marks the end as the last one. -/
theorem tiles_of_scan {source : String} {tokens : List Token}
    (clean : (scan source).results = tokens.map .token) : Tiles [] source.toList tokens :=
  tiles_stream rfl clean

/-- A description with comments, escapes and characters of more than one byte. -/
def remarked : String :=
  "# lanes \"é\"\n:enum \"é\\\"\\t\\n\" \x7b # é\n\tvalue 8\x7d"

/-- Its tokens. -/
def remarkedTokens : List Token :=
  [⟨.colon, ":", ⟨2, 1⟩⟩, ⟨.identifier, "enum", ⟨2, 2⟩⟩, ⟨.text, "é\"\t\n", ⟨2, 7⟩⟩,
    ⟨.openBrace, "\x7b", ⟨2, 17⟩⟩, ⟨.identifier, "value", ⟨3, 2⟩⟩, ⟨.number, "8", ⟨3, 8⟩⟩,
    ⟨.closeBrace, "\x7d", ⟨3, 9⟩⟩, .finish ⟨3, 10⟩]

theorem tiles_of_scan_remarked : (scan remarked).results = remarkedTokens.map .token ∧
    Tiles [] remarked.toList remarkedTokens := by
  have clean : (scan remarked).results = remarkedTokens.map .token := by decide +kernel
  exact ⟨clean, tiles_of_scan clean⟩

end Scanner
end InstructionSet
