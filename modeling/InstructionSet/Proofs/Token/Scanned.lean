import InstructionSet.Proofs.Fallible
import InstructionSet.Token.Scanner

/-!
# The tokens of a source

Whatever stands in the entries of a scan was cut off the front of some text. Two facts about the
tokens among them follow from that: the token that marks the end is not one of them, and the lexeme
of an identifier is spelled as one. Tokens are alike when they differ in their places only.
-/

namespace InstructionSet

open InstructionSet.Text

set_option autoImplicit false

/-! ## Tokens up to their places -/

/-- The token without its place. -/
def Token.unplaced (token : Token) : Token :=
  { token with position := .origin }

/-- Tokens of one kind and lexeme. -/
def Token.Alike (token other : Token) : Prop :=
  token.unplaced = other.unplaced

theorem Token.Alike.kind {token other : Token} (alike : token.Alike other) :
    token.kind = other.kind :=
  (Token.mk.inj alike).1

theorem Token.Alike.lexeme {token other : Token} (alike : token.Alike other) :
    token.lexeme = other.lexeme :=
  (Token.mk.inj alike).2.1

instance : DecidableRel Token.Alike :=
  fun token other => inferInstanceAs (Decidable (token.unplaced = other.unplaced))

/-- Tokens of one kind and lexeme, or faults of spelling with one error. -/
inductive Scanned.Alike : Scanned → Scanned → Prop where
  | token {token other : Token} (alike : token.Alike other) : Alike (.token token) (.token other)
  | fault {fault other : SpellingFault} (error : fault.error = other.error) :
      Alike (.fault fault) (.fault other)

theorem Scanned.Alike.symm {entry other : Scanned} (alike : entry.Alike other) :
    other.Alike entry := by
  cases alike with
  | token same => exact .token same.symm
  | fault same => exact .fault same.symm

instance : DecidableRel Scanned.Alike
  | .token _, .token _ => decidable_of_iff _ ⟨.token, fun (.token alike) => alike⟩
  | .fault _, .fault _ => decidable_of_iff _ ⟨.fault, fun (.fault error) => error⟩
  | .token _, .fault _ => isFalse fun same => by cases same
  | .fault _, .token _ => isFalse fun same => by cases same

namespace Scanner

/-- Tokens of the same kinds and lexemes, wherever they stand. -/
def Alike (first second : List Token) : Prop :=
  first.map (·.unplaced) = second.map (·.unplaced)

theorem forall₂_of_alike {tokens others : List Token} (alike : Alike tokens others) :
    List.Forall₂ Scanned.Alike (tokens.map .token) (others.map .token) := by
  rw [List.forall₂_map_left_iff, List.forall₂_map_right_iff]
  exact (Fallible.map_eq_map_iff.1 alike).imp fun _ _ same => .token same

/-! ## What is known of scanned tokens -/

/-- Whether a text is spelled as an identifier: a letter or an underscore, and then letters, digits,
underscores and dots. -/
def isIdentifier (text : List Char) : Bool :=
  match text with
  | [] => false
  | c :: rest => startsIdentifier c && rest.all continuesIdentifier

/-- What is known of a scanned token. -/
structure Proper (token : Token) : Prop where
  notFinish : token.kind ≠ .finish
  identifier : token.kind = .identifier → isIdentifier token.lexeme.toList = true

theorem ofPunctuation?_ne {c : Char} {kind : TokenKind}
    (found : TokenKind.ofPunctuation? c = some kind) :
    kind ≠ .finish ∧ kind ≠ .identifier ∧ kind ≠ .text := by
  unfold TokenKind.ofPunctuation? at found
  split at found <;> cases found <;> exact ⟨by decide, by decide, by decide⟩

theorem readNumber_token {radix : Nat} {digits rest spelling lexeme : List Char} {kind : TokenKind}
    (read : readNumber radix digits rest spelling = .token kind lexeme) :
    kind = .number ∧ lexeme = spelling := by
  unfold readNumber at read
  split at read
  next =>
    split at read
    next => cases read; exact ⟨rfl, rfl⟩
    next =>
      split at read
      next => cases read
      next => cases read; exact ⟨rfl, rfl⟩
  next => cases read

/-- What is cut off a text that starts with a character: punctuation, a quoted text, a numeral
behind its sign, an identifier, or a character that starts no token. -/
inductive CutCase (c : Char) (rest : List Char) : Prop where
  | punctuation (kind : TokenKind) (found : TokenKind.ofPunctuation? c = some kind)
      (same : cut c rest = ⟨[c], rest, .token kind [c]⟩)
  | quoted (same : cut c rest = cutQuoted rest)
  | number (sign text : List Char) (isSign : sign = [] ∨ sign = ['-'])
      (whole : c :: rest = sign ++ text) (starts : startsWithDigit text = true)
      (same : cut c rest = cutNumber sign text)
  | identifier (starts : startsIdentifier c = true) (same : cut c rest = cutIdentifier (c :: rest))
  | unexpected (same : cut c rest = ⟨[c], rest, .faultAtFront (.unexpected c)⟩)

theorem cut_cases (c : Char) (rest : List Char) : CutCase c rest := by
  cases punctuation : TokenKind.ofPunctuation? c with
  | some kind => exact .punctuation kind punctuation (by simp only [cut, punctuation])
  | none =>
      by_cases quote : c = '"'
      · exact .quoted (by simp only [cut, punctuation, if_pos quote])
      · by_cases minus : (c = '-' && startsWithDigit rest) = true
        · obtain ⟨same, digit⟩ := Bool.and_eq_true_iff.1 minus
          refine .number ['-'] rest (.inr rfl) ?_ digit ?_
          · rw [of_decide_eq_true same]
            rfl
          · simp only [cut, punctuation, if_neg quote, if_pos minus]
        · by_cases digit : c.isDigit = true
          · refine .number [] (c :: rest) (.inl rfl) rfl digit ?_
            simp only [cut, punctuation, if_neg quote, if_neg minus, if_pos digit]
          · by_cases starts : startsIdentifier c = true
            · refine .identifier starts ?_
              simp only [cut, punctuation, if_neg quote, if_neg minus, if_neg digit, if_pos starts]
            · refine .unexpected ?_
              simp only [cut, punctuation, if_neg quote, if_neg minus, if_neg digit, if_neg starts]

theorem cutQuoted_token {rest lexeme : List Char} {kind : TokenKind}
    (read : (cutQuoted rest).reading = .token kind lexeme) : kind = .text := by
  simp only [cutQuoted] at read
  split at read
  next => cases read; rfl
  next => cases read

/-- A token that was cut off a text is of a kind other than the end, and an identifier is spelled as
one. -/
theorem cut_token {c : Char} {rest lexeme : List Char} {kind : TokenKind}
    (read : (cut c rest).reading = .token kind lexeme) :
    kind ≠ .finish ∧ (kind = .identifier → isIdentifier lexeme = true) := by
  cases cut_cases c rest with
  | punctuation found punctuation same =>
      rw [same] at read
      cases read
      obtain ⟨notFinish, notIdentifier, -⟩ := ofPunctuation?_ne punctuation
      exact ⟨notFinish, fun same => absurd same notIdentifier⟩
  | quoted same =>
      rw [same] at read
      obtain rfl := cutQuoted_token read
      exact ⟨by decide, fun impossible => by cases impossible⟩
  | number sign text isSign whole starts same =>
      rw [same] at read
      obtain ⟨rfl, -⟩ := readNumber_token read
      exact ⟨by decide, fun impossible => by cases impossible⟩
  | identifier starts same =>
      rw [same] at read
      cases read
      refine ⟨by decide, fun _ => ?_⟩
      have continues : continuesIdentifier c = true := by
        simp [continuesIdentifier, starts]
      rw [List.takeWhile_cons_of_pos continues]
      simp [isIdentifier, starts]
  | unexpected same =>
      rw [same] at read
      cases read

theorem proper_of_scanned {c : Char} {rest : List Char} {position : Position} {token : Token}
    (scanned : (cut c rest).scanned position = .token token) : Proper token := by
  unfold Cut.scanned at scanned
  split at scanned
  next kind lexeme read =>
    cases scanned
    obtain ⟨notFinish, spelled⟩ := cut_token read
    refine ⟨notFinish, fun same => ?_⟩
    rw [String.toList_ofList]
    exact spelled same
  next => cases scanned
  next => cases scanned

theorem proper_of_next {tail : Tail} (more : tail.skipBlank.text ≠ []) {token : Token}
    (next : tail.next.1 = .token token) : Proper token := by
  unfold Tail.next at next
  split at next
  next same => simp [same] at more
  next => exact proper_of_scanned next

theorem proper_of_mem_stream {tail : Tail} {token : Token}
    (member : .token token ∈ tail.stream.entries) : Proper token := by
  fun_induction Tail.stream tail with
  | case1 tail blank => cases member
  | case2 tail more stream ih =>
      rcases List.mem_cons.1 member with here | later
      · exact proper_of_next more here.symm
      · exact ih later

theorem proper_of_mem_scan {source : String} {token : Token}
    (member : .token token ∈ (scan source).entries) : Proper token :=
  proper_of_mem_stream member

end Scanner
end InstructionSet
