import Mathlib.Data.List.TakeWhile
import InstructionSet.Proofs.Fallible
import InstructionSet.Proofs.Grammar.Documents
import InstructionSet.Proofs.Grammar.Parallel
import InstructionSet.Proofs.Token.Scanned

/-!
# A document is read segment by segment

A segment of a source is a colon with the tokens up to the next colon. A directive takes exactly
its segment: no directive begins inside another, and none leaves a token behind. So a source is a
document exactly when it starts with a colon, every segment is one when read by itself, and no two
segments declare a lookup table of one name; and its directives are those that the segments are by
themselves.
-/

namespace InstructionSet.Grammar

open InstructionSet.Text InstructionSet.Scanner

set_option autoImplicit false

/-- The tokens in front of the first colon. -/
def leading (tokens : List Token) : List Token :=
  tokens.takeWhile (·.kind ≠ .colon)

/-- Each colon with the tokens up to the next one. -/
def segments : List Token → List (List Token)
  | [] => []
  | token :: rest =>
      if token.kind = .colon then (token :: leading rest) :: segments rest else segments rest

/-- The name of the lookup table that a segment declares, if it declares one. -/
def declaredTable? : List Token → Option String
  | _ :: keyword :: name :: _ =>
      if keyword.kind = .identifier ∧ keyword.lexeme = "lut" then some name.lexeme else none
  | _ => none

/-- A segment read by itself, in front of an end at some position. -/
def alone (path : String) (finish : Position) (segment : List Token) : Except Failure Document :=
  document path ⟨segment.map .token, finish⟩

/-! ## Segments and phrases -/

theorem leading_append_segments (tokens : List Token) :
    leading tokens ++ (segments tokens).flatten = tokens := by
  induction tokens with
  | nil => rfl
  | cons token rest ih =>
      by_cases colon : token.kind = .colon
      · have none : leading (token :: rest) = [] := by simp [leading, colon]
        rw [none, segments, if_pos colon, List.flatten_cons, List.nil_append, List.cons_append, ih]
      · have front : leading (token :: rest) = token :: leading rest := by simp [leading, colon]
        rw [front, segments, if_neg colon, List.cons_append, ih]

theorem leading_append {tokens : List Token} (rest : List Token)
    (apart : ∀ token ∈ tokens, token.kind ≠ .colon) :
    leading (tokens ++ rest) = tokens ++ leading rest :=
  List.takeWhile_append_of_pos fun token member => decide_eq_true (apart token member)

theorem segments_append {tokens : List Token} (rest : List Token)
    (apart : ∀ token ∈ tokens, token.kind ≠ .colon) :
    segments (tokens ++ rest) = segments rest := by
  induction tokens with
  | nil => rfl
  | cons token tokens ih =>
      rw [List.cons_append, segments, if_neg (apart token List.mem_cons_self)]
      exact ih fun found member => apart found (List.mem_cons_of_mem _ member)

theorem leading_append_colon (tokens : List Token) {mark : Token} (rest : List Token)
    (isMark : mark.kind = .colon) : leading (tokens ++ mark :: rest) = leading tokens := by
  induction tokens with
  | nil => simp [leading, isMark]
  | cons token tokens ih =>
      simp only [leading, List.cons_append, List.takeWhile_cons] at ih ⊢
      rw [ih]

/-- A colon starts a segment, whatever stands in front of it. -/
theorem segments_append_colon (tokens : List Token) {mark : Token} (rest : List Token)
    (isMark : mark.kind = .colon) :
    segments (tokens ++ mark :: rest) =
      segments tokens ++ (mark :: leading rest) :: segments rest := by
  induction tokens with
  | nil => simp [segments, isMark]
  | cons token tokens ih =>
      rw [List.cons_append, segments, segments, ih, leading_append_colon tokens rest isMark]
      split <;> rfl

theorem apart_leading (tokens : List Token) : ∀ token ∈ leading tokens, token.kind ≠ .colon := by
  intro token member
  have kept := @List.mem_takeWhile_imp Token (·.kind ≠ .colon) tokens token member
  exact of_decide_eq_true kept

theorem Inside.apart {tokens : List Token} (inside : Inside tokens) :
    ∀ token ∈ tokens, token.kind ≠ .colon := by
  intro token member colon
  have apart := inside token member
  simp [isBoundary, colon] at apart

theorem segments_single {mark : Token} {rest : List Token} (isMark : mark.kind = .colon)
    (apart : ∀ token ∈ rest, token.kind ≠ .colon) :
    segments (mark :: rest) = [mark :: rest] := by
  have front : leading rest = rest :=
    List.takeWhile_eq_self_iff.2 fun token member => decide_eq_true (apart token member)
  have behind : segments rest = [] := by
    have whole := segments_append [] apart
    rwa [List.append_nil] at whole
  rw [segments, if_pos isMark, front, behind]

theorem segments_flatten {directives : List Directive} {phrases : List (List Token)}
    (read : List.Forall₂ DirectivePhrase directives phrases) :
    leading phrases.flatten = [] ∧ segments phrases.flatten = phrases := by
  induction read with
  | nil => exact ⟨rfl, rfl⟩
  | cons phrase _ ih =>
      obtain ⟨mark, rest, rfl, isMark, inside⟩ := phrase.inside
      obtain ⟨starts, same⟩ := ih
      rw [List.flatten_cons, List.cons_append]
      refine ⟨by simp [leading, isMark], ?_⟩
      rw [segments, if_pos isMark, leading_append _ inside.apart, segments_append _ inside.apart,
        starts, same, List.append_nil]

theorem mem_segments {tokens segment : List Token} (member : segment ∈ segments tokens) :
    segments segment = [segment] ∧ ∀ token ∈ segment, token ∈ tokens := by
  induction tokens with
  | nil => cases member
  | cons token rest ih =>
      have later : segment ∈ segments rest →
          segments segment = [segment] ∧ ∀ found ∈ segment, found ∈ token :: rest := by
        intro member
        obtain ⟨single, listed⟩ := ih member
        exact ⟨single, fun found inside => List.mem_cons_of_mem _ (listed found inside)⟩
      by_cases colon : token.kind = .colon
      · rw [segments, if_pos colon] at member
        rcases List.mem_cons.1 member with rfl | member
        · refine ⟨segments_single colon (apart_leading rest), fun found listed => ?_⟩
          rcases List.mem_cons.1 listed with rfl | inside
          · exact List.mem_cons_self
          · exact List.mem_cons_of_mem _ (List.takeWhile_subset _ inside)
        · exact later member
      · rw [segments, if_neg colon] at member
        exact later member

theorem NamedPhrase.declares {directive : Directive} {keyword : Token} {tokens : List Token}
    (phrase : NamedPhrase directive keyword.lexeme tokens) (isKeyword : keyword.kind = .identifier)
    (mark : Token) :
    (declaredTable? (mark :: keyword :: tokens)).toList = tableNames directive := by
  generalize same : keyword.lexeme = word at phrase
  cases phrase <;>
    simp [declaredTable?, isKeyword, same, tableNames, Directive.lookupTable?]

theorem DirectivePhrase.declares {directive : Directive} {tokens : List Token}
    (phrase : DirectivePhrase directive tokens) :
    (declaredTable? tokens).toList = tableNames directive := by
  cases phrase with
  | directive mark keyword isMark isKeyword named => exact named.declares isKeyword mark

theorem filterMap_declaredTable? {directives : List Directive} {phrases : List (List Token)}
    (read : List.Forall₂ DirectivePhrase directives phrases) :
    phrases.filterMap declaredTable? = directives.flatMap tableNames := by
  induction read with
  | nil => rfl
  | cons phrase _ ih =>
      rw [List.flatMap_cons, ← ih, ← phrase.declares, List.filterMap_cons]
      cases declaredTable? _ <;> rfl

/-! ## Segments by themselves -/

theorem DirectivePhrase.kind_ne {directive : Directive} {tokens : List Token}
    (phrase : DirectivePhrase directive tokens) : ∀ token ∈ tokens, token.kind ≠ .finish := by
  obtain ⟨mark, rest, rfl, isMark, inside⟩ := phrase.inside
  intro token member atEnd
  rcases List.mem_cons.1 member with rfl | later
  · rw [isMark] at atEnd
    cases atEnd
  · have apart := inside token later
    simp [isBoundary, atEnd] at apart

/-- The phrases of directives are a document by themselves, unless tables have one name. -/
theorem alone_of_phrases {path : String} {finish : Position} {directives : List Directive}
    {phrases : List (List Token)} (read : List.Forall₂ DirectivePhrase directives phrases)
    (distinct : (directives.flatMap tableNames).Nodup) :
    alone path finish phrases.flatten = .ok ⟨path, directives⟩ := by
  have inside : ∀ token ∈ phrases.flatten, token.kind ≠ .finish := by
    intro token member
    obtain ⟨phrase, listed, here⟩ := List.mem_flatten.1 member
    obtain ⟨directive, -, phrase⟩ := Fallible.exists_of_forall₂ read listed
    exact phrase.kind_ne token here
  refine (document_eq_ok_iff (endless_map inside finish)).2 ⟨rfl, ⟨phrases, rfl, read⟩, ?_⟩
  rw [← flatMap_tableNames]
  exact distinct

/-- The phrase of a directive is a document by itself, of this directive only. -/
theorem alone_of_phrase {path : String} {finish : Position} {directive : Directive}
    {segment : List Token} (phrase : DirectivePhrase directive segment) :
    alone path finish segment = .ok ⟨path, [directive]⟩ := by
  have distinct : ([directive].flatMap tableNames).Nodup := by
    rw [List.flatMap_singleton]
    exact nodup_tableNames directive
  have read := @alone_of_phrases path finish _ _ (.cons phrase .nil) distinct
  rwa [List.flatten_singleton] at read

/-- A segment that is a document by itself is the phrase of a directive. -/
theorem exists_phrase_of_alone {path : String} {finish : Position} {tokens segment : List Token}
    {found : Document} (inside : ∀ token ∈ tokens, token.kind ≠ .finish)
    (member : segment ∈ segments tokens) (read : alone path finish segment = .ok found) :
    ∃ directive, DirectivePhrase directive segment := by
  obtain ⟨single, listed⟩ := mem_segments member
  have endless := endless_map (fun token here => inside token (listed token here)) finish
  obtain ⟨-, ⟨phrases, entries, directives⟩, -⟩ := (document_eq_ok_iff endless).1 read
  have whole : segment = phrases.flatten := tokens_inj entries
  have only : phrases = [segment] := by
    rw [← (segments_flatten directives).2, ← whole, single]
  rw [only] at directives
  obtain ⟨directive, rest, phrase, -, -⟩ := List.forall₂_cons_right_iff.1 directives
  exact ⟨directive, phrase⟩

end InstructionSet.Grammar

namespace InstructionSet.Document

open InstructionSet.Text InstructionSet.Scanner InstructionSet.Grammar

set_option autoImplicit false

theorem endless_scan (source : String) : Endless (scan source) :=
  fun _ member => (proper_of_mem_scan member).notFinish

theorem inside_of_scan {source : String} {tokens : List Token}
    (entries : (scan source).entries = tokens.map .token) :
    ∀ token ∈ tokens, token.kind ≠ .finish := by
  intro token member
  refine endless_scan source token ?_
  rw [entries]
  exact List.mem_map_of_mem member

theorem parse_eq_ok_iff {path source : String} {document : Document} :
    parse path source = .ok document ↔ document.path = path ∧
      (∃ phrases, (scan source).entries = phrases.flatten.map .token ∧
        List.Forall₂ DirectivePhrase document.directives phrases) ∧
      (document.lookupTables.map (·.name)).Nodup :=
  document_eq_ok_iff (endless_scan source)

/-! ## Segments laid out in another way -/

section Alike

variable {path text : String} {finish : Position} {segment others : List Token} {found : Document}

theorem parse_of_alone (same : (scan text).entries = others.map .token)
    (alike : Alike others segment) (read : alone path finish segment = .ok found) :
    ∃ again, parse path text = .ok again ∧ again.unplaced = found.unplaced := by
  obtain ⟨again, parsed, unplaced⟩ :=
    @document_alike path path _ _ _ (scan text).finish _ alike.symm read
  refine ⟨again, ?_, unplaced.symm⟩
  rw [← parsed]
  show document path (scan text) = _
  rw [← same]

theorem alone_of_parse (same : (scan text).entries = others.map .token)
    (alike : Alike others segment) (read : parse path text = .ok found) :
    ∃ again, alone path finish segment = .ok again ∧ again.unplaced = found.unplaced := by
  have parsed : document path ⟨others.map .token, (scan text).finish⟩ = .ok found := by
    rw [← read]
    show _ = document path (scan text)
    rw [← same]
  obtain ⟨again, read, unplaced⟩ := document_alike alike parsed
  exact ⟨again, read, unplaced.symm⟩

/-- A text that reads like the phrase of a directive is a document of this directive, up to
regions. -/
theorem parse_of_phrase {directive : Directive} (phrase : DirectivePhrase directive segment)
    (same : (scan text).entries = others.map .token) (alike : Alike others segment) :
    ∃ again, parse path text = .ok ⟨path, [again]⟩ ∧ again.unplaced = directive.unplaced := by
  obtain ⟨found, parsed, unplaced⟩ :=
    parse_of_alone same alike (@alone_of_phrase path .origin _ _ phrase)
  obtain ⟨rfl, -, -⟩ := parse_eq_ok_iff.1 parsed
  obtain ⟨again, rest, whole, first, none⟩ :=
    List.map_eq_cons_iff.1 (Document.mk.inj unplaced).2
  cases List.map_eq_nil_iff.1 none
  refine ⟨again, ?_, first⟩
  rw [parsed, ← whole]

end Alike

/-! ## Segment by segment -/

theorem exists_failure_of_fault {path source : String} {fault : SpellingFault}
    (listed : .fault fault ∈ (scan source).entries) :
    ∃ failure, parse path source = .error failure := by
  cases read : parse path source with
  | error failure => exact ⟨failure, rfl⟩
  | ok document =>
      obtain ⟨-, ⟨phrases, entries, -⟩, -⟩ := parse_eq_ok_iff.1 read
      rw [entries] at listed
      obtain ⟨token, -, impossible⟩ := List.mem_map.1 listed
      cases impossible

/-- The segments of a document are the phrases of its directives, and nothing stands in front. -/
theorem segments_of_parse {path source : String} {tokens : List Token} {document : Document}
    (entries : (scan source).entries = tokens.map .token)
    (read : parse path source = .ok document) :
    leading tokens = [] ∧ List.Forall₂ DirectivePhrase document.directives (segments tokens) ∧
      ((segments tokens).filterMap declaredTable?).Nodup := by
  obtain ⟨-, ⟨phrases, whole, directives⟩, distinct⟩ := parse_eq_ok_iff.1 read
  obtain rfl : tokens = phrases.flatten := tokens_inj (entries.symm.trans whole)
  obtain ⟨starts, same⟩ := segments_flatten directives
  rw [same, filterMap_declaredTable? directives, flatMap_tableNames]
  exact ⟨starts, directives, distinct⟩

/-- Segments that are documents by themselves are a document together. -/
theorem exists_parse_of_segments {path source : String} {finish : Position} {tokens : List Token}
    (entries : (scan source).entries = tokens.map .token) (starts : leading tokens = [])
    (each : ∀ segment ∈ segments tokens, ∃ document, alone path finish segment = .ok document)
    (distinct : ((segments tokens).filterMap declaredTable?).Nodup) :
    ∃ document, parse path source = .ok document := by
  have phrase : ∀ segment ∈ segments tokens, ∃ directive, DirectivePhrase directive segment := by
    intro segment member
    obtain ⟨document, read⟩ := each segment member
    exact exists_phrase_of_alone (inside_of_scan entries) member read
  obtain ⟨directives, read⟩ := Fallible.forall₂_of_exists phrase
  have whole := leading_append_segments tokens
  rw [starts, List.nil_append] at whole
  refine ⟨⟨path, directives⟩, parse_eq_ok_iff.2 ⟨rfl, ⟨segments tokens, ?_, read.flip⟩, ?_⟩⟩
  · rw [whole, entries]
  · rw [← flatMap_tableNames, ← filterMap_declaredTable? read.flip]
    exact distinct

/-- **Segment by segment.** A source with a fault of spelling is no document. Any other source is
one exactly when it starts with a colon, every segment is a document by itself, and no two segments
declare a lookup table of one name; and then it has one directive for each segment, the only one of
the segment by itself. Whether a segment is a document does not depend on how it is laid out, and
neither does its directive, up to regions. -/
theorem parse_segments (path source : String) (finish : Position) :
    ((∃ fault, .fault fault ∈ (scan source).entries) →
      ∃ failure, parse path source = .error failure) ∧
    ∀ tokens, (scan source).entries = tokens.map .token →
      ((∃ document, parse path source = .ok document) ↔
        leading tokens = [] ∧
        (∀ segment ∈ segments tokens, ∃ document, alone path finish segment = .ok document) ∧
        ((segments tokens).filterMap declaredTable?).Nodup) ∧
      (∀ document, parse path source = .ok document →
        List.Forall₂ (fun segment directive =>
          alone path finish segment = .ok ⟨path, [directive]⟩ ∧
          ∀ text others, (scan text).entries = others.map .token → Alike others segment →
            ∃ again, parse path text = .ok ⟨path, [again]⟩ ∧ again.unplaced = directive.unplaced)
          (segments tokens) document.directives) ∧
      ∀ segment ∈ segments tokens, ∀ text others, (scan text).entries = others.map .token →
        Alike others segment →
          ((∃ document, parse path text = .ok document) ↔
            ∃ document, alone path finish segment = .ok document) := by
  constructor
  · rintro ⟨fault, listed⟩
    exact exists_failure_of_fault listed
  · intro tokens entries
    refine ⟨⟨?_, ?_⟩, ?_, ?_⟩
    · rintro ⟨document, read⟩
      obtain ⟨starts, directives, distinct⟩ := segments_of_parse entries read
      refine ⟨starts, ?_, distinct⟩
      intro segment member
      obtain ⟨directive, -, phrase⟩ := Fallible.exists_of_forall₂ directives member
      exact ⟨_, alone_of_phrase phrase⟩
    · rintro ⟨starts, each, distinct⟩
      exact exists_parse_of_segments entries starts each distinct
    · intro document read
      obtain ⟨-, directives, -⟩ := segments_of_parse entries read
      refine directives.flip.imp ?_
      intro segment directive phrase
      refine ⟨alone_of_phrase phrase, ?_⟩
      intro text others same alike
      exact parse_of_phrase phrase same alike
    · intro segment member text others same alike
      constructor
      · rintro ⟨document, read⟩
        obtain ⟨again, parsed, -⟩ := alone_of_parse same alike read
        exact ⟨again, parsed⟩
      · rintro ⟨document, read⟩
        obtain ⟨again, parsed, -⟩ := parse_of_alone same alike read
        exact ⟨again, parsed⟩

/-- A lookup table and an instruction, with a comment between them. -/
def constantAndNop : String :=
  ":lut one \x7b 1 \x7d # a constant\n:ins NOP opcode=0"

theorem parse_segments_constantAndNop :
    (∃ failure, parse "" ":lut %" = .error failure) ∧
    ∃ tokens document, (scan constantAndNop).entries = tokens.map .token ∧
      parse "" constantAndNop = .ok document ∧
      List.Forall₂ (fun segment directive => alone "" .origin segment = .ok ⟨"", [directive]⟩)
        (segments tokens) document.directives := by
  have fault : .fault ⟨.unexpected '%', ⟨1, 6⟩⟩ ∈ (scan ":lut %").entries := by decide +kernel
  refine ⟨(parse_segments "" ":lut %" .origin).1 ⟨_, fault⟩, ?_⟩
  let tokens := (scan constantAndNop).entries.filterMap
    fun | .token token => some token | .fault _ => none
  have entries : (scan constantAndNop).entries = tokens.map .token := by decide +kernel
  obtain ⟨document, read⟩ : ∃ document, parse "" constantAndNop = .ok document :=
    Fallible.exists_eq_ok (by decide +kernel)
  have each := ((parse_segments "" constantAndNop .origin).2 tokens entries).2.1 document read
  exact ⟨tokens, document, entries, read, each.imp fun _ _ both => both.1⟩

end InstructionSet.Document
