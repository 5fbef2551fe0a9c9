import InstructionSet.Proofs.Grammar.Refills
import InstructionSet.Proofs.Grammar.SlotSearch

/-!
# Attributes are a set

The attributes of a construct are a set of keys with values, in which the case of keys does not
matter. A document stays a document when attributes in a slot of it give way to others, unless the
construct refuses these (`refill_alone`); wherever attributes stand in a document, they stand in a
slot (`exists_list_of_alone`), so they may be rearranged without knowing which construct reads them
(`exists_alone_of_rearranged`). A source is treated like its tokens, wherever these stand in it
(`ScansAs`).
-/

namespace InstructionSet.Grammar

open InstructionSet.Text InstructionSet.Scanner
open Writing (lowerKeys HaveValues attributesPhrase_attributes)

set_option autoImplicit false

/-! ## Documents with other attributes in a slot -/

/-- The segments of a document that stands by itself are the phrases of its directives. -/
theorem segments_of_alone {path : String} {finish : Position} {tokens : List Token}
    {document : Document} (inside : ∀ token ∈ tokens, token.kind ≠ .finish)
    (read : alone path finish tokens = .ok document) :
    leading tokens = [] ∧ List.Forall₂ DirectivePhrase document.directives (segments tokens) ∧
      (document.directives.flatMap tableNames).Nodup := by
  obtain ⟨-, ⟨phrases, entries, directives⟩, distinct⟩ :=
    (document_eq_ok_iff (endless_map inside finish)).1 read
  obtain rfl : tokens = phrases.flatten := tokens_inj entries
  obtain ⟨starts, same⟩ := segments_flatten directives
  rw [same, flatMap_tableNames]
  exact ⟨starts, directives, distinct⟩

section Slots

variable {path : String} {finish : Position} {construct : Construct} {pairs : AttributePairs}
  {before front tokens behind : List Token} {document : Document}

/-- Attributes of a construct in its slot, somewhere in a source, belong to the directive of the
slot up to the next directive. -/
theorem segments_slot (slot : Slot construct front) (attributes : AttributesPhrase pairs tokens) :
    leading (before ++ (front ++ (tokens ++ behind))) = leading before ∧
      segments (before ++ (front ++ (tokens ++ behind))) = segments before ++
        (front ++ (tokens ++ leading behind)) :: segments behind := by
  obtain ⟨mark, rest, rfl, isMark, inside⟩ := slot.exists_cons
  have apart := (inside_append inside attributes.plain.inside).apart
  refine ⟨leading_append_colon _ _ isMark, ?_⟩
  rw [List.cons_append, segments_append_colon _ _ isMark, ← List.append_assoc,
    leading_append _ apart, segments_append _ apart]
  simp

theorem refill_alone (slot : Slot construct front) (attributes : AttributesPhrase pairs tokens)
    (ends : construct.EndsAt behind)
    (inside : ∀ token ∈ before ++ (front ++ (tokens ++ behind)), token.kind ≠ .finish)
    (read : alone path finish (before ++ (front ++ (tokens ++ behind))) = .ok document) :
    Refill construct pairs fun same others => ∃ again,
      alone path finish (before ++ (front ++ (others ++ behind))) = .ok again ∧
        (same → again.unplaced = document.unplaced) := by
  obtain ⟨starts, directives, distinct⟩ := segments_of_alone inside read
  obtain ⟨front', divided⟩ := @segments_slot _ _ before front tokens behind slot attributes
  rw [front'] at starts
  rw [divided] at directives
  obtain ⟨earlier, directive, later, whole, first, phrase, last⟩ :=
    Fallible.exists_middle_of_forall₂ directives
  refine (phrase.refill slot attributes ends.leading).imp fun same others made => ?_
  obtain ⟨directive', phrase', equal⟩ := made
  have phrases : List.Forall₂ DirectivePhrase (earlier ++ directive' :: later)
      (segments before ++ (front ++ (others ++ leading behind)) :: segments behind) :=
    List.rel_append first (.cons phrase' last)
  have distinct' : ((earlier ++ directive' :: later).flatMap tableNames).Nodup := by
    rw [whole, List.flatMap_append, List.flatMap_cons] at distinct
    rw [List.flatMap_append, List.flatMap_cons, equal.tables]
    exact distinct
  have flat :
      (segments before ++ (front ++ (others ++ leading behind)) :: segments behind).flatten =
        before ++ (front ++ (others ++ behind)) := by
    have joined := leading_append_segments before
    rw [starts, List.nil_append] at joined
    rw [List.flatten_append, List.flatten_cons, joined]
    simp only [List.append_assoc, leading_append_segments]
  have read' := @alone_of_phrases path finish _ _ phrases distinct'
  rw [flat] at read'
  refine ⟨_, read', fun same => ?_⟩
  simp only [Document.unplaced, whole, List.map_append, List.map_cons, equal.unplaced same]

end Slots

/-- Around every sign in a document stand the attributes of a construct, in its slot. -/
theorem exists_slot_of_alone {path : String} {finish : Position} {sign : Token} {x y : List Token}
    {document : Document} (isSign : sign.kind = .equals)
    (inside : ∀ token ∈ x ++ sign :: y, token.kind ≠ .finish)
    (read : alone path finish (x ++ sign :: y) = .ok document) :
    ∃ construct before front behind, Slot construct front ∧ construct.EndsAt behind ∧
      AroundSign (before ++ front) behind x y := by
  obtain ⟨-, ⟨phrases, entries, directives⟩, -⟩ :=
    (document_eq_ok_iff (endless_map inside finish)).1 read
  have whole : phrases.flatten = x ++ sign :: y := (tokens_inj entries).symm
  have colons : ∀ phrase ∈ phrases, ∃ mark rest, phrase = mark :: rest ∧ mark.kind = .colon := by
    intro phrase listed
    obtain ⟨directive, -, phrased⟩ := Fallible.exists_of_forall₂ directives listed
    obtain ⟨mark, rest, same, isMark, -⟩ := phrased.inside
    exact ⟨mark, rest, same, isMark⟩
  rcases List.flatten_eq_append_iff.1 whole with
    ⟨first, last, rfl, rfl, behind⟩ | ⟨first, front, c, rest, last, rfl, rfl, behind⟩
  · -- No phrase begins with a sign.
    cases last with
    | nil => cases behind
    | cons phrase last =>
        obtain ⟨mark, rest, rfl, isMark⟩ := colons phrase (by simp)
        obtain ⟨rfl, -⟩ := List.cons.inj behind
        rw [isSign] at isMark
        cases isMark
  · obtain ⟨rfl, rfl⟩ := List.cons.inj behind
    obtain ⟨_, directive, _, -, -, phrase, -⟩ := Fallible.exists_middle_of_forall₂ directives
    obtain ⟨construct, slot, back, stands, around, ends⟩ := phrase.exists_slot isSign
    refine ⟨construct, first.flatten, slot, back ++ last.flatten, stands, ends _ ?_,
      (around.append_front first.flatten).append_back last.flatten⟩
    cases last with
    | nil => exact ⟨by decide, by decide, rfl⟩
    | cons phrase last =>
        obtain ⟨mark, rest, rfl, isMark⟩ := colons phrase (by simp)
        exact fresh_of_kind isMark (by decide) (by decide) (by decide)

/-- Attributes in a document are among those of a construct in its slot. -/
theorem exists_list_of_alone {path : String} {finish : Position} {pairs : AttributePairs}
    {before after : List Token} {document : Document} (values : HaveValues pairs)
    (some : pairs ≠ [])
    (inside : ∀ token ∈ before ++ (Writing.attributes pairs ++ after), token.kind ≠ .finish)
    (read : alone path finish (before ++ (Writing.attributes pairs ++ after)) = .ok document) :
    ∃ construct start front behind earlier tokens later more, Slot construct front ∧
      construct.EndsAt behind ∧ AttributesPhrase earlier tokens ∧ AttributesPhrase later more ∧
      before = start ++ (front ++ tokens) ∧ after = more ++ behind := by
  cases pairs with
  | nil => exact absurd rfl some
  | cons pair pairs =>
      have divided : before ++ (Writing.attributes (pair :: pairs) ++ after) =
          (before ++ [Writing.word pair.1]) ++
            Writing.sign :: pair.2 :: (Writing.attributes pairs ++ after) := by
        simp [Writing.attributes]
      rw [divided] at inside read
      obtain ⟨construct, start, front, behind, slot, ends, around⟩ :=
        exists_slot_of_alone rfl inside read
      generalize first : before ++ [Writing.word pair.1] = x at around
      generalize second : pair.2 :: (Writing.attributes pairs ++ after) = y at around
      cases around with
      | @list earlier others tokens further key value isKey isValue front' later =>
          rw [← List.append_assoc] at first
          obtain ⟨rfl, -⟩ := List.append_inj' first rfl
          obtain ⟨rfl, same⟩ := List.cons.inj second
          have phrase := attributesPhrase_attributes (List.forall_mem_cons.1 values).2
          obtain ⟨found, more, phrase', -, rfl, rfl⟩ :=
            phrase.exists_more later ends.fresh.noAttribute same
          exact ⟨construct, start, front, behind, earlier, tokens, found, more, slot, ends, front',
            phrase', by simp, rfl⟩

/-- Attributes in a document may be rearranged. -/
theorem exists_alone_of_rearranged {path : String} {finish : Position}
    {pairs others : AttributePairs} {before after : List Token} {document : Document}
    (values : HaveValues pairs) (rearranged : Rearranged (lowerKeys pairs) (lowerKeys others))
    (inside : ∀ token ∈ before ++ (Writing.attributes pairs ++ after), token.kind ≠ .finish)
    (read : alone path finish (before ++ (Writing.attributes pairs ++ after)) = .ok document) :
    ∃ again, alone path finish (before ++ (Writing.attributes others ++ after)) = .ok again ∧
      again.unplaced = document.unplaced := by
  have values' := rearranged.haveValues values
  by_cases some : pairs = []
  · subst some
    have none : others = [] := by simpa [lowerKeys] using rearranged.keys
    subst none
    exact ⟨document, read, rfl⟩
  · obtain ⟨construct, start, front, behind, earlier, tokens, later, more, slot, ends, phrase,
      phrase', rfl, rfl⟩ := exists_list_of_alone values some inside read
    have list : ∀ {pairs : AttributePairs}, HaveValues pairs →
        AttributesPhrase (earlier ++ (lowerKeys pairs ++ later))
          (tokens ++ (Writing.attributes pairs ++ more)) := fun values =>
      phrase.append ((attributesPhrase_attributes values).append phrase')
    have same : Rearranged (earlier ++ (lowerKeys pairs ++ later))
        (earlier ++ (lowerKeys others ++ later)) :=
      (Rearranged.refl _).append (rearranged.append (.refl _))
    have whole : ∀ attributes : List Token,
        start ++ (front ++ tokens) ++ (attributes ++ (more ++ behind)) =
          start ++ (front ++ ((tokens ++ (attributes ++ more)) ++ behind)) := by
      intro attributes
      simp only [List.append_assoc]
    rw [whole] at inside read ⊢
    have refill := refill_alone slot (list values) ends inside read
    obtain ⟨again, read', equal⟩ := refill.again (list values') (same.accepted refill.accepted)
    exact ⟨again, read', equal same⟩

end InstructionSet.Grammar

namespace InstructionSet.Document

open InstructionSet.Text InstructionSet.Scanner InstructionSet.Grammar
open Writing (lowerKeys HaveValues attributesPhrase_attributes)

set_option autoImplicit false

/-! ## Sources with attributes -/

/-- Whether a source is scanned to some tokens and faults, wherever they stand. -/
def ScansAs (source : String) (entries : List Scanned) : Prop :=
  List.Forall₂ Scanned.Alike (scan source).entries entries

instance (source : String) (entries : List Scanned) : Decidable (ScansAs source entries) :=
  inferInstanceAs (Decidable (List.Forall₂ Scanned.Alike (scan source).entries entries))

variable {path source text : String}

theorem exists_tokens_of_alike {entries others : List Scanned} {tokens : List Token}
    (alike : List.Forall₂ Scanned.Alike entries others) (all : entries = tokens.map .token) :
    ∃ found, others = found.map .token ∧ Alike tokens found := by
  subst all
  induction tokens generalizing others with
  | nil =>
      cases alike
      exact ⟨[], rfl, rfl⟩
  | cons token tokens ih =>
      cases alike with
      | cons first rest =>
          obtain ⟨found, rfl, same⟩ := ih rest
          cases first with
          | @token _ other first =>
              exact ⟨other :: found, rfl, List.cons_eq_cons.2 ⟨first, same⟩⟩

/-- What a source is scanned to, by itself, is the document of the source up to places. -/
theorem ScansAs.exists_alone {entries : List Scanned} {document : Document}
    (scans : ScansAs source entries) (read : parse path source = .ok document) :
    ∃ tokens again, entries = tokens.map .token ∧ (∀ token ∈ tokens, token.kind ≠ .finish) ∧
      alone path .origin tokens = .ok again ∧ again.unplaced = document.unplaced := by
  obtain ⟨-, ⟨phrases, whole, -⟩, -⟩ := parse_eq_ok_iff.1 read
  obtain ⟨tokens, rfl, alike⟩ := exists_tokens_of_alike scans whole
  obtain ⟨again, read', unplaced⟩ := @alone_of_parse path source .origin _ _ _ whole alike read
  refine ⟨tokens, again, rfl, fun token member => ?_, read', unplaced⟩
  obtain ⟨found, listed, same⟩ :=
    Fallible.exists_of_forall₂ (Fallible.map_eq_map_iff.1 alike) member
  have proper := inside_of_scan whole found listed
  rwa [← Token.Alike.kind same]

theorem ScansAs.exists_parse {finish : Position} {tokens : List Token} {document : Document}
    (scans : ScansAs source (tokens.map .token)) (read : alone path finish tokens = .ok document) :
    ∃ again, parse path source = .ok again ∧ again.unplaced = document.unplaced := by
  have back := scans.flip.imp fun _ _ => Scanned.Alike.symm
  obtain ⟨found, entries, alike⟩ := exists_tokens_of_alike back rfl
  exact parse_of_alone entries alike.symm read

theorem ScansAs.exists_alone_of_tokens {tokens : List Token} {document : Document}
    (scans : ScansAs source (tokens.map .token)) (read : parse path source = .ok document) :
    (∀ token ∈ tokens, token.kind ≠ .finish) ∧ ∃ again, alone path .origin tokens = .ok again := by
  obtain ⟨found, again, whole, inside, read', -⟩ := scans.exists_alone read
  obtain rfl := tokens_inj whole
  exact ⟨inside, again, read'⟩

section Slots

variable {construct : Construct} {before front behind : List Token} {pairs others : AttributePairs}
  {document : Document}

/-- Attributes in a slot of a document are not refused. -/
theorem not_refused_of_parse (slot : Slot construct front) (ends : construct.EndsAt behind)
    (values : HaveValues pairs)
    (scans : ScansAs source
      ((before ++ (front ++ (Writing.attributes pairs ++ behind))).map .token))
    (read : parse path source = .ok document) : ¬ Refused construct (lowerKeys pairs) := by
  obtain ⟨inside, again, alone⟩ := scans.exists_alone_of_tokens read
  exact (refill_alone slot (attributesPhrase_attributes values) ends inside alone).accepted

/-- Other attributes in a slot of a document leave it a document, unless they are refused. -/
theorem exists_parse_of_accepted (slot : Slot construct front) (ends : construct.EndsAt behind)
    (values : HaveValues others)
    (first : ScansAs text ((before ++ (front ++ (Writing.attributes others ++ behind))).map .token))
    (read : parse path text = .ok document) (values' : HaveValues pairs)
    (second : ScansAs source
      ((before ++ (front ++ (Writing.attributes pairs ++ behind))).map .token))
    (accepted : ¬ Refused construct (lowerKeys pairs)) :
    ∃ again, parse path source = .ok again := by
  obtain ⟨inside, again, alone⟩ := first.exists_alone_of_tokens read
  have refill := refill_alone slot (attributesPhrase_attributes values) ends inside alone
  obtain ⟨again', alone', -⟩ := refill.again (attributesPhrase_attributes values') accepted
  obtain ⟨last, read', -⟩ := second.exists_parse alone'
  exact ⟨last, read'⟩

end Slots

/-- Up to places, what a document says does not change when attributes in it are rearranged. -/
theorem unplaced_of_rearranged {before after : List Scanned} {pairs others : AttributePairs}
    {said : Document} (values : HaveValues pairs)
    (rearranged : Rearranged (lowerKeys pairs) (lowerKeys others))
    (first : ScansAs source (before ++ ((Writing.attributes pairs).map .token ++ after)))
    (second : ScansAs text (before ++ ((Writing.attributes others).map .token ++ after)))
    (stands : unplaced <$> parse path source = .ok said) :
    unplaced <$> parse path text = .ok said := by
  obtain ⟨document, read, rfl⟩ := Fallible.map_eq_ok_iff.1 stands
  obtain ⟨tokens, found, whole, inside, alone, same⟩ := first.exists_alone read
  obtain ⟨front, rest, rfl, rfl, behind⟩ := List.map_eq_append_iff.1 whole.symm
  obtain ⟨list, back, rfl, attributes, rfl⟩ := List.map_eq_append_iff.1 behind
  obtain rfl := tokens_inj attributes
  obtain ⟨again, alone', same'⟩ := exists_alone_of_rearranged values rearranged inside alone
  rw [← List.map_append, ← List.map_append] at second
  obtain ⟨last, read', same''⟩ := second.exists_parse alone'
  rw [read', ← same, ← same', ← same'']
  rfl

/-- **Attributes.** In a document that is read with some attributes of a construct in its slot, any
others are refused exactly if a key is repeated, a key is unknown, a required key is absent, or a
value is not what its key asks for. Attributes elsewhere are always refused. Nothing depends on the
order of attributes, on the case of their keys, or on the case in which truth values are written. -/
theorem parse_attributes (path : String) :
    (∀ {construct : Construct} {before front behind : List Token}, Slot construct front →
      construct.EndsAt behind → ∀ {others : AttributePairs} {text : String} {document : Document},
      HaveValues others →
      ScansAs text ((before ++ (front ++ (Writing.attributes others ++ behind))).map .token) →
      parse path text = .ok document → ∀ {pairs : AttributePairs} {source : String},
      HaveValues pairs →
      ScansAs source ((before ++ (front ++ (Writing.attributes pairs ++ behind))).map .token) →
        ((∃ failure, parse path source = .error failure) ↔
          Refused construct (lowerKeys pairs))) ∧
    (∀ {before after : List Token} {pairs : AttributePairs} {source : String} {document : Document},
      HaveValues pairs → pairs ≠ [] →
      ScansAs source ((before ++ (Writing.attributes pairs ++ after)).map .token) →
      parse path source = .ok document →
        ∃ construct start front earlier tokens, Slot construct front ∧
          AttributesPhrase earlier tokens ∧ before = start ++ (front ++ tokens)) ∧
    ∀ {before after : List Scanned} {pairs others : AttributePairs} {source text : String},
      HaveValues pairs → Rearranged (lowerKeys pairs) (lowerKeys others) →
      ScansAs source (before ++ ((Writing.attributes pairs).map .token ++ after)) →
      ScansAs text (before ++ ((Writing.attributes others).map .token ++ after)) →
        Fallible.Agree (unplaced <$> parse path source) (unplaced <$> parse path text) := by
  refine ⟨?_, ?_, ?_⟩
  · intro construct before front behind slot ends others text document values first read pairs
      source values' second
    constructor
    · rintro ⟨failure, failed⟩
      by_contra accepted
      obtain ⟨again, read'⟩ :=
        exists_parse_of_accepted slot ends values first read values' second accepted
      rw [failed] at read'
      cases read'
    · intro refused
      cases read' : parse path source with
      | error failure => exact ⟨failure, rfl⟩
      | ok again => exact absurd refused (not_refused_of_parse slot ends values' second read')
  · intro before after pairs source document values some scans read
    obtain ⟨inside, again, alone⟩ := scans.exists_alone_of_tokens read
    obtain ⟨construct, start, front, -, earlier, tokens, -, -, slot, -, phrase, -, same, -⟩ :=
      exists_list_of_alone values some inside alone
    exact ⟨construct, start, front, earlier, tokens, slot, phrase, same⟩
  · intro before after pairs others source text values rearranged first second
    exact .of_ok (fun _ => unplaced_of_rearranged values rearranged first second) fun _ =>
      unplaced_of_rearranged (rearranged.haveValues values) rearranged.symm second first

/-- An instruction with a source, up to the attributes of the source. -/
def sourceFront : List Token :=
  [Writing.mark, Writing.word "ins", Writing.word "A", Writing.openBrace, Writing.word "src"]

theorem parse_attributes_source :
    (∃ failure, parse "" ":ins A \x7b src lane=9 LANE=9 \x7d" = .error failure) ∧
    (∃ construct start front earlier tokens, Slot construct front ∧
      AttributesPhrase earlier tokens ∧ sourceFront = start ++ (front ++ tokens)) ∧
    Fallible.Agree (unplaced <$> parse "" ":ins A \x7b src Lane=TRUE size=32 \x7d")
      (unplaced <$> parse "" ":ins A \x7b src SIZE=32 lane=true \x7d") := by
  have slot : Slot .source sourceFront :=
    .entry _ _ Writing.openBrace rfl rfl (.inl rfl) (plain_cons (by decide) plain_nil) rfl .none
      (.entry (Writing.word "src") rfl rfl .unnamed)
  have ends : Construct.source.EndsAt [Writing.closeBrace] :=
    ⟨fresh_of_kind rfl (by decide) (by decide) (by decide), fun impossible => by cases impossible⟩
  have values : HaveValues [("Lane", Writing.word "TRUE")] := by decide
  have scans : ScansAs ":ins A \x7b src Lane=TRUE \x7d" (([] ++ (sourceFront ++
      (Writing.attributes [("Lane", Writing.word "TRUE")] ++
        [Writing.closeBrace]))).map .token) := by
    decide +kernel
  obtain ⟨document, read⟩ : ∃ document,
      parse "" ":ins A \x7b src Lane=TRUE \x7d" = .ok document :=
    Fallible.exists_eq_ok (by decide +kernel)
  refine ⟨?_, (parse_attributes "").2.1 values (by decide) scans read, ?_⟩
  · have repeated : HaveValues [("lane", Writing.number 9), ("LANE", Writing.number 9)] := by decide
    have keys : lowerKeys [("lane", Writing.number 9), ("LANE", Writing.number 9)] =
        [("lane", Writing.number 9), ("lane", Writing.number 9)] := by
      decide +kernel
    refine ((parse_attributes "").1 slot ends values scans read repeated ?_).2 (.repeated ?_)
    · decide +kernel
    · rw [keys]
      decide
  · have values : HaveValues [("Lane", Writing.word "TRUE"), ("size", Writing.number 32)] := by
      decide
    have lane : IsTruthKey "lane" := by decide
    have lower : "TRUE".toLower = "true" ∧ "true".toLower = "true" := by decide +kernel
    have first : lowerKeys [("Lane", Writing.word "TRUE"), ("size", Writing.number 32)] =
        [("lane", Writing.word "TRUE"), ("size", Writing.number 32)] := by
      decide +kernel
    have second : lowerKeys [("SIZE", Writing.number 32), ("lane", Writing.word "true")] =
        [("size", Writing.number 32), ("lane", Writing.word "true")] := by
      decide +kernel
    have same : Rearranged
        (lowerKeys [("Lane", Writing.word "TRUE"), ("size", Writing.number 32)])
        (lowerKeys [("SIZE", Writing.number 32), ("lane", Writing.word "true")]) := by
      rw [first, second]
      exact ⟨_, .swap _ _ _,
        .cons (.refl _) (.cons ⟨rfl, .truth lane rfl rfl (lower.1.trans lower.2.symm)⟩ .nil)⟩
    refine @(parse_attributes "").2.2 (sourceFront.map .token) [.token Writing.closeBrace] _ _ _ _
      values same ?_ ?_
    · decide +kernel
    · decide +kernel

end InstructionSet.Document
