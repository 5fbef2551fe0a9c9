import InstructionSet.Proofs.Grammar.Segments
import InstructionSet.Proofs.Grammar.Writing
import InstructionSet.Proofs.Numeral.Decimal

/-!
# Reading back what is written

The text of a description is read as the description that was written, up to its path and regions.
That takes no more than what the grammar can say: lookup tables with names of their own, groups that
have members, and tags that are words other than those of the entries. Every description that is
read is of this form, so it can be written and read again.
-/

namespace InstructionSet

open InstructionSet.Text InstructionSet.Scanner

set_option autoImplicit false

namespace Grammar

/-! ## Written attributes -/

namespace Attributes

variable (attributes : Attributes) (key : String)

@[simp] theorem truth_written (value : Bool) :
    attributes.truth key (Writing.truth value) = .ok value := by
  have read : truthOf? (Writing.truth value) = some value := by
    cases value
    · decide +kernel
    · decide +kernel
  rw [truth, read]

theorem numeral_written {α : Type} {reading : String → Except NumeralError α} {value : Nat}
    {found : α} (reads : reading (toString value) = .ok found) :
    attributes.numeral reading key (Writing.number value) = .ok found := by
  have lexeme : (Writing.number value).lexeme = toString value := rfl
  rw [numeral, lexeme, reads]

@[simp] theorem byte_written (value : UInt8) :
    attributes.number Numeral.byte key (Writing.number value.toNat) = .ok value :=
  attributes.numeral_written key (Numeral.byte_toString value)

@[simp] theorem word_written (value : UInt32) :
    attributes.number Numeral.word32 key (Writing.number value.toNat) = .ok value :=
  attributes.numeral_written key (Numeral.word32_toString value)

@[simp] theorem name_written (text : String) :
    attributes.nameOf key (Writing.quoted text) = .ok text := rfl

@[simp] theorem lane_written (choice : Option LaneChoice) :
    attributes.laneOf key (Writing.lane choice) = .ok choice := by
  match choice with
  | some .automatic =>
      rw [laneOf, if_neg (by decide), Writing.lane, truth_written]
      rfl
  | some (.bit position) =>
      have isNumber : (Writing.number position.toNat).kind = .number := rfl
      have read := attributes.numeral_written key (Numeral.byte_toString position)
      rw [laneOf, Writing.lane, if_pos isNumber, read]
      rfl
  | none =>
      rw [laneOf, if_neg (by decide), Writing.lane, truth_written]
      rfl

variable (construct : Construct)

theorem source_written (form : SourceForm) :
    (⟨construct, Writing.source form⟩ : Attributes).source form.name = .ok form := by
  obtain ⟨name, size, traits, choice⟩ := form
  cases size <;>
    simp [source, flag, byte?, optional, find?, onlyKnown, Writing.source, Writing.given,
      NameMap.lookup_cons_ite] <;>
    rfl

theorem staging_written (form : StagingForm) :
    (⟨construct, Writing.staging form⟩ : Attributes).staging form.name = .ok form := by
  simp [staging, flag, byte?, optional, find?, onlyKnown, Writing.staging, NameMap.lookup_cons_ite]
  rfl

theorem immediate_written (operand : Immediate) :
    (⟨construct, Writing.immediate operand⟩ : Attributes).immediate = .ok operand := by
  simp [immediate, flag, name, byte, required, optional, find?, onlyKnown, Writing.immediate,
    NameMap.lookup_cons_ite]
  rfl

theorem modifier_written (placement : ModifierPlacement) :
    (⟨construct, Writing.modifier placement⟩ : Attributes).modifier = .ok placement := by
  simp [modifier, flag, name, byte, required, optional, find?, onlyKnown, Writing.modifier,
    NameMap.lookup_cons_ite]
  rfl

theorem member_written (codes : Opcodes) :
    (⟨construct, Writing.opcodes codes⟩ : Attributes).member = .ok codes := by
  obtain ⟨primary, secondary⟩ := codes
  cases primary <;> cases secondary <;>
    simp [member, word?, optional, find?, onlyKnown, Writing.opcodes, Writing.given,
      NameMap.lookup_cons_ite] <;>
    rfl

theorem header_written (codes : Opcodes) (layout : Layout) :
    (⟨construct, Writing.header codes layout⟩ : Attributes).header =
      .ok (codes, { layout with entries := [] }) := by
  obtain ⟨primary, secondary⟩ := codes
  cases primary <;> cases secondary <;>
    simp [header, word?, byte?, optional, find?, onlyKnown, Writing.header, Writing.opcodes,
      Writing.given, NameMap.lookup_cons_ite] <;>
    rfl

theorem isDefault_written (value : Bool) :
    (⟨construct, Writing.isDefault value⟩ : Attributes).isDefault = .ok value := by
  simp [isDefault, flag, optional, find?, onlyKnown, Writing.isDefault]
  rfl

end Attributes

theorem attributesPhrase_written {pairs : AttributePairs}
    (known : ∀ pair ∈ pairs, pair.1 ∈ Writing.keys)
    (values : ∀ pair ∈ pairs, Writing.Value pair.2) :
    AttributesPhrase pairs (Writing.attributes pairs) := by
  have lower : Writing.lowerKeys pairs = pairs := by
    refine (List.map_congr_left fun pair member => ?_).trans (List.map_id _)
    rw [(Writing.key_spelled pair.1 (known pair member)).2]
    rfl
  have phrase := Writing.attributesPhrase_attributes fun pair member =>
    (values pair member).isAttributeValue
  rwa [lower] at phrase

theorem attributed_written {α : Type} {construct : Construct}
    {reading : Attributes → Except SyntaxError α} {value : α} {pairs : AttributePairs}
    (written : Writing.Written pairs) (read : reading ⟨construct, pairs⟩ = .ok value) :
    Attributed construct reading value (Writing.attributes pairs) :=
  ⟨pairs, attributesPhrase_written written.known written.values, written.distinct, read⟩

/-! ## Written bodies -/

theorem entryPhrase_written {entry : LayoutEntry} (wellFormed : entry.WellFormed) :
    ∃ keyword tokens, Writing.entry entry = Writing.word keyword :: tokens ∧
      EntryPhrase entry keyword tokens := by
  cases entry with
  | source form =>
      have attributes : Attributed .source (·.source form.name) form _ :=
        attributed_written (Writing.written_source form) (Attributes.source_written .source form)
      exact ⟨_, _, rfl, .source (.quoted (Writing.quoted form.name) rfl) attributes⟩
  | dest name => exact ⟨_, _, rfl, .dest (.quoted (Writing.quoted name) rfl)⟩
  | staging form =>
      have attributes : Attributed .staging (·.staging form.name) form _ :=
        attributed_written (Writing.written_staging form) (Attributes.staging_written .staging form)
      exact ⟨_, _, rfl, .staging (.quoted (Writing.quoted form.name) rfl) attributes⟩
  | immediate operand =>
      have attributes := attributed_written (Writing.written_immediate operand)
        (Attributes.immediate_written .immediate operand)
      exact ⟨_, _, rfl, .immediate attributes⟩
  | modifier placement =>
      have attributes := attributed_written (Writing.written_modifier placement)
        (Attributes.modifier_written .modifier placement)
      exact ⟨_, _, rfl, .modifier attributes⟩
  | tag name => exact ⟨_, _, rfl, .tag wellFormed.2⟩

theorem entries_written {hasMembers : Bool} {entries : List LayoutEntry}
    {members : List GroupMember} {rest : List Token}
    (wellFormed : ∀ entry ∈ entries, entry.WellFormed)
    (items : ItemsPhrase hasMembers [] members rest) :
    ItemsPhrase hasMembers entries members ((entries.map Writing.entry).flatten ++ rest) := by
  induction entries with
  | nil => exact items
  | cons entry entries ih =>
      have later := ih fun found member => wellFormed found (List.mem_cons_of_mem _ member)
      obtain ⟨keyword, tokens, line, phrase⟩ :=
        entryPhrase_written (wellFormed entry List.mem_cons_self)
      rw [List.map_cons, List.flatten_cons, line, List.append_assoc, List.cons_append]
      exact .entry (Writing.word keyword) rfl phrase later

theorem members_written (members : List GroupMember) :
    ∃ found, ItemsPhrase true [] found
        ((members.map Writing.member).flatten ++ [Writing.closeBrace]) ∧
      found.map (·.unplaced) = members.map (·.unplaced) := by
  induction members with
  | nil => exact ⟨[], .close Writing.closeBrace rfl, rfl⟩
  | cons member members ih =>
      obtain ⟨found, items, same⟩ := ih
      have attributes := attributed_written (Writing.written_opcodes member.opcodes)
        (Attributes.member_written (.member member.name) member.opcodes)
      have phrase := MemberPhrase.member (Writing.quoted member.name) (.inr rfl) attributes
      have line : ((member :: members).map Writing.member).flatten ++ [Writing.closeBrace] =
          Writing.word "ins" :: ((Writing.quoted member.name ::
            Writing.attributes (Writing.opcodes member.opcodes)) ++
              ((members.map Writing.member).flatten ++ [Writing.closeBrace])) := by
        simp [Writing.member]
      rw [line]
      refine ⟨_, .member (Writing.word "ins") rfl rfl rfl phrase items, ?_⟩
      rw [List.map_cons, List.map_cons, same]
      rfl

theorem constants_written (values : List UInt32) :
    ConstantsPhrase values ((values.map Writing.constant).flatten ++ [Writing.closeBrace]) := by
  induction values with
  | nil => exact .close Writing.closeBrace rfl
  | cons value values ih =>
      exact .number (Writing.number value.toNat) rfl (Numeral.word32_toString value) ih

theorem values_written (entries : List EnumerationEntry) :
    ValuesPhrase entries ((entries.map Writing.value).flatten ++ [Writing.closeBrace]) := by
  induction entries with
  | nil => exact .close Writing.closeBrace rfl
  | cons entry entries ih =>
      cases entry with
      | value text isDefault =>
          have attributes := attributed_written (Writing.written_isDefault isDefault)
            (Attributes.isDefault_written .enumerationValue isDefault)
          have phrase := ValuesPhrase.value (Writing.word "value") (Writing.quoted text) rfl rfl rfl
            attributes ih
          rw [List.map_cons, List.flatten_cons, List.append_assoc]
          exact phrase
      | reserved => exact .reserved (Writing.word "reserved") rfl rfl ih

/-! ## Written directives -/

theorem flatten_block (keyword : String) (name? : Option String) (pairs : AttributePairs)
    (body : List (List Token)) : (Writing.block keyword name? pairs body).flatten =
      Writing.mark :: Writing.word keyword :: (name?.toList.map Writing.quoted ++
        (Writing.attributes pairs ++
          Writing.openBrace :: (body.flatten ++ [Writing.closeBrace]))) := by
  simp [Writing.block]

theorem namedPhrase_group {form : GroupForm} (wellFormed : (Directive.group form).WellFormed) :
    ∃ found, NamedPhrase found "group" (form.name.toList.map Writing.quoted ++
        (Writing.attributes (Writing.header form.opcodes form.layout) ++ Writing.openBrace ::
          ((form.layout.entries.map Writing.entry ++ form.members.map Writing.member).flatten ++
            [Writing.closeBrace]))) ∧
      found.unplaced = (Directive.group form).unplaced := by
  obtain ⟨listed, entries⟩ := wellFormed
  have named : GroupNamePhrase form.name (form.name.toList.map Writing.quoted) := by
    cases form.name with
    | none => exact .unnamed
    | some name => exact .named (Writing.quoted name) (.inr rfl)
  have attributes := attributed_written (Writing.written_header form.opcodes form.layout)
    (Attributes.header_written (.group form.name) form.opcodes form.layout)
  obtain ⟨members, closing, same⟩ := members_written form.members
  have items := entries_written entries closing
  have some : members ≠ [] := by
    rintro rfl
    exact listed (List.map_eq_nil_iff.1 same.symm)
  rw [List.flatten_append, List.append_assoc]
  cases whole : form.name.toList.map Writing.quoted ++
      (Writing.attributes (Writing.header form.opcodes form.layout) ++ Writing.openBrace ::
        ((form.layout.entries.map Writing.entry).flatten ++
          ((form.members.map Writing.member).flatten ++ [Writing.closeBrace]))) with
  | nil => simp at whole
  | cons first rest =>
      refine ⟨_, .group named attributes (.braces Writing.openBrace rfl items) some whole, ?_⟩
      simp only [Directive.unplaced, same, List.nil_append]

/-- The written lines of a directive are a phrase of it, up to regions. -/
theorem directivePhrase_written {directive : Directive} (wellFormed : directive.WellFormed) :
    ∃ found, DirectivePhrase found (Writing.directive directive).flatten ∧
      found.unplaced = directive.unplaced := by
  cases directive with
  | lookupTable table =>
      have phrase :=
        NamedPhrase.lookupTable (Writing.quoted table.name) Writing.openBrace (.inr rfl)
        rfl (constants_written table.values)
      have whole := DirectivePhrase.directive Writing.mark (Writing.word "lut") rfl rfl phrase
      rw [Writing.directive, flatten_block]
      exact ⟨_, whole, rfl⟩
  | enumeration form =>
      have phrase := NamedPhrase.enumeration (Writing.quoted form.name) Writing.openBrace (.inr rfl)
        rfl (values_written form.entries)
      have whole := DirectivePhrase.directive Writing.mark (Writing.word "enum") rfl rfl phrase
      rw [Writing.directive, flatten_block]
      exact ⟨_, whole, rfl⟩
  | instruction form =>
      have attributes := attributed_written (Writing.written_header form.opcodes form.layout)
        (Attributes.header_written (.instruction form.name) form.opcodes form.layout)
      have items := @entries_written false _ _ _ wellFormed (.close Writing.closeBrace rfl)
      have phrase := NamedPhrase.instruction (Writing.quoted form.name) (.inr rfl) attributes
        (.braces Writing.openBrace rfl items)
      have whole := DirectivePhrase.directive Writing.mark (Writing.word "ins") rfl rfl phrase
      rw [Writing.directive, flatten_block]
      exact ⟨_, whole, rfl⟩
  | group form =>
      obtain ⟨found, phrase, same⟩ := namedPhrase_group wellFormed
      have whole := DirectivePhrase.directive Writing.mark (Writing.word "group") rfl rfl phrase
      rw [Writing.directive, flatten_block]
      exact ⟨found, whole, same⟩

/-! ## What is read can be written -/

theorem EntryPhrase.wellFormed {entry : LayoutEntry} {keyword : Token} {tokens : List Token}
    (phrase : EntryPhrase entry keyword.lexeme tokens) (isKeyword : keyword.kind = .identifier)
    (proper : Proper keyword) : entry.WellFormed := by
  have spelled := proper.identifier isKeyword
  generalize keyword.lexeme = word at phrase spelled
  cases phrase with
  | tag bare => exact ⟨spelled, bare⟩
  | source => trivial
  | dest => trivial
  | staging => trivial
  | immediate => trivial
  | modifier => trivial

theorem ItemsPhrase.wellFormed {hasMembers : Bool} {entries : List LayoutEntry}
    {members : List GroupMember} {tokens : List Token}
    (phrase : ItemsPhrase hasMembers entries members tokens)
    (proper : ∀ token ∈ tokens, Proper token) : ∀ entry ∈ entries, entry.WellFormed := by
  induction phrase with
  | close brace isClose =>
      intro entry member
      cases member
  | mark mark isMark _ ih =>
      apply ih
      intro token member
      exact proper token (List.mem_cons_of_mem _ member)
  | entry keyword isKeyword first _ ih =>
      intro entry member
      rcases List.mem_cons.1 member with rfl | later
      · exact first.wellFormed isKeyword (proper keyword List.mem_cons_self)
      · refine ih ?_ entry later
        intro token inside
        exact proper token (List.mem_cons_of_mem _ (List.mem_append_right _ inside))
  | member keyword isKeyword isIns permitted member _ ih =>
      apply ih
      intro token inside
      exact proper token (List.mem_cons_of_mem _ (List.mem_append_right _ inside))

theorem BodyPhrase.wellFormed {hasMembers : Bool} {entries : List LayoutEntry}
    {members : List GroupMember} {tokens : List Token}
    (phrase : BodyPhrase hasMembers entries members tokens)
    (proper : ∀ token ∈ tokens, Proper token) : ∀ entry ∈ entries, entry.WellFormed := by
  cases phrase with
  | braces brace isOpen items =>
      apply items.wellFormed
      intro token member
      exact proper token (List.mem_cons_of_mem _ member)

theorem entries_of_header {attributes : Attributes} {codes : Opcodes} {layout : Layout}
    (read : attributes.header = .ok (codes, layout)) : layout.entries = [] := by
  simp only [Attributes.header, Fallible.bind_eq_ok_iff, Fallible.pure_eq_ok_iff] at read
  obtain ⟨_, _, _, _, _, _, _, _, _, _, same⟩ := read
  cases same
  rfl

/-- The layout of a header has no entries, so those of a body are all that there are. -/
theorem wellFormed_of_header {construct : Construct} {codes : Opcodes} {layout : Layout}
    {tokens : List Token} {entries : List LayoutEntry}
    (attributes : Attributed construct (·.header) (codes, layout) tokens)
    (wellFormed : ∀ entry ∈ entries, entry.WellFormed) :
    Layout.WellFormed { layout with entries := layout.entries ++ entries } := by
  obtain ⟨pairs, -, -, read⟩ := attributes
  have none := entries_of_header read
  intro entry member
  rw [none, List.nil_append] at member
  exact wellFormed entry member

theorem NamedPhrase.wellFormed {directive : Directive} {keyword : String} {tokens : List Token}
    (phrase : NamedPhrase directive keyword tokens) (proper : ∀ token ∈ tokens, Proper token) :
    directive.WellFormed := by
  cases phrase with
  | lookupTable => trivial
  | enumeration => trivial
  | bare name named attributes =>
      obtain ⟨pairs, -, -, read⟩ := attributes
      have none := entries_of_header read
      intro entry member
      rw [none] at member
      cases member
  | instruction name named attributes body =>
      apply wellFormed_of_header attributes
      apply body.wellFormed
      intro token member
      exact proper token (List.mem_cons_of_mem _ (List.mem_append_right _ member))
  | group named attributes body listed whole =>
      refine ⟨listed, ?_⟩
      apply wellFormed_of_header attributes
      apply body.wellFormed
      intro token member
      rw [← whole] at proper
      exact proper token (List.mem_append_right _ (List.mem_append_right _ member))

theorem DirectivePhrase.wellFormed {directive : Directive} {tokens : List Token}
    (phrase : DirectivePhrase directive tokens) (proper : ∀ token ∈ tokens, Proper token) :
    directive.WellFormed := by
  cases phrase with
  | directive mark keyword isMark isKeyword named =>
      apply named.wellFormed
      intro token member
      exact proper token (List.mem_cons_of_mem _ (List.mem_cons_of_mem _ member))

end Grammar

namespace Document

open InstructionSet.Grammar

theorem wellFormed_of_parse {path source : String} {document : Document}
    (read : parse path source = .ok document) : document.WellFormed := by
  obtain ⟨-, ⟨phrases, entries, directives⟩, distinct⟩ := parse_eq_ok_iff.1 read
  refine ⟨distinct, ?_⟩
  intro directive member
  obtain ⟨phrase, listed, found⟩ := Fallible.exists_of_forall₂ directives.flip member
  apply found.wellFormed
  intro token inside
  have whole : token ∈ phrases.flatten := List.mem_flatten_of_mem listed inside
  have entry : .token token ∈ (scan source).entries := entries ▸ List.mem_map_of_mem whole
  exact proper_of_mem_scan entry

/-! ## Reading back a description -/

theorem phrases_written {directives : List Directive}
    (wellFormed : ∀ directive ∈ directives, directive.WellFormed) :
    ∃ found, List.Forall₂ DirectivePhrase found
        (directives.map fun directive => (Writing.directive directive).flatten) ∧
      found.map (·.unplaced) = directives.map (·.unplaced) := by
  induction directives with
  | nil => exact ⟨[], .nil, rfl⟩
  | cons directive directives ih =>
      obtain ⟨rest, phrases, unplaced⟩ :=
        ih fun found member => wellFormed found (List.mem_cons_of_mem _ member)
      obtain ⟨found, phrase, same⟩ := directivePhrase_written (wellFormed _ List.mem_cons_self)
      refine ⟨found :: rest, .cons phrase phrases, ?_⟩
      rw [List.map_cons, List.map_cons, unplaced, same]

theorem scan_write {document : Document} (wellFormed : document.WellFormed) :
    ∃ tokens, (scan document.write).entries = tokens.map .token ∧
      Alike tokens (document.directives.flatMap Writing.directive).flatten := by
  have spelled : ∀ line ∈ document.directives.flatMap Writing.directive,
      Writing.Spelled line := by
    intro line member
    obtain ⟨directive, listed, inside⟩ := List.mem_flatMap.1 member
    exact Writing.spelled_directive (wellFormed.directives directive listed) line inside
  obtain ⟨tokens, entries, alike⟩ := Writing.readsAs_lines spelled .origin
  refine ⟨tokens, ?_, alike⟩
  rw [← entries, scan, write, String.toList_ofList]

/-- A description that can be written is read back from its text. -/
theorem exists_parse_write {document : Document} (wellFormed : document.WellFormed)
    (path : String) :
    ∃ again, parse path document.write = .ok again ∧ again.unplaced = document.unplaced := by
  obtain ⟨written, phrases, writtenSame⟩ := phrases_written wellFormed.directives
  obtain ⟨tokens, entries, alike⟩ := scan_write wellFormed
  have lines : (document.directives.flatMap Writing.directive).flatten =
      (document.directives.map fun directive => (Writing.directive directive).flatten).flatten := by
    rw [List.flatMap_def, List.flatten_flatten, List.map_map]
    rfl
  rw [lines] at alike
  have distinct := wellFormed.tables
  rw [← flatMap_tableNames, ← flatMap_tableNames_congr writtenSame] at distinct
  obtain ⟨again, parsed, unplaced⟩ :=
    parse_of_alone entries alike (@alone_of_phrases path .origin _ _ phrases distinct)
  exact ⟨again, parsed, unplaced.trans (congrArg (Document.mk "") writtenSame)⟩

/-- **Round trip.** Every description that the grammar can say is read back from its text, and every
description that is read from any source is one of these, so it is read back as well. -/
theorem parse_write (path : String) :
    (∀ document : Document, document.WellFormed →
      ∃ again, parse path document.write = .ok again ∧ again.unplaced = document.unplaced) ∧
    ∀ source document, parse path source = .ok document →
      document.WellFormed ∧
        ∀ other, ∃ again, parse other document.write = .ok again ∧
          again.unplaced = document.unplaced := by
  constructor
  · intro document wellFormed
    exact exists_parse_write wellFormed path
  · intro source document read
    have wellFormed := wellFormed_of_parse read
    exact ⟨wellFormed, fun other => exists_parse_write wellFormed other⟩

/-- A description with quotation marks and an end of line in its names, an entry of each kind, and a
group without a name. -/
def sampler : Document where
  path := "sampler.isa"
  directives :=
    [ .lookupTable ⟨"\"one\"", [0, 4294967295], .point .origin⟩,
      .enumeration ⟨"", [.reserved, .value "true" true], .point .origin⟩,
      .instruction ⟨"MOV\n.i8", { primary := some 0x91 },
        { plainSources := 1, entries := [
          .source { name := "\\", size := some 8, lane := some (.bit 0) }, .tag "roundmode",
          .dest "", .staging { read := true }, .immediate ⟨"opcode", 8, 16, true⟩,
          .modifier { name := "lane", start := 40, size := 1 }] }, .point .origin⟩,
      .group ⟨none, {}, { entries := [.tag "a.b"] },
        [⟨"ADD", { secondary := some 1 }, .point .origin⟩], .point .origin⟩ ]

theorem parse_write_sampler :
    ∃ again, parse "again.isa" sampler.write = .ok again ∧ again.unplaced = sampler.unplaced ∧
      again.WellFormed := by
  have wellFormed : sampler.WellFormed := by decide +kernel
  obtain ⟨again, read, same⟩ := (parse_write "again.isa").1 sampler wellFormed
  exact ⟨again, read, same, ((parse_write "again.isa").2 _ again read).1⟩

end Document
end InstructionSet
