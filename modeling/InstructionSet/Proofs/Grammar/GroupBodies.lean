import InstructionSet.Proofs.Grammar.RoundTrip
import InstructionSet.Proofs.Grammar.Segments

/-!
# Members among the entries of a group

The body of a group is a sequence of parts: marks, entries of its layout, and members
(`BodyPart`). Its layout has the entries among them, and the group the members, each in their own
order; how the two are mixed leaves no trace. So parts of the body can be moved past each other, and
written in another way, as long as the entries and the members among them stay the same in their
orders (`SameParts`): the source is read as the same description, up to places
(`GroupContext.parse_fill`).

A body stands in a source between the header of its group and what follows (`GroupContext`). No
brace stands inside a header or a part, which is why a source shows in one way only where the body
of a group begins and ends.
-/

namespace InstructionSet.Grammar

open InstructionSet.Text InstructionSet.Scanner

set_option autoImplicit false

/-! ## Parts of a body -/

/-- A part of the body of a group, with its tokens. -/
inductive BodyPart where
  /-- A mark between entries. -/
  | mark (token : Token) (marks : isMark token)
  /-- An entry of the layout, behind the word that starts it. -/
  | entry (keyword : Token) (tokens : List Token) (entry : LayoutEntry)
      (isKeyword : keyword.kind = .identifier) (phrase : EntryPhrase entry keyword.lexeme tokens)
  /-- A member of the group, behind its keyword. -/
  | member (keyword : Token) (tokens : List Token) (member : GroupMember)
      (isKeyword : keyword.kind = .identifier) (isIns : keyword.lexeme = "ins")
      (phrase : MemberPhrase member tokens)

namespace BodyPart

/-- The tokens of a part. -/
def tokens : BodyPart → List Token
  | .mark token _ => [token]
  | .entry keyword tokens _ _ _ => keyword :: tokens
  | .member keyword tokens _ _ _ _ => keyword :: tokens

/-- The entry that a part adds to the layout. -/
def ofLayout? : BodyPart → Option LayoutEntry
  | .entry _ _ added _ _ => some added
  | _ => none

/-- The member that a part adds to the group. -/
def ofGroup? : BodyPart → Option GroupMember
  | .member _ _ added _ _ _ => some added
  | _ => none

end BodyPart

/-- The entries among parts. -/
def entriesOf (parts : List BodyPart) : List LayoutEntry :=
  parts.filterMap (·.ofLayout?)

/-- The members among parts. -/
def membersOf (parts : List BodyPart) : List GroupMember :=
  parts.filterMap (·.ofGroup?)

/-- Parts with the same entries in order, and the same members in order up to their places. -/
structure SameParts (parts others : List BodyPart) : Prop where
  /-- The entries are the same. -/
  entries : entriesOf parts = entriesOf others
  /-- The members are the same. -/
  members : (membersOf parts).map (·.unplaced) = (membersOf others).map (·.unplaced)

/-- Parts are the items of a body, in front of its closing brace. -/
theorem itemsPhrase_of_parts (parts : List BodyPart) {brace : Token}
    (isClose : brace.kind = .closeBrace) :
    ItemsPhrase true (entriesOf parts) (membersOf parts)
      (parts.flatMap (·.tokens) ++ [brace]) := by
  induction parts with
  | nil => exact .close brace isClose
  | cons part rest ih =>
      rw [List.flatMap_cons, List.append_assoc]
      cases part with
      | mark token marks => exact .mark token marks ih
      | entry keyword tokens entry isKeyword phrase => exact .entry keyword isKeyword phrase ih
      | member keyword tokens member isKeyword isIns phrase =>
          exact .member keyword isKeyword isIns rfl phrase ih

/-- The items of a body are parts in front of its closing brace. -/
theorem ItemsPhrase.exists_parts {entries : List LayoutEntry} {members : List GroupMember}
    {tokens : List Token} (phrase : ItemsPhrase true entries members tokens) :
    ∃ (parts : List BodyPart) (brace : Token), brace.kind = .closeBrace ∧
      tokens = parts.flatMap (·.tokens) ++ [brace] ∧ entries = entriesOf parts ∧
        members = membersOf parts := by
  induction phrase with
  | close brace isClose => exact ⟨[], brace, isClose, rfl, rfl, rfl⟩
  | mark mark isMark _ ih =>
      obtain ⟨parts, brace, isClose, rfl, rfl, rfl⟩ := ih
      exact ⟨.mark mark isMark :: parts, brace, isClose, rfl, rfl, rfl⟩
  | entry keyword isKeyword phrase _ ih =>
      obtain ⟨parts, brace, isClose, rfl, rfl, rfl⟩ := ih
      refine ⟨.entry keyword _ _ isKeyword phrase :: parts, brace, isClose, ?_, rfl, rfl⟩
      rw [List.flatMap_cons, List.append_assoc]
      rfl
  | member keyword isKeyword isIns _ phrase _ ih =>
      obtain ⟨parts, brace, isClose, rfl, rfl, rfl⟩ := ih
      refine ⟨.member keyword _ _ isKeyword isIns phrase :: parts, brace, isClose, ?_, rfl, rfl⟩
      rw [List.flatMap_cons, List.append_assoc]
      rfl

/-- A body is read in one way only, so the tokens of parts fix their entries and their members. -/
theorem eq_of_tokens {parts others : List BodyPart}
    (same : parts.flatMap (·.tokens) = others.flatMap (·.tokens)) :
    entriesOf parts = entriesOf others ∧ membersOf parts = membersOf others := by
  let opening : Token := ⟨.openBrace, "", .origin⟩
  let closing : Token := ⟨.closeBrace, "", .origin⟩
  let tokens := opening :: (others.flatMap (·.tokens) ++ [closing])
  have phrase : BodyPhrase true (entriesOf others) (membersOf others) tokens :=
    .braces opening rfl (itemsPhrase_of_parts others rfl)
  have again : BodyPhrase true (entriesOf parts) (membersOf parts) tokens := by
    have items := @itemsPhrase_of_parts parts closing rfl
    rw [same] at items
    exact .braces opening rfl items
  have inside : ∀ token ∈ tokens ++ [], token.kind ≠ .finish := by
    intro token member atEnd
    have apart := phrase.inside token (by simpa using member)
    simp [isBoundary, atEnd] at apart
  have holds : (State.start ⟨(tokens ++ []).map .token, .origin⟩).Holds (tokens ++ []) :=
    ⟨State.orderly_start (endless_map inside _), rfl⟩
  -- The reader of bodies reads both phrases, and it has one result.
  obtain ⟨last, ran, -⟩ := Reader.body_run (.group none) again holds {}
  obtain ⟨last', ran', -⟩ := Reader.body_run (.group none) phrase holds {}
  have bodies := Except.ok.inj (Prod.mk.inj (ran.symm.trans ran')).1
  exact ⟨congrArg (·.layout.entries) bodies, congrArg (·.members) bodies⟩

/-! ## Where a body begins and ends -/

theorem BodyPart.plain (part : BodyPart) : Plain part.tokens := by
  cases part with
  | mark token marks => exact plain_cons (isPlain_of_isMark marks) plain_nil
  | entry keyword tokens entry isKeyword phrase =>
      exact plain_cons (isPlain_of_isName (.inl isKeyword)) phrase.plain
  | member keyword tokens member isKeyword isIns phrase =>
      exact plain_cons (isPlain_of_isName (.inl isKeyword)) phrase.plain

theorem plain_parts (parts : List BodyPart) : Plain (parts.flatMap (·.tokens)) := by
  intro token member
  obtain ⟨part, -, inside⟩ := List.mem_flatMap.1 member
  exact part.plain token inside

/-! ## Groups and their parts -/

/-- The name and the attributes in the header of a group. -/
def GroupHeaderPhrase (name? : Option String) (header : Opcodes × Layout)
    (tokens : List Token) : Prop :=
  ∃ names attributes, tokens = names ++ attributes ∧ GroupNamePhrase name? names ∧
    Attributed (.group name?) (·.header) header attributes

theorem GroupHeaderPhrase.plain {name? : Option String} {header : Opcodes × Layout}
    {tokens : List Token} (phrase : GroupHeaderPhrase name? header tokens) : Plain tokens := by
  obtain ⟨names, attributes, rfl, named, attributed⟩ := phrase
  exact plain_append named.plain attributed.plain

/-- The group with a header and the entries and members among parts. -/
def groupOf (name? : Option String) (header : Opcodes × Layout) (parts : List BodyPart)
    (region : Region) : GroupForm :=
  ⟨name?, header.1, { header.2 with entries := entriesOf parts }, membersOf parts, region⟩

theorem unplaced_groupOf {parts others : List BodyPart} (same : SameParts parts others)
    (name? : Option String) (header : Opcodes × Layout) (region region' : Region) :
    (Directive.group (groupOf name? header others region')).unplaced =
      (Directive.group (groupOf name? header parts region)).unplaced := by
  simp only [Directive.unplaced, groupOf, same.entries, same.members]

/-- Parts with a member are the body of a group. -/
theorem GroupHeaderPhrase.exists_phrase {name? : Option String} {header : Opcodes × Layout}
    {tokens : List Token} (phrase : GroupHeaderPhrase name? header tokens) {opening closing : Token}
    (isOpen : opening.kind = .openBrace) (isClose : closing.kind = .closeBrace)
    {parts : List BodyPart} (listed : membersOf parts ≠ []) :
    ∃ region, NamedPhrase (.group (groupOf name? header parts region)) "group"
      (tokens ++ opening :: (parts.flatMap (·.tokens) ++ [closing])) := by
  obtain ⟨names, attributes, rfl, named, pairs, keys, distinct, read⟩ := phrase
  have none := entries_of_header read
  have body := BodyPhrase.braces opening isOpen (itemsPhrase_of_parts parts isClose)
  obtain ⟨first, rest, whole⟩ := List.exists_cons_of_ne_nil
    (List.append_ne_nil_of_right_ne_nil names
      (List.append_ne_nil_of_right_ne_nil attributes (List.cons_ne_nil opening _)))
  have phrase := NamedPhrase.group named ⟨pairs, keys, distinct, read⟩ body listed whole
  rw [none, List.nil_append, ← whole, ← List.append_assoc] at phrase
  exact ⟨_, phrase⟩

theorem NamedPhrase.keyword_of_group {form : GroupForm} {keyword : String} {tokens : List Token}
    (phrase : NamedPhrase (.group form) keyword tokens) : keyword = "group" := by
  cases phrase
  rfl

/-- The body of a group consists of parts with a member. -/
theorem NamedPhrase.exists_parts {directive : Directive} {tokens : List Token}
    (phrase : NamedPhrase directive "group" tokens) :
    ∃ name? header names opening parts closing region, GroupHeaderPhrase name? header names ∧
      opening.kind = .openBrace ∧ closing.kind = .closeBrace ∧ membersOf parts ≠ [] ∧
      tokens = names ++ opening :: (parts.flatMap (·.tokens) ++ [closing]) ∧
      directive = .group (groupOf name? header parts region) := by
  generalize word : "group" = keyword at phrase
  cases phrase with
  | lookupTable | enumeration | bare | instruction => exact absurd word (by decide)
  | @group name? opcodes layout entries members names attrs items rest first named attributes body
      listed whole =>
      cases body with
      | braces opening isOpen items =>
          obtain ⟨parts, closing, isClose, rfl, rfl, rfl⟩ := items.exists_parts
          obtain ⟨pairs, keys, distinct, read⟩ := attributes
          refine ⟨name?, (opcodes, layout), names ++ attrs, opening, parts, closing,
            regionOver first rest, ⟨names, attrs, rfl, named, pairs, keys, distinct, read⟩,
            isOpen, isClose, listed, ?_, ?_⟩
          · rw [← whole, List.append_assoc]
          · rw [entries_of_header read, List.nil_append]
            rfl

/-! ## Groups with other bodies -/

/-- What stands in a source around the parts of the body of a group. -/
structure GroupContext where
  /-- The tokens in front of the group. -/
  before : List Token
  /-- The colon of the group. -/
  mark : Token
  /-- The keyword of the group. -/
  keyword : Token
  /-- The name and the attributes of the group. -/
  header : List Token
  /-- The brace in front of the body. -/
  opening : Token
  /-- The brace behind the body. -/
  closing : Token
  /-- The tokens behind the group. -/
  after : List Token
  /-- A colon introduces the group. -/
  isMark : mark.kind = .colon
  /-- The keyword is a word. -/
  isKeyword : keyword.kind = .identifier
  /-- The keyword is that of groups. -/
  isGroup : keyword.lexeme = "group"
  /-- The header has no colon and no brace. -/
  plain : Plain header
  /-- The body starts with an opening brace. -/
  isOpen : opening.kind = .openBrace
  /-- The body ends with a closing brace. -/
  isClose : closing.kind = .closeBrace

namespace GroupContext

variable (context : GroupContext) {parts : List BodyPart}

/-- The tokens behind the keyword of the group, with parts in its body. -/
def named (parts : List BodyPart) : List Token :=
  context.header ++ context.opening :: (parts.flatMap (·.tokens) ++ [context.closing])

/-- The tokens of a source with parts in the body of the group. -/
def fill (parts : List BodyPart) : List Token :=
  context.before ++ context.mark :: context.keyword :: (context.named parts ++ context.after)

/-- The entries and members of a group are those among the parts of its body; parts with the same
ones are the body of the same group. -/
theorem form_of_phrase {directive : Directive} {behind : List Token}
    (phrase : NamedPhrase directive "group" (context.named parts ++ behind)) :
    behind = [] ∧ (∃ form, directive = .group form ∧ form.layout.entries = entriesOf parts ∧
      form.members = membersOf parts) ∧
      ∀ others, SameParts parts others → ∃ again,
        NamedPhrase (.group again) "group" (context.named others) ∧
          (Directive.group again).unplaced = directive.unplaced := by
  obtain ⟨name?, header, names, opening, found, closing, region, headed, isOpen, isClose, listed,
    whole, rfl⟩ := phrase.exists_parts
  rw [named, List.append_assoc, List.cons_append, List.append_assoc, List.singleton_append] at whole
  obtain ⟨rfl, -, inside⟩ := eq_of_plain_append context.plain headed.plain
    (not_isPlain_of_open context.isOpen) (not_isPlain_of_open isOpen) whole
  obtain ⟨parted, -, ended⟩ := eq_of_plain_append (plain_parts parts) (plain_parts found)
    (not_isPlain_of_close context.isClose) (not_isPlain_of_close isClose) inside
  obtain ⟨entries, members⟩ := eq_of_tokens parted
  refine ⟨ended, ⟨_, rfl, entries.symm, members.symm⟩, fun others same => ?_⟩
  have same : SameParts found others := ⟨entries ▸ same.entries, members ▸ same.members⟩
  have listed' : membersOf others ≠ [] := by
    intro none
    refine listed (List.map_eq_nil_iff.1 (same.members.trans ?_))
    rw [none, List.map_nil]
  obtain ⟨region', phrase⟩ := headed.exists_phrase context.isOpen context.isClose listed'
  exact ⟨_, phrase, unplaced_groupOf same name? header region region'⟩

/-! ## Documents with a group -/

theorem inside_named (parts : List BodyPart) :
    Inside (context.keyword :: context.named parts) := by
  refine inside_cons (isBoundary_of_isName (.inl context.isKeyword)) ?_
  refine inside_append context.plain.inside ?_
  refine inside_cons (isBoundary_of_kind context.isOpen (by decide) (by decide)) ?_
  refine inside_append (plain_parts parts).inside ?_
  exact inside_cons (isBoundary_of_kind context.isClose (by decide) (by decide)) inside_nil

/-- The group starts a segment, to which everything up to the next directive belongs. -/
theorem segments_fill (parts : List BodyPart) :
    leading (context.fill parts) = leading context.before ∧
      segments (context.fill parts) = segments context.before ++
        (context.mark :: context.keyword :: (context.named parts ++ leading context.after)) ::
          segments context.after := by
  have apart := (context.inside_named parts).apart
  refine ⟨leading_append_colon _ _ context.isMark, ?_⟩
  rw [fill, segments_append_colon _ _ context.isMark, ← List.cons_append, ← List.cons_append,
    leading_append _ apart, segments_append _ apart]

/-- **Bodies of groups.** The group in a source has the entries and the members among the parts of
its body. With other parts that have the same entries and the same members in their orders, however
they are mixed, the source is read as the same description, up to places. -/
theorem parse_fill {path source : String} {document : Document}
    (entries : (scan source).entries = (context.fill parts).map .token)
    (read : Document.parse path source = .ok document) :
    (∃ form, .group form ∈ document.directives ∧ form.layout.entries = entriesOf parts ∧
      form.members = membersOf parts) ∧
      ∀ others, SameParts parts others → ∀ text tokens, (scan text).entries = tokens.map .token →
        Alike tokens (context.fill others) →
          ∃ again, Document.parse path text = .ok again ∧ again.unplaced = document.unplaced := by
  obtain ⟨starts, directives, distinct⟩ := Document.segments_of_parse entries read
  obtain ⟨front, divided⟩ := context.segments_fill parts
  rw [front] at starts
  rw [divided] at directives distinct
  obtain ⟨earlier, directive, later, whole, before, phrase, after⟩ :=
    Fallible.exists_middle_of_forall₂ directives
  cases phrase with
  | directive mark keyword isMark isKeyword named =>
      rw [context.isGroup] at named
      obtain ⟨none, ⟨form, rfl, listed, members⟩, refilled⟩ := context.form_of_phrase named
      refine ⟨⟨form, by simp [whole], listed, members⟩, ?_⟩
      intro others same text tokens entries' alike
      -- The phrase with the other parts takes the place of the group's among the segments.
      obtain ⟨again, named', unplaced⟩ := refilled others same
      have phrase' : DirectivePhrase (.group again)
          (context.mark :: context.keyword :: (context.named others ++ leading context.after)) := by
        refine .directive _ _ context.isMark context.isKeyword ?_
        rw [none, List.append_nil, context.isGroup]
        exact named'
      have phrases' : List.Forall₂ DirectivePhrase (earlier ++ .group again :: later)
          (segments (context.fill others)) := by
        rw [(context.segments_fill others).2]
        exact List.rel_append before (.cons phrase' after)
      have distinct' : ((earlier ++ .group again :: later).flatMap tableNames).Nodup := by
        rw [filterMap_declaredTable? directives, whole, List.flatMap_append] at distinct
        rw [List.flatMap_append]
        exact distinct
      have flat : (segments (context.fill others)).flatten = context.fill others := by
        have joined := leading_append_segments (context.fill others)
        rwa [(context.segments_fill others).1, starts, List.nil_append] at joined
      have read' := @alone_of_phrases path .origin _ _ phrases' distinct'
      rw [flat] at read'
      obtain ⟨found, parsed, moved⟩ := Document.parse_of_alone entries' alike read'
      refine ⟨found, parsed, moved.trans ?_⟩
      simp only [Document.unplaced, whole, List.map_append, List.map_cons, unplaced]

/-- Every group of a description stands in its source around parts. -/
theorem exists_fill {path source : String} {document : Document} {form : GroupForm}
    (read : Document.parse path source = .ok document)
    (listed : .group form ∈ document.directives) :
    ∃ context parts, (scan source).entries = (fill context parts).map .token ∧
      form.layout.entries = entriesOf parts ∧ form.members = membersOf parts := by
  obtain ⟨-, ⟨phrases, entries, directives⟩, -⟩ := Document.parse_eq_ok_iff.1 read
  obtain ⟨before, after, whole⟩ := List.mem_iff_append.1 listed
  rw [whole] at directives
  obtain ⟨earlier, phrase, later, rfl, -, phrased, -⟩ :=
    Fallible.exists_middle_of_forall₂ directives.flip
  cases phrased with
  | directive mark keyword isMark isKeyword named =>
      have isGroup := named.keyword_of_group
      rw [isGroup] at named
      obtain ⟨name?, header, names, opening, parts, closing, region, headed, isOpen, isClose, -,
        rfl, same⟩ := named.exists_parts
      obtain rfl := Directive.group.inj same
      refine ⟨⟨earlier.flatten, mark, keyword, names, opening, closing, later.flatten, isMark,
        isKeyword, isGroup, headed.plain, isOpen, isClose⟩, parts, ?_, rfl, rfl⟩
      rw [entries]
      simp [fill, GroupContext.named]

end GroupContext

end InstructionSet.Grammar
