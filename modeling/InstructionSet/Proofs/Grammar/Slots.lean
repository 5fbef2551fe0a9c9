import InstructionSet.Proofs.Grammar.Completeness
import InstructionSet.Proofs.Grammar.Segments

/-!
# Where attributes stand

In a directive the attributes of a construct stand behind its beginning, which says which construct
it is: the colon and the keyword of a directive with its name, or the keyword of an entry behind the
header and the entries in front of it (`Slot`). What is in front of the attributes need not say
anything; only its shape matters. The attributes end where no key with its sign comes next, so the
same tokens are divided into them and the rest in one way only (`AttributesPhrase.eq_of_append`),
and so are the entries of a body (`ItemsPhrase.cut`, `ValuesPhrase.cut`).
-/

namespace InstructionSet.Grammar

open InstructionSet.Text

set_option autoImplicit false

/-! ## Where attributes end -/

/-- Attributes go on as long as there are any: attributes in front of the same tokens begin with
them. -/
theorem AttributesPhrase.exists_more {pairs others : AttributePairs}
    {tokens tokens' rest rest' : List Token} (phrase : AttributesPhrase pairs tokens)
    (phrase' : AttributesPhrase others tokens') (ends : startsAttribute rest' = false)
    (same : tokens ++ rest = tokens' ++ rest') :
    ∃ further more, AttributesPhrase further more ∧ others = pairs ++ further ∧
      tokens' = tokens ++ more ∧ rest = more ++ rest' := by
  induction phrase generalizing others tokens' with
  | none => exact ⟨others, tokens', phrase', rfl, rfl, same⟩
  | more key sign value isKey isSign isValue _ ih =>
      cases phrase' with
      | none =>
          subst same
          simp [startsAttribute, isKey, isSign] at ends
      | more key' sign' value' isKey' isSign' isValue' later =>
          simp only [List.cons_append, List.cons.injEq] at same
          obtain ⟨rfl, rfl, rfl, behind⟩ := same
          obtain ⟨further, more, phrase, rfl, rfl, rest⟩ := ih later behind
          exact ⟨further, more, phrase, rfl, rfl, rest⟩

/-- Tokens are divided in one way only where attributes end. -/
theorem AttributesPhrase.eq_of_append {pairs others : AttributePairs}
    {tokens tokens' rest rest' : List Token} (phrase : AttributesPhrase pairs tokens)
    (phrase' : AttributesPhrase others tokens') (ends : startsAttribute rest = false)
    (ends' : startsAttribute rest' = false) (same : tokens ++ rest = tokens' ++ rest') :
    pairs = others ∧ tokens = tokens' ∧ rest = rest' := by
  obtain ⟨further, more, phrase, rfl, rfl, rfl⟩ := phrase.exists_more phrase' ends' same
  cases phrase with
  | none => simp
  | more key sign value isKey isSign isValue later =>
      simp [startsAttribute, isKey, isSign] at ends

theorem AttributesPhrase.append {pairs others : AttributePairs} {tokens tokens' : List Token}
    (phrase : AttributesPhrase pairs tokens) (phrase' : AttributesPhrase others tokens') :
    AttributesPhrase (pairs ++ others) (tokens ++ tokens') := by
  induction phrase with
  | none => exact phrase'
  | more key sign value isKey isSign isValue _ ih =>
      exact .more key sign value isKey isSign isValue ih

/-- Tokens are divided in one way only where the name and the attributes of an entry end. -/
theorem EntryNamePhrase.eq_of_append {name other : String} {pairs others : AttributePairs}
    {names names' tokens tokens' rest rest' : List Token} (named : EntryNamePhrase name names)
    (named' : EntryNamePhrase other names') (phrase : AttributesPhrase pairs tokens)
    (phrase' : AttributesPhrase others tokens') (fresh : Fresh rest) (fresh' : Fresh rest')
    (same : names ++ (tokens ++ rest) = names' ++ (tokens' ++ rest')) :
    names = names' ∧ tokens = tokens' ∧ rest = rest' := by
  have divided : ∀ {tokens tokens' : List Token}, AttributesPhrase pairs tokens →
      AttributesPhrase others tokens' → tokens ++ rest = tokens' ++ rest' →
      tokens = tokens' ∧ rest = rest' := fun phrase phrase' same =>
    (phrase.eq_of_append phrase' fresh.noAttribute fresh'.noAttribute same).2
  cases named with
  | unnamed =>
      cases named' with
      | unnamed => exact ⟨rfl, divided phrase phrase' same⟩
      | quoted token isText =>
          have text := phrase.noText fresh.noText
          rw [List.nil_append] at same
          rw [same] at text
          exact absurd isText text
  | quoted token isText =>
      cases named' with
      | unnamed =>
          have text := phrase'.noText fresh'.noText
          rw [List.nil_append] at same
          rw [← same] at text
          exact absurd isText text
      | quoted token' isText' =>
          obtain ⟨rfl, behind⟩ := List.cons.inj same
          exact ⟨rfl, divided phrase phrase' behind⟩

/-! ## Entries in front of a place -/

/-- Entries of a body in front of some place in it, whatever they say. Behind one of the keywords
stands a name that need not be quoted. -/
inductive Items (single : String) : List Token → Prop where
  | none : Items single []
  | mark {rest : List Token} (mark : Token) (isMark : isMark mark) (items : Items single rest) :
      Items single (mark :: rest)
  | entry {name : String} {pairs : AttributePairs} {names tokens rest : List Token}
      (keyword : Token) (isKeyword : keyword.kind = .identifier) (other : keyword.lexeme ≠ single)
      (named : EntryNamePhrase name names) (attributes : AttributesPhrase pairs tokens)
      (items : Items single rest) : Items single (keyword :: (names ++ (tokens ++ rest)))
  | single {pairs : AttributePairs} {tokens rest : List Token} (keyword name : Token)
      (isKeyword : keyword.kind = .identifier) (isSingle : keyword.lexeme = single)
      (named : Reader.isAttributeValue name.kind = true)
      (attributes : AttributesPhrase pairs tokens) (items : Items single rest) :
      Items single (keyword :: name :: (tokens ++ rest))

theorem Items.fresh {single : String} {items rest : List Token} (phrase : Items single items)
    (fresh : Fresh rest) : Fresh (items ++ rest) := by
  induction phrase with
  | none => exact fresh
  | mark mark isMark _ _ => exact fresh_of_isMark isMark
  | entry keyword isKeyword _ named attributes _ ih =>
      rw [List.cons_append, List.append_assoc, List.append_assoc]
      exact fresh_of_identifier isKeyword (named.noSign (attributes.noSign ih.noSign))
  | single keyword name isKeyword _ named _ _ _ =>
      exact fresh_of_identifier isKeyword (kind_ne_of_isAttributeValue named)

theorem Items.plain {single : String} {tokens : List Token} (items : Items single tokens) :
    Plain tokens := by
  induction items with
  | none => exact plain_nil
  | mark mark isMark _ ih => exact plain_cons (isPlain_of_isMark isMark) ih
  | entry keyword isKeyword _ named attributes _ ih =>
      exact plain_cons (isPlain_of_isName (.inl isKeyword))
        (plain_append named.plain (plain_append attributes.plain ih))
  | single keyword name isKeyword _ named attributes _ ih =>
      exact plain_cons (isPlain_of_isName (.inl isKeyword))
        (plain_cons (isPlain_of_isAttributeValue named) (plain_append attributes.plain ih))

/-! ## Bodies from a place on -/

/-- The construct whose attributes stand behind the keyword of an entry. -/
def entryConstruct? : String → Option Construct
  | "src" => some .source
  | "sr" => some .staging
  | "imm" => some .immediate
  | "mod" => some .modifier
  | _ => none

/-- Behind its keyword an entry has a name and attributes, which may be left out; only some keywords
start an entry with attributes. -/
theorem EntryPhrase.exists_names {entry : LayoutEntry} {keyword : String} {tokens : List Token}
    (phrase : EntryPhrase entry keyword tokens) :
    keyword ≠ "ins" ∧ ∃ name names pairs attributes, tokens = names ++ attributes ∧
      EntryNamePhrase name names ∧ AttributesPhrase pairs attributes ∧
      (attributes = [] ∨ ∃ construct, entryConstruct? keyword = some construct) := by
  cases phrase with
  | source named attributes =>
      obtain ⟨pairs, phrase, -⟩ := attributes
      exact ⟨by decide, _, _, _, _, rfl, named, phrase, .inr ⟨_, rfl⟩⟩
  | dest named =>
      exact ⟨by decide, _, _, _, _, (List.append_nil _).symm, named, .none, .inl rfl⟩
  | staging named attributes =>
      obtain ⟨pairs, phrase, -⟩ := attributes
      exact ⟨by decide, _, _, _, _, rfl, named, phrase, .inr ⟨_, rfl⟩⟩
  | immediate attributes =>
      obtain ⟨pairs, phrase, -⟩ := attributes
      exact ⟨by decide, _, _, _, _, rfl, .unnamed, phrase, .inr ⟨_, rfl⟩⟩
  | modifier attributes =>
      obtain ⟨pairs, phrase, -⟩ := attributes
      exact ⟨by decide, _, _, _, _, rfl, .unnamed, phrase, .inr ⟨_, rfl⟩⟩
  | tag bare =>
      refine ⟨?_, _, _, _, _, rfl, .unnamed, .none, .inl rfl⟩
      rintro rfl
      exact bare (by decide)

/-- The first entry of a body, by the keyword that is next. -/
theorem ItemsPhrase.cases_keyword {hasMembers : Bool} {entries : List LayoutEntry}
    {members : List GroupMember} {keyword : Token} {more : List Token}
    (phrase : ItemsPhrase hasMembers entries members (keyword :: more))
    (isKeyword : keyword.kind = .identifier) :
    (∃ first later tokens rest, entries = first :: later ∧ more = tokens ++ rest ∧
      EntryPhrase first keyword.lexeme tokens ∧ ItemsPhrase hasMembers later members rest) ∨
    ∃ first later tokens rest, members = first :: later ∧ more = tokens ++ rest ∧
      hasMembers = true ∧ keyword.lexeme = "ins" ∧ MemberPhrase first tokens ∧
        ItemsPhrase hasMembers entries later rest := by
  generalize whole : keyword :: more = tokens at phrase
  cases phrase with
  | close brace isClose =>
      obtain ⟨rfl, -⟩ := List.cons.inj whole
      rw [isKeyword] at isClose
      cases isClose
  | mark mark isMark items =>
      obtain ⟨rfl, -⟩ := List.cons.inj whole
      simp [Grammar.isMark, isKeyword] at isMark
  | entry word _ entry items =>
      obtain ⟨rfl, rfl⟩ := List.cons.inj whole
      exact .inl ⟨_, _, _, _, rfl, rfl, entry, items⟩
  | member word _ isIns permitted member items =>
      obtain ⟨rfl, rfl⟩ := List.cons.inj whole
      exact .inr ⟨_, _, _, _, rfl, rfl, permitted, isIns, member, items⟩

theorem ItemsPhrase.of_mark {hasMembers : Bool} {entries : List LayoutEntry}
    {members : List GroupMember} {mark : Token} {more : List Token}
    (phrase : ItemsPhrase hasMembers entries members (mark :: more)) (isMark : isMark mark) :
    ItemsPhrase hasMembers entries members more := by
  cases phrase with
  | close brace isClose => simp [Grammar.isMark, isClose] at isMark
  | mark _ _ items => exact items
  | entry _ isKeyword _ _ => simp [Grammar.isMark, isKeyword] at isMark
  | member _ isKeyword _ _ _ _ => simp [Grammar.isMark, isKeyword] at isMark

/-- Entries in front of a place in a body stand for some of its entries and members, and the others
are those from that place on. -/
theorem ItemsPhrase.cut {hasMembers : Bool} {entries : List LayoutEntry}
    {members : List GroupMember} {items rest : List Token} (listed : Items "ins" items)
    (fresh : Fresh rest) (phrase : ItemsPhrase hasMembers entries members (items ++ rest)) :
    ∃ front behind first later, entries = front ++ behind ∧ members = first ++ later ∧
      ItemsPhrase hasMembers behind later rest ∧
      ∀ {entries' members' rest'}, ItemsPhrase hasMembers entries' members' rest' →
        ItemsPhrase hasMembers (front ++ entries') (first ++ members') (items ++ rest') := by
  induction listed generalizing entries members with
  | none => exact ⟨[], entries, [], members, rfl, rfl, phrase, fun phrase => phrase⟩
  | mark mark isMark _ ih =>
      obtain ⟨front, behind, first, later, rfl, rfl, cut, again⟩ := ih (phrase.of_mark isMark)
      exact ⟨front, behind, first, later, rfl, rfl, cut,
        fun phrase => .mark mark isMark (again phrase)⟩
  | entry keyword isKeyword other named attributes items ih =>
      rw [List.cons_append, List.append_assoc, List.append_assoc] at phrase
      rcases phrase.cases_keyword isKeyword with
        ⟨head, tail, tokens, _, rfl, same, entry, behind⟩ | ⟨_, _, _, _, _, _, _, isIns, _⟩
      · obtain ⟨-, name, names, pairs, values, rfl, named', attributes', -⟩ := entry.exists_names
        rw [List.append_assoc] at same
        obtain ⟨rfl, rfl, rfl⟩ := named.eq_of_append named' attributes attributes'
          (items.fresh fresh) behind.isFresh same
        obtain ⟨front, rest, first, later, rfl, rfl, cut, again⟩ := ih behind
        refine ⟨head :: front, rest, first, later, rfl, rfl, cut, fun phrase => ?_⟩
        have whole := ItemsPhrase.entry keyword isKeyword entry (again phrase)
        simpa using whole
      · exact absurd isIns other
  | single keyword name isKeyword isSingle named attributes items ih =>
      rw [List.cons_append, List.cons_append, List.append_assoc] at phrase
      rcases phrase.cases_keyword isKeyword with
        ⟨_, _, _, _, _, _, entry, _⟩ |
        ⟨head, tail, tokens, _, rfl, same, permitted, isIns, member, behind⟩
      · exact absurd isSingle entry.exists_names.1
      · obtain ⟨word, isWord, pairs, attributes', distinct, read⟩ := member
        obtain ⟨rfl, more⟩ := List.cons.inj same
        obtain ⟨rfl, rfl, rfl⟩ := attributes.eq_of_append attributes'
          (items.fresh fresh).noAttribute behind.isFresh.noAttribute more
        obtain ⟨front, rest, first, later, rfl, rfl, cut, again⟩ := ih behind
        refine ⟨front, rest, _ :: first, later, rfl, rfl, cut, fun phrase => ?_⟩
        have member := MemberPhrase.member name isWord ⟨_, attributes', distinct, read⟩
        have whole := ItemsPhrase.member keyword isKeyword isIns permitted member (again phrase)
        simpa using whole

/-! ## Enumerations from a place on -/

/-- The first entry of an enumeration, by the keyword that is next. -/
theorem ValuesPhrase.cases_keyword {entries : List EnumerationEntry} {keyword : Token}
    {more : List Token} (phrase : ValuesPhrase entries (keyword :: more))
    (isKeyword : keyword.kind = .identifier) :
    (∃ text isDefault later tokens rest, entries = .value text.lexeme isDefault :: later ∧
      more = text :: (tokens ++ rest) ∧ keyword.lexeme = "value" ∧
      Reader.isAttributeValue text.kind = true ∧
      Attributed .enumerationValue (·.isDefault) isDefault tokens ∧ ValuesPhrase later rest) ∨
    ∃ later, entries = .reserved :: later ∧ keyword.lexeme = "reserved" ∧
      ValuesPhrase later more := by
  generalize whole : keyword :: more = tokens at phrase
  cases phrase with
  | close brace isClose =>
      obtain ⟨rfl, -⟩ := List.cons.inj whole
      rw [isKeyword] at isClose
      cases isClose
  | mark mark isMark items =>
      obtain ⟨rfl, -⟩ := List.cons.inj whole
      simp [Grammar.isMark, isKeyword] at isMark
  | value word text _ isValue isText attributes values =>
      obtain ⟨rfl, rfl⟩ := List.cons.inj whole
      exact .inl ⟨_, _, _, _, _, rfl, rfl, isValue, isText, attributes, values⟩
  | reserved word _ isReserved values =>
      obtain ⟨rfl, rfl⟩ := List.cons.inj whole
      exact .inr ⟨_, rfl, isReserved, values⟩

theorem ValuesPhrase.of_mark {entries : List EnumerationEntry} {mark : Token} {more : List Token}
    (phrase : ValuesPhrase entries (mark :: more)) (isMark : isMark mark) :
    ValuesPhrase entries more := by
  cases phrase with
  | close brace isClose => simp [Grammar.isMark, isClose] at isMark
  | mark _ _ values => exact values
  | value _ _ isKeyword _ _ _ _ => simp [Grammar.isMark, isKeyword] at isMark
  | reserved _ isKeyword _ _ => simp [Grammar.isMark, isKeyword] at isMark

/-- Entries in front of a place in an enumeration stand for some of its entries, and the others are
those from that place on. -/
theorem ValuesPhrase.cut {entries : List EnumerationEntry} {items rest : List Token}
    (listed : Items "value" items) (fresh : Fresh rest)
    (phrase : ValuesPhrase entries (items ++ rest)) :
    ∃ front behind, entries = front ++ behind ∧ ValuesPhrase behind rest ∧
      ∀ {entries' rest'}, ValuesPhrase entries' rest' →
        ValuesPhrase (front ++ entries') (items ++ rest') := by
  induction listed generalizing entries with
  | none => exact ⟨[], entries, rfl, phrase, fun phrase => phrase⟩
  | mark mark isMark _ ih =>
      obtain ⟨front, behind, rfl, cut, again⟩ := ih (phrase.of_mark isMark)
      exact ⟨front, behind, rfl, cut, fun phrase => .mark mark isMark (again phrase)⟩
  | entry keyword isKeyword other named attributes items ih =>
      rw [List.cons_append, List.append_assoc, List.append_assoc] at phrase
      rcases phrase.cases_keyword isKeyword with
        ⟨_, _, _, _, _, _, _, isValue, _⟩ | ⟨later, rfl, isReserved, values⟩
      · exact absurd isValue other
      · -- Nothing stands behind the keyword, since the next entry begins with neither.
        obtain ⟨rfl, rfl, -⟩ := named.eq_of_append .unnamed attributes .none (items.fresh fresh)
          values.isFresh rfl
        obtain ⟨front, behind, rfl, cut, again⟩ := ih values
        exact ⟨.reserved :: front, behind, rfl, cut,
          fun phrase => .reserved keyword isKeyword isReserved (again phrase)⟩
  | single keyword name isKeyword isSingle named attributes items ih =>
      rw [List.cons_append, List.cons_append, List.append_assoc] at phrase
      rcases phrase.cases_keyword isKeyword with
        ⟨text, isDefault, later, tokens, _, rfl, same, isValue, isText, attributed, values⟩ |
        ⟨_, _, isReserved, _⟩
      · have ⟨pairs, attributes', _⟩ := attributed
        obtain ⟨rfl, more⟩ := List.cons.inj same
        obtain ⟨rfl, rfl, rfl⟩ := attributes.eq_of_append attributes'
          (items.fresh fresh).noAttribute values.isFresh.noAttribute more
        obtain ⟨front, behind, rfl, cut, again⟩ := ih values
        refine ⟨.value name.lexeme isDefault :: front, behind, rfl, cut, fun phrase => ?_⟩
        have whole :=
          ValuesPhrase.value keyword name isKeyword isValue isText attributed (again phrase)
        simpa using whole
      · exact absurd (isReserved.symm.trans isSingle) (by decide)

/-! ## Slots -/

/-- The beginning of an entry or a member in front of its attributes. -/
inductive EntryFront : Construct → List Token → Prop where
  | entry {construct : Construct} {name : String} {names : List Token} (keyword : Token)
      (isKeyword : keyword.kind = .identifier)
      (starts : entryConstruct? keyword.lexeme = some construct)
      (named : EntryNamePhrase name names) : EntryFront construct (keyword :: names)
  | member (keyword name : Token) (isKeyword : keyword.kind = .identifier)
      (isIns : keyword.lexeme = "ins") (named : isName name) :
      EntryFront (.member name.lexeme) [keyword, name]

theorem EntryFront.fresh {construct : Construct} {front more : List Token}
    (starts : EntryFront construct front) (noSign : frontKind more ≠ .equals) :
    Fresh (front ++ more) := by
  cases starts with
  | entry keyword isKeyword _ named => exact fresh_of_identifier isKeyword (named.noSign noSign)
  | member keyword name isKeyword _ named =>
      exact fresh_of_identifier isKeyword
        (kind_ne_of_isAttributeValue (isAttributeValue_of_isName named))

theorem EntryFront.plain {construct : Construct} {tokens : List Token}
    (starts : EntryFront construct tokens) : Plain tokens := by
  cases starts with
  | entry keyword isKeyword _ named =>
      exact plain_cons (isPlain_of_isName (.inl isKeyword)) named.plain
  | member keyword name isKeyword _ named =>
      exact plain_cons (isPlain_of_isName (.inl isKeyword))
        (plain_cons (isPlain_of_isName named) plain_nil)

/-- The beginning of a directive in front of the attributes of a construct: of the directive itself,
of an entry or a member in its body, or of a value. -/
inductive Slot : Construct → List Token → Prop where
  | instruction (mark keyword name : Token) (isMark : mark.kind = .colon)
      (isKeyword : keyword.kind = .identifier) (isIns : keyword.lexeme = "ins")
      (named : isName name) : Slot (.instruction name.lexeme) [mark, keyword, name]
  | group {name? : Option String} {names : List Token} (mark keyword : Token)
      (isMark : mark.kind = .colon) (isKeyword : keyword.kind = .identifier)
      (isGroup : keyword.lexeme = "group") (named : GroupNamePhrase name? names) :
      Slot (.group name?) (mark :: keyword :: names)
  | entry {construct : Construct} {header items front : List Token} (mark keyword opening : Token)
      (isMark : mark.kind = .colon) (isKeyword : keyword.kind = .identifier)
      (hasBody : keyword.lexeme = "ins" ∨ keyword.lexeme = "group") (plain : Plain header)
      (isOpen : opening.kind = .openBrace) (listed : Items "ins" items)
      (starts : EntryFront construct front) :
      Slot construct (mark :: keyword :: (header ++ opening :: (items ++ front)))
  | value {items : List Token} (mark keyword name opening word text : Token)
      (isMark : mark.kind = .colon) (isKeyword : keyword.kind = .identifier)
      (isEnum : keyword.lexeme = "enum") (named : isName name) (isOpen : opening.kind = .openBrace)
      (listed : Items "value" items) (isWord : word.kind = .identifier)
      (isValue : word.lexeme = "value") (isText : Reader.isAttributeValue text.kind = true) :
      Slot .enumerationValue (mark :: keyword :: name :: opening :: (items ++ [word, text]))

/-- Tokens that belong neither to the attributes of a construct in front of them nor to its name. -/
structure Construct.EndsAt (construct : Construct) (behind : List Token) : Prop where
  fresh : Fresh behind
  unnamed : construct = .group none → frontKind behind ≠ .identifier

/-- A slot begins with the colon of its directive, and no other colon is in it. -/
theorem Slot.exists_cons {construct : Construct} {front : List Token}
    (slot : Slot construct front) :
    ∃ mark rest, front = mark :: rest ∧ mark.kind = .colon ∧ Inside rest := by
  cases slot with
  | instruction mark keyword name isMark isKeyword _ named =>
      exact ⟨mark, _, rfl, isMark, (plain_cons (isPlain_of_isName (.inl isKeyword))
        (plain_cons (isPlain_of_isName named) plain_nil)).inside⟩
  | group mark keyword isMark isKeyword _ named =>
      exact ⟨mark, _, rfl, isMark,
        (plain_cons (isPlain_of_isName (.inl isKeyword)) named.plain).inside⟩
  | entry mark keyword opening isMark isKeyword _ plain isOpen listed starts =>
      refine ⟨mark, _, rfl, isMark, inside_cons (isBoundary_of_isName (.inl isKeyword)) ?_⟩
      refine inside_append plain.inside ?_
      exact inside_cons (isBoundary_of_kind isOpen (by decide) (by decide))
        (plain_append listed.plain starts.plain).inside
  | value mark keyword name opening word text isMark isKeyword _ named isOpen listed isWord _
      isText =>
      refine ⟨mark, _, rfl, isMark, inside_cons (isBoundary_of_isName (.inl isKeyword)) ?_⟩
      refine inside_cons (isBoundary_of_isName named) ?_
      refine inside_cons (isBoundary_of_kind isOpen (by decide) (by decide)) ?_
      exact (plain_append listed.plain (plain_cons (isPlain_of_isName (.inl isWord))
        (plain_cons (isPlain_of_isAttributeValue isText) plain_nil))).inside

/-! ## What belongs to a slot -/

/-- The name of a group ends in one way only, in front of its attributes and its body. -/
theorem GroupNamePhrase.eq_of_append {name? other : Option String} {pairs found : AttributePairs}
    {names names' tokens values rest rest' : List Token} (named : GroupNamePhrase name? names)
    (named' : GroupNamePhrase other names') (attributes : AttributesPhrase pairs tokens)
    (attributes' : AttributesPhrase found values) (ends : (Construct.group name?).EndsAt rest)
    (opens : frontKind rest' = .openBrace)
    (same : names ++ (tokens ++ rest) = names' ++ (values ++ rest')) :
    name? = other ∧ names = names' ∧ tokens = values ∧ rest = rest' := by
  have noSign : frontKind (values ++ rest') ≠ .equals := attributes'.noSign (by simp [opens])
  have divided : ∀ {tokens values : List Token}, AttributesPhrase pairs tokens →
      AttributesPhrase found values → tokens ++ rest = values ++ rest' →
      tokens = values ∧ rest = rest' := fun attributes attributes' same =>
    (attributes.eq_of_append attributes' ends.fresh.noAttribute
      (startsAttribute_eq_false (by simp [opens])) same).2
  cases named with
  | unnamed =>
      cases named' with
      | unnamed => exact ⟨rfl, rfl, divided attributes attributes' same⟩
      | named token isName =>
          -- A name in front of the body would be a key or stand behind the attributes.
          cases attributes with
          | none =>
              rw [List.nil_append, List.nil_append] at same
              subst same
              rcases isName with identifier | text
              · exact absurd identifier (ends.unnamed rfl)
              · exact absurd text ends.fresh.noText
          | more key sign value isKey isSign isValue later =>
              simp only [List.nil_append, List.cons_append, List.cons.injEq] at same
              rw [← same.2] at noSign
              exact absurd isSign noSign
  | named token isName =>
      cases named' with
      | unnamed =>
          have noKey := attributes.noSign ends.fresh.noSign
          cases attributes' with
          | none =>
              rw [List.nil_append, List.nil_append] at same
              rw [← same] at opens
              exact absurd opens (not_isPlain_of_open · (isPlain_of_isName isName))
          | more key sign value isKey isSign isValue later =>
              simp only [List.nil_append, List.cons_append, List.cons.injEq] at same
              rw [same.2] at noKey
              exact absurd isSign noKey
      | named token' isName' =>
          obtain ⟨rfl, behind⟩ := List.cons.inj same
          exact ⟨rfl, rfl, divided attributes attributes' behind⟩

/-- Tokens whose first ones belong to nothing in front of them are so up to the next directive. -/
theorem Construct.EndsAt.leading {construct : Construct} {behind : List Token}
    (ends : construct.EndsAt behind) : construct.EndsAt (leading behind) := by
  cases behind with
  | nil => exact ends
  | cons token rest =>
      by_cases colon : token.kind = .colon
      · have none : Grammar.leading (token :: rest) = [] := by simp [Grammar.leading, colon]
        rw [none]
        exact ⟨⟨by decide, by decide, rfl⟩, fun _ => by decide⟩
      · have front : Grammar.leading (token :: rest) = token :: Grammar.leading rest := by
          simp [Grammar.leading, colon]
        rw [front]
        refine ⟨⟨ends.fresh.noText, ends.fresh.noSign, ?_⟩, ends.unnamed⟩
        have noAttribute := ends.fresh.noAttribute
        cases rest with
        | nil => rfl
        | cons second rest =>
            by_cases colon' : second.kind = .colon
            · simp [Grammar.leading, colon', startsAttribute]
            · simpa [Grammar.leading, colon', startsAttribute] using noAttribute

end InstructionSet.Grammar
