import InstructionSet.Grammar.Description

/-!
# The phrases of the grammar

What tokens are the attributes of a construct, an entry of a body, a body or a directive is said
here without any reading: a phrase is a list of tokens together with what it stands for. The
readers and these phrases are related in both directions in the modules that follow.

Marks between entries belong to the phrase of a body, and so does its closing brace. What stands in
front of a body and between its braces has no brace itself (`EntryPhrase.plain`), so a body ends at
the first closing brace. Nothing inside a directive is a colon (`DirectivePhrase.inside`), which is
why a directive ends where the next one begins.
-/

namespace InstructionSet.Grammar

open InstructionSet.Text InstructionSet.Scanner

set_option autoImplicit false

/-- The region from a token to the last one of those behind it. -/
def regionOver (first : Token) (rest : List Token) : Region :=
  first.regionTo (rest.getLast?.getD first)

/-- Whether a token may be a name. -/
def isName (token : Token) : Prop :=
  token.kind = .identifier ∨ token.kind = .text

/-- Whether a token may stand between two entries. -/
def isMark (token : Token) : Prop :=
  token.kind = .comma ∨ token.kind = .semicolon

/-- The words that start an entry of a body without being a tag. -/
def entryKeywords : List String := ["src", "dest", "sr", "imm", "mod", "ins"]

/-- The name of the lookup table that a directive declares, if it declares one. -/
def tableNames (directive : Directive) : List String :=
  (directive.lookupTable?.map (·.name)).toList

/-! ## Attributes and names -/

/-- Keys with their values, each behind a sign. -/
inductive AttributesPhrase : AttributePairs → List Token → Prop where
  | none : AttributesPhrase [] []
  | more {pairs : AttributePairs} {tokens : List Token} (key sign value : Token)
      (isKey : key.kind = .identifier) (isSign : sign.kind = .equals)
      (isValue : Reader.isAttributeValue value.kind = true)
      (rest : AttributesPhrase pairs tokens) :
      AttributesPhrase ((key.lexeme.toLower, value) :: pairs) (key :: sign :: value :: tokens)

/-- Attributes without a repeated key that a construct reads as a value. -/
def Attributed {α : Type} (construct : Construct) (reading : Attributes → Except SyntaxError α)
    (value : α) (tokens : List Token) : Prop :=
  ∃ pairs, AttributesPhrase pairs tokens ∧ (pairs.map (·.1)).Nodup ∧
    reading ⟨construct, pairs⟩ = .ok value

/-- The name of an entry, which may be left out. -/
inductive EntryNamePhrase : String → List Token → Prop where
  | unnamed : EntryNamePhrase "" []
  | quoted (token : Token) (isText : token.kind = .text) : EntryNamePhrase token.lexeme [token]

/-- The name of a group, which may be left out. -/
inductive GroupNamePhrase : Option String → List Token → Prop where
  | unnamed : GroupNamePhrase none []
  | named (token : Token) (named : isName token) : GroupNamePhrase (some token.lexeme) [token]

/-! ## Bodies -/

/-- An entry of a layout, behind the word that starts it. -/
inductive EntryPhrase : LayoutEntry → (keyword : String) → List Token → Prop where
  | source {name : String} {form : SourceForm} {names tokens : List Token}
      (named : EntryNamePhrase name names)
      (attributes : Attributed .source (·.source name) form tokens) :
      EntryPhrase (.source form) "src" (names ++ tokens)
  | dest {name : String} {names : List Token} (named : EntryNamePhrase name names) :
      EntryPhrase (.dest name) "dest" names
  | staging {name : String} {form : StagingForm} {names tokens : List Token}
      (named : EntryNamePhrase name names)
      (attributes : Attributed .staging (·.staging name) form tokens) :
      EntryPhrase (.staging form) "sr" (names ++ tokens)
  | immediate {operand : Immediate} {tokens : List Token}
      (attributes : Attributed .immediate (·.immediate) operand tokens) :
      EntryPhrase (.immediate operand) "imm" tokens
  | modifier {placement : ModifierPlacement} {tokens : List Token}
      (attributes : Attributed .modifier (·.modifier) placement tokens) :
      EntryPhrase (.modifier placement) "mod" tokens
  | tag {tag : String} (bare : tag ∉ entryKeywords) : EntryPhrase (.tag tag) tag []

/-- A member of a group, behind its keyword. -/
inductive MemberPhrase : GroupMember → List Token → Prop where
  | member {opcodes : Opcodes} {tokens : List Token} (name : Token) (named : isName name)
      (attributes : Attributed (.member name.lexeme) (·.member) opcodes tokens) :
      MemberPhrase ⟨name.lexeme, opcodes, regionOver name tokens⟩ (name :: tokens)

/-- The entries and members of a body, with the marks between them and its closing brace. -/
inductive ItemsPhrase (hasMembers : Bool) :
    List LayoutEntry → List GroupMember → List Token → Prop where
  | close (brace : Token) (isClose : brace.kind = .closeBrace) :
      ItemsPhrase hasMembers [] [] [brace]
  | mark {entries : List LayoutEntry} {members : List GroupMember} {rest : List Token}
      (mark : Token) (isMark : isMark mark) (items : ItemsPhrase hasMembers entries members rest) :
      ItemsPhrase hasMembers entries members (mark :: rest)
  | entry {entries : List LayoutEntry} {members : List GroupMember} {tokens rest : List Token}
      {first : LayoutEntry} (keyword : Token) (isKeyword : keyword.kind = .identifier)
      (entry : EntryPhrase first keyword.lexeme tokens)
      (items : ItemsPhrase hasMembers entries members rest) :
      ItemsPhrase hasMembers (first :: entries) members (keyword :: (tokens ++ rest))
  | member {entries : List LayoutEntry} {members : List GroupMember} {tokens rest : List Token}
      {first : GroupMember} (keyword : Token) (isKeyword : keyword.kind = .identifier)
      (isIns : keyword.lexeme = "ins") (permitted : hasMembers = true)
      (member : MemberPhrase first tokens)
      (items : ItemsPhrase hasMembers entries members rest) :
      ItemsPhrase hasMembers entries (first :: members) (keyword :: (tokens ++ rest))

/-- A body in its braces. -/
inductive BodyPhrase (hasMembers : Bool) :
    List LayoutEntry → List GroupMember → List Token → Prop where
  | braces {entries : List LayoutEntry} {members : List GroupMember} {items : List Token}
      (brace : Token) (isOpen : brace.kind = .openBrace)
      (phrase : ItemsPhrase hasMembers entries members items) :
      BodyPhrase hasMembers entries members (brace :: items)

/-! ## Directives -/

/-- The constants of a lookup table with the marks between them and the closing brace. -/
inductive ConstantsPhrase : List UInt32 → List Token → Prop where
  | close (brace : Token) (isClose : brace.kind = .closeBrace) : ConstantsPhrase [] [brace]
  | mark {values : List UInt32} {rest : List Token} (mark : Token) (isMark : isMark mark)
      (constants : ConstantsPhrase values rest) : ConstantsPhrase values (mark :: rest)
  | number {values : List UInt32} {rest : List Token} {value : UInt32} (number : Token)
      (isNumber : number.kind = .number) (read : Numeral.word32 number.lexeme = .ok value)
      (constants : ConstantsPhrase values rest) : ConstantsPhrase (value :: values) (number :: rest)

/-- The entries of an enumeration with the marks between them and the closing brace. -/
inductive ValuesPhrase : List EnumerationEntry → List Token → Prop where
  | close (brace : Token) (isClose : brace.kind = .closeBrace) : ValuesPhrase [] [brace]
  | mark {entries : List EnumerationEntry} {rest : List Token} (mark : Token)
      (isMark : isMark mark) (values : ValuesPhrase entries rest) :
      ValuesPhrase entries (mark :: rest)
  | value {entries : List EnumerationEntry} {tokens rest : List Token} {isDefault : Bool}
      (keyword text : Token) (isKeyword : keyword.kind = .identifier)
      (isValue : keyword.lexeme = "value")
      (isText : Reader.isAttributeValue text.kind = true)
      (attributes : Attributed .enumerationValue (·.isDefault) isDefault tokens)
      (values : ValuesPhrase entries rest) :
      ValuesPhrase (.value text.lexeme isDefault :: entries) (keyword :: text :: (tokens ++ rest))
  | reserved {entries : List EnumerationEntry} {rest : List Token} (keyword : Token)
      (isKeyword : keyword.kind = .identifier) (isReserved : keyword.lexeme = "reserved")
      (values : ValuesPhrase entries rest) :
      ValuesPhrase (.reserved :: entries) (keyword :: rest)

/-- A directive, behind its name. -/
inductive NamedPhrase : Directive → (keyword : String) → List Token → Prop where
  | lookupTable {values : List UInt32} {constants : List Token} (name brace : Token)
      (named : isName name) (isOpen : brace.kind = .openBrace)
      (phrase : ConstantsPhrase values constants) :
      NamedPhrase (.lookupTable ⟨name.lexeme, values, regionOver name (brace :: constants)⟩) "lut"
        (name :: brace :: constants)
  | enumeration {entries : List EnumerationEntry} {values : List Token} (name brace : Token)
      (named : isName name) (isOpen : brace.kind = .openBrace)
      (phrase : ValuesPhrase entries values) :
      NamedPhrase (.enumeration ⟨name.lexeme, entries, regionOver name (brace :: values)⟩) "enum"
        (name :: brace :: values)
  | bare {opcodes : Opcodes} {layout : Layout} {tokens : List Token} (name : Token)
      (named : isName name)
      (attributes : Attributed (.instruction name.lexeme) (·.header) (opcodes, layout) tokens) :
      NamedPhrase (.instruction ⟨name.lexeme, opcodes, layout, regionOver name tokens⟩) "ins"
        (name :: tokens)
  | instruction {opcodes : Opcodes} {layout : Layout} {entries : List LayoutEntry}
      {members : List GroupMember} {tokens items : List Token} (name : Token)
      (named : isName name)
      (attributes : Attributed (.instruction name.lexeme) (·.header) (opcodes, layout) tokens)
      (body : BodyPhrase false entries members items) :
      NamedPhrase (.instruction ⟨name.lexeme, opcodes,
          { layout with entries := layout.entries ++ entries }, regionOver name (tokens ++ items)⟩)
        "ins" (name :: (tokens ++ items))
  | group {name? : Option String} {opcodes : Opcodes} {layout : Layout}
      {entries : List LayoutEntry} {members : List GroupMember}
      {names tokens items rest : List Token} {first : Token}
      (named : GroupNamePhrase name? names)
      (attributes : Attributed (.group name?) (·.header) (opcodes, layout) tokens)
      (body : BodyPhrase true entries members items) (listed : members ≠ [])
      (whole : names ++ (tokens ++ items) = first :: rest) :
      NamedPhrase (.group ⟨name?, opcodes,
          { layout with entries := layout.entries ++ entries }, members, regionOver first rest⟩)
        "group" (first :: rest)

/-- A directive. -/
inductive DirectivePhrase : Directive → List Token → Prop where
  | directive {directive : Directive} {tokens : List Token} (mark keyword : Token)
      (isMark : mark.kind = .colon) (isKeyword : keyword.kind = .identifier)
      (named : NamedPhrase directive keyword.lexeme tokens) :
      DirectivePhrase directive (mark :: keyword :: tokens)

theorem NamedPhrase.tableNames_eq_nil {directive : Directive} {keyword : String}
    {tokens : List Token} (phrase : NamedPhrase directive keyword tokens)
    (other : keyword ≠ "lut") : tableNames directive = [] := by
  cases phrase with
  | lookupTable => exact absurd rfl other
  | enumeration => rfl
  | bare => rfl
  | instruction => rfl
  | group => rfl

/-! ## What entries and members are made of -/

/-- Whether a token neither introduces a directive, nor ends the source, nor is a brace. -/
def isPlain (token : Token) : Prop :=
  token.kind ∉ [TokenKind.colon, .finish, .openBrace, .closeBrace]

instance : DecidablePred isPlain := fun token =>
  inferInstanceAs (Decidable (token.kind ∉ [TokenKind.colon, .finish, .openBrace, .closeBrace]))

/-- Whether every token is plain. -/
def Plain (tokens : List Token) : Prop :=
  ∀ token ∈ tokens, isPlain token

theorem isPlain_of_isName {token : Token} (named : isName token) : isPlain token := by
  rcases named with identifier | text
  · simp [isPlain, identifier]
  · simp [isPlain, text]

theorem isPlain_of_isMark {token : Token} (mark : isMark token) : isPlain token := by
  rcases mark with comma | semicolon
  · simp [isPlain, comma]
  · simp [isPlain, semicolon]

theorem kind_ne_of_isMark {mark : Token} (marks : isMark mark) : mark.kind ≠ .equals := by
  rcases marks with comma | semicolon
  · simp [comma]
  · simp [semicolon]

theorem isPlain_of_isAttributeValue {token : Token}
    (value : Reader.isAttributeValue token.kind = true) : isPlain token := by
  cases kind : token.kind <;> simp_all [Reader.isAttributeValue, isPlain]

theorem kind_ne_of_isAttributeValue {token : Token}
    (isValue : Reader.isAttributeValue token.kind = true) : token.kind ≠ .equals := by
  intro isSign
  rw [isSign] at isValue
  cases isValue

theorem isAttributeValue_of_isName {token : Token} (named : isName token) :
    Reader.isAttributeValue token.kind = true := by
  rcases named with identifier | text
  · rw [identifier]
    rfl
  · rw [text]
    rfl

theorem plain_nil : Plain [] := fun _ member => by cases member

theorem plain_cons {token : Token} {tokens : List Token} (first : isPlain token)
    (rest : Plain tokens) : Plain (token :: tokens) :=
  List.forall_mem_cons.2 ⟨first, rest⟩

theorem plain_append {tokens more : List Token} (first : Plain tokens) (rest : Plain more) :
    Plain (tokens ++ more) :=
  List.forall_mem_append.2 ⟨first, rest⟩

theorem not_isPlain_of_open {brace : Token} (isOpen : brace.kind = .openBrace) :
    ¬ isPlain brace := by
  simp [isPlain, isOpen]

theorem not_isPlain_of_close {brace : Token} (isClose : brace.kind = .closeBrace) :
    ¬ isPlain brace := by
  simp [isPlain, isClose]

/-- Tokens are divided in one way only at the first that is not plain. -/
theorem eq_of_plain_append {front others rest more : List Token} {brace second : Token}
    (plain : Plain front) (plain' : Plain others) (ends : ¬ isPlain brace)
    (ends' : ¬ isPlain second) (same : front ++ brace :: rest = others ++ second :: more) :
    front = others ∧ brace = second ∧ rest = more := by
  induction front generalizing others with
  | nil =>
      cases others with
      | nil =>
          obtain ⟨rfl, rfl⟩ := List.cons.inj same
          exact ⟨rfl, rfl, rfl⟩
      | cons token others =>
          obtain ⟨rfl, -⟩ := List.cons.inj same
          exact absurd (plain' _ List.mem_cons_self) ends
  | cons token front ih =>
      cases others with
      | nil =>
          obtain ⟨rfl, -⟩ := List.cons.inj same
          exact absurd (plain _ List.mem_cons_self) ends'
      | cons token' others =>
          obtain ⟨rfl, behind⟩ := List.cons.inj same
          obtain ⟨rfl, both⟩ := ih (List.forall_mem_cons.1 plain).2
            (List.forall_mem_cons.1 plain').2 behind
          exact ⟨rfl, both⟩

theorem AttributesPhrase.plain {pairs : AttributePairs} {tokens : List Token}
    (phrase : AttributesPhrase pairs tokens) : Plain tokens := by
  induction phrase with
  | none => exact plain_nil
  | more key sign value isKey isSign isValue _ ih =>
      refine plain_cons (isPlain_of_isName (.inl isKey)) ?_
      refine plain_cons (by simp [isPlain, isSign]) ?_
      exact plain_cons (isPlain_of_isAttributeValue isValue) ih

theorem Attributed.plain {α : Type} {construct : Construct}
    {reading : Attributes → Except SyntaxError α} {value : α} {tokens : List Token}
    (attributes : Attributed construct reading value tokens) : Plain tokens := by
  obtain ⟨pairs, phrase, -, -⟩ := attributes
  exact phrase.plain

theorem EntryNamePhrase.plain {name : String} {tokens : List Token}
    (phrase : EntryNamePhrase name tokens) : Plain tokens := by
  cases phrase with
  | unnamed => exact plain_nil
  | quoted token isText => exact plain_cons (isPlain_of_isName (.inr isText)) plain_nil

theorem GroupNamePhrase.plain {name? : Option String} {tokens : List Token}
    (phrase : GroupNamePhrase name? tokens) : Plain tokens := by
  cases phrase with
  | unnamed => exact plain_nil
  | named token named => exact plain_cons (isPlain_of_isName named) plain_nil

theorem EntryPhrase.plain {entry : LayoutEntry} {keyword : String} {tokens : List Token}
    (phrase : EntryPhrase entry keyword tokens) : Plain tokens := by
  cases phrase with
  | source named attributes => exact plain_append named.plain attributes.plain
  | dest named => exact named.plain
  | staging named attributes => exact plain_append named.plain attributes.plain
  | immediate attributes => exact attributes.plain
  | modifier attributes => exact attributes.plain
  | tag bare => exact plain_nil

theorem MemberPhrase.plain {member : GroupMember} {tokens : List Token}
    (phrase : MemberPhrase member tokens) : Plain tokens := by
  cases phrase with
  | member name named attributes => exact plain_cons (isPlain_of_isName named) attributes.plain

/-! ## No directive begins inside another -/

/-- Whether no token introduces a directive or ends the source. -/
def Inside (tokens : List Token) : Prop :=
  ∀ token ∈ tokens, isBoundary token = false

theorem isBoundary_of_isPlain {token : Token} (plain : isPlain token) :
    isBoundary token = false := by
  simp only [isPlain, List.mem_cons, not_or] at plain
  simp [isBoundary, plain]

theorem Plain.inside {tokens : List Token} (plain : Plain tokens) : Inside tokens :=
  fun token member => isBoundary_of_isPlain (plain token member)

theorem inside_nil : Inside [] := fun _ member => by cases member

theorem inside_cons {token : Token} {tokens : List Token} (first : isBoundary token = false)
    (rest : Inside tokens) : Inside (token :: tokens) :=
  List.forall_mem_cons.2 ⟨first, rest⟩

theorem inside_append {tokens more : List Token} (first : Inside tokens) (rest : Inside more) :
    Inside (tokens ++ more) :=
  List.forall_mem_append.2 ⟨first, rest⟩

theorem isBoundary_of_kind {token : Token} {kind : TokenKind} (same : token.kind = kind)
    (notColon : kind ≠ .colon) (notFinish : kind ≠ .finish) : isBoundary token = false := by
  simp [isBoundary, same, notColon, notFinish]

theorem isBoundary_of_isName {token : Token} (named : isName token) :
    isBoundary token = false :=
  isBoundary_of_isPlain (isPlain_of_isName named)

theorem isBoundary_of_isMark {token : Token} (mark : isMark token) : isBoundary token = false :=
  isBoundary_of_isPlain (isPlain_of_isMark mark)

theorem ItemsPhrase.inside {hasMembers : Bool} {entries : List LayoutEntry}
    {members : List GroupMember} {tokens : List Token}
    (phrase : ItemsPhrase hasMembers entries members tokens) : Inside tokens := by
  induction phrase with
  | close brace isClose =>
      exact inside_cons (isBoundary_of_kind isClose (by decide) (by decide)) inside_nil
  | mark mark isMark _ ih => exact inside_cons (isBoundary_of_isMark isMark) ih
  | entry keyword isKeyword entry _ ih =>
      refine inside_cons (isBoundary_of_isName (.inl isKeyword)) ?_
      exact inside_append entry.plain.inside ih
  | member keyword isKeyword _ _ member _ ih =>
      refine inside_cons (isBoundary_of_isName (.inl isKeyword)) ?_
      exact inside_append member.plain.inside ih

theorem BodyPhrase.inside {hasMembers : Bool} {entries : List LayoutEntry}
    {members : List GroupMember} {tokens : List Token}
    (phrase : BodyPhrase hasMembers entries members tokens) : Inside tokens := by
  cases phrase with
  | braces brace isOpen items =>
      exact inside_cons (isBoundary_of_kind isOpen (by decide) (by decide)) items.inside

theorem ConstantsPhrase.inside {values : List UInt32} {tokens : List Token}
    (phrase : ConstantsPhrase values tokens) : Inside tokens := by
  induction phrase with
  | close brace isClose =>
      exact inside_cons (isBoundary_of_kind isClose (by decide) (by decide)) inside_nil
  | mark mark isMark _ ih => exact inside_cons (isBoundary_of_isMark isMark) ih
  | number number isNumber _ _ ih =>
      exact inside_cons (isBoundary_of_kind isNumber (by decide) (by decide)) ih

theorem ValuesPhrase.inside {entries : List EnumerationEntry} {tokens : List Token}
    (phrase : ValuesPhrase entries tokens) : Inside tokens := by
  induction phrase with
  | close brace isClose =>
      exact inside_cons (isBoundary_of_kind isClose (by decide) (by decide)) inside_nil
  | mark mark isMark _ ih => exact inside_cons (isBoundary_of_isMark isMark) ih
  | value keyword text isKeyword _ isText attributes _ ih =>
      refine inside_cons (isBoundary_of_isName (.inl isKeyword)) ?_
      refine inside_cons (isBoundary_of_isPlain (isPlain_of_isAttributeValue isText)) ?_
      exact inside_append attributes.plain.inside ih
  | reserved keyword isKeyword _ _ ih =>
      exact inside_cons (isBoundary_of_isName (.inl isKeyword)) ih

theorem NamedPhrase.inside {directive : Directive} {keyword : String} {tokens : List Token}
    (phrase : NamedPhrase directive keyword tokens) : Inside tokens := by
  cases phrase with
  | lookupTable name brace named isOpen constants =>
      refine inside_cons (isBoundary_of_isName named) ?_
      exact inside_cons (isBoundary_of_kind isOpen (by decide) (by decide)) constants.inside
  | enumeration name brace named isOpen values =>
      refine inside_cons (isBoundary_of_isName named) ?_
      exact inside_cons (isBoundary_of_kind isOpen (by decide) (by decide)) values.inside
  | bare name named attributes =>
      exact inside_cons (isBoundary_of_isName named) attributes.plain.inside
  | instruction name named attributes body =>
      refine inside_cons (isBoundary_of_isName named) ?_
      exact inside_append attributes.plain.inside body.inside
  | group named attributes body listed whole =>
      rw [← whole]
      refine inside_append named.plain.inside ?_
      exact inside_append attributes.plain.inside body.inside

/-- A directive is a colon with tokens behind it that introduce no other directive. -/
theorem DirectivePhrase.inside {directive : Directive} {tokens : List Token}
    (phrase : DirectivePhrase directive tokens) :
    ∃ mark rest, tokens = mark :: rest ∧ mark.kind = .colon ∧ Inside rest := by
  cases phrase with
  | directive mark keyword isMark isKeyword named =>
      refine ⟨mark, _, rfl, isMark, ?_⟩
      exact inside_cons (isBoundary_of_isName (.inl isKeyword)) named.inside

end InstructionSet.Grammar
