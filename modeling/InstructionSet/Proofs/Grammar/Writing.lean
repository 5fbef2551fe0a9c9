import InstructionSet.Proofs.Grammar.Phrases
import InstructionSet.Proofs.Token.Spelling

/-!
# Writing descriptions

A description is written line by line: a heading with the name of the directive, a line for each
entry of its body, and the closing brace. Names and texts are quoted, numbers are decimal, and
attributes are written also where they could be left out. On a line the tokens stand apart, but for
the sign of an attribute, which has no blanks around it, and the mark of a directive, which has none
behind it. The text that is written reads as its tokens (`readsAs_write`).
-/

namespace InstructionSet

open InstructionSet.Text InstructionSet.Grammar InstructionSet.Scanner

set_option autoImplicit false

/-! ## What can be written -/

/-- Whether an entry can be written: a tag is a word, and none of those that start other entries. -/
def LayoutEntry.WellFormed : LayoutEntry → Prop
  | .tag name => isIdentifier name.toList = true ∧ name ∉ entryKeywords
  | _ => True

/-- Whether the entries of a layout can be written. -/
def Layout.WellFormed (layout : Layout) : Prop :=
  ∀ entry ∈ layout.entries, entry.WellFormed

/-- Whether a directive can be written: a group has members. -/
def Directive.WellFormed : Directive → Prop
  | .instruction form => form.layout.WellFormed
  | .group form => form.members ≠ [] ∧ form.layout.WellFormed
  | _ => True

/-- Whether a description can be written: no two lookup tables have one name. -/
structure Document.WellFormed (document : Document) : Prop where
  tables : (document.lookupTables.map (·.name)).Nodup
  directives : ∀ directive ∈ document.directives, directive.WellFormed

instance : DecidablePred LayoutEntry.WellFormed
  | .tag _ => inferInstanceAs (Decidable (_ ∧ _))
  | .source _ | .dest _ | .staging _ | .immediate _ | .modifier _ => .isTrue trivial

instance : DecidablePred Layout.WellFormed := fun layout =>
  inferInstanceAs (Decidable (∀ entry ∈ layout.entries, entry.WellFormed))

instance : DecidablePred Directive.WellFormed
  | .instruction form => inferInstanceAs (Decidable form.layout.WellFormed)
  | .group _ => inferInstanceAs (Decidable (_ ∧ _))
  | .lookupTable _ | .enumeration _ => .isTrue trivial

instance : DecidablePred Document.WellFormed := fun document =>
  decidable_of_iff ((document.lookupTables.map (·.name)).Nodup ∧
      ∀ directive ∈ document.directives, directive.WellFormed)
    ⟨fun both => ⟨both.1, both.2⟩, fun wellFormed => ⟨wellFormed.tables, wellFormed.directives⟩⟩

namespace Writing

/-! ## Tokens -/

/-- A bare word. -/
def word (lexeme : String) : Token := ⟨.identifier, lexeme, .origin⟩

/-- A text between quotation marks. -/
def quoted (text : String) : Token := ⟨.text, text, .origin⟩

/-- A number in decimal digits. -/
def number (value : Nat) : Token := ⟨.number, toString value, .origin⟩

/-- A truth value. -/
def truth (value : Bool) : Token := word (if value then "true" else "false")

/-- The mark of a directive. -/
def mark : Token := ⟨.colon, ":", .origin⟩

/-- The sign of an attribute. -/
def sign : Token := ⟨.equals, "=", .origin⟩

/-- The brace in front of a body. -/
def openBrace : Token := ⟨.openBrace, "\x7b", .origin⟩

/-- The brace behind a body. -/
def closeBrace : Token := ⟨.closeBrace, "\x7d", .origin⟩

/-! ## Attributes -/

/-- A key with its value, if there is one. -/
def given (key : String) (value? : Option Token) : AttributePairs :=
  (value?.map fun value => (key, value)).toList

/-- The choice of a lane. -/
def lane : Option LaneChoice → Token
  | some .automatic => truth true
  | some (.bit position) => number position.toNat
  | none => truth false

/-- The attributes of a source. -/
def source (form : SourceForm) : AttributePairs :=
  ("lane", lane form.lane) ::
    (given "size" (form.size.map fun size => number size.toNat) ++
      [ ("float", truth form.traits.float), ("swizzle", truth form.traits.swizzle),
        ("widen", truth form.traits.widen), ("lanes", truth form.traits.lanes),
        ("absneg", truth form.traits.absNeg), ("not", truth form.traits.not) ])

/-- The attributes of a staging register. -/
def staging (form : StagingForm) : AttributePairs :=
  [ ("read", truth form.read), ("write", truth form.write),
    ("count", number form.count.toNat), ("flags", truth form.flags) ]

/-- The attributes of an immediate operand. -/
def immediate (operand : Immediate) : AttributePairs :=
  [ ("name", quoted operand.name), ("start", number operand.start.toNat),
    ("size", number operand.size.toNat), ("signed", truth operand.signed) ]

/-- The attributes of a modifier. -/
def modifier (placement : ModifierPlacement) : AttributePairs :=
  [ ("name", quoted placement.name), ("start", number placement.start.toNat),
    ("size", number placement.size.toNat), ("implied", truth placement.implied) ]

/-- The attributes of a member of a group. -/
def opcodes (opcodes : Opcodes) : AttributePairs :=
  given "opcode" (opcodes.primary.map fun opcode => number opcode.toNat) ++
    given "opcode2" (opcodes.secondary.map fun opcode => number opcode.toNat)

/-- The attributes of an instruction or a group. -/
def header (codes : Opcodes) (layout : Layout) : AttributePairs :=
  opcodes codes ++
    [ ("srcs", number layout.plainSources.toNat), ("dests", number layout.plainDests.toNat) ]

/-- The attribute of a value of an enumeration. -/
def isDefault (value : Bool) : AttributePairs := [("default", truth value)]

/-- Attributes as tokens: each key with the sign and its value. -/
def attributes (pairs : AttributePairs) : List Token :=
  pairs.flatMap fun pair => [word pair.1, sign, pair.2]

/-- The attributes as they are read, with their keys in lower case. -/
def lowerKeys (pairs : AttributePairs) : AttributePairs :=
  pairs.map fun pair => (pair.1.toLower, pair.2)

/-- Whether the values of attributes are identifiers, numbers or texts. -/
def HaveValues (pairs : AttributePairs) : Prop :=
  ∀ pair ∈ pairs, Reader.isAttributeValue pair.2.kind = true

instance : DecidablePred HaveValues := fun pairs =>
  inferInstanceAs (Decidable (∀ pair ∈ pairs, Reader.isAttributeValue pair.2.kind = true))

theorem attributesPhrase_attributes {pairs : AttributePairs} (values : HaveValues pairs) :
    AttributesPhrase (lowerKeys pairs) (attributes pairs) := by
  induction pairs with
  | nil => exact .none
  | cons pair pairs ih =>
      obtain ⟨first, rest⟩ := List.forall_mem_cons.1 values
      exact .more (word pair.1) sign pair.2 rfl rfl first (ih rest)

/-! ## Lines -/

/-- The line of an entry of a layout. -/
def entry : LayoutEntry → List Token
  | .source form => word "src" :: quoted form.name :: attributes (source form)
  | .dest name => [word "dest", quoted name]
  | .staging form => word "sr" :: quoted form.name :: attributes (staging form)
  | .immediate operand => word "imm" :: attributes (immediate operand)
  | .modifier placement => word "mod" :: attributes (modifier placement)
  | .tag tag => [word tag]

/-- The line of a member of a group. -/
def member (member : GroupMember) : List Token :=
  word "ins" :: quoted member.name :: attributes (opcodes member.opcodes)

/-- The line of an entry of an enumeration. -/
def value : EnumerationEntry → List Token
  | .value text default => word "value" :: quoted text :: attributes (isDefault default)
  | .reserved => [word "reserved"]

/-- The line of a constant. -/
def constant (value : UInt32) : List Token := [number value.toNat]

/-- A heading, the lines of a body and the line of its closing brace. -/
def block (keyword : String) (name? : Option String) (pairs : AttributePairs)
    (body : List (List Token)) : List (List Token) :=
  (mark :: word keyword :: (name?.toList.map quoted ++ (attributes pairs ++ [openBrace]))) ::
    (body ++ [[closeBrace]])

/-- The lines of a directive. -/
def directive : Directive → List (List Token)
  | .lookupTable table => block "lut" table.name [] (table.values.map constant)
  | .enumeration form => block "enum" form.name [] (form.entries.map value)
  | .instruction form =>
      block "ins" form.name (header form.opcodes form.layout) (form.layout.entries.map entry)
  | .group form =>
      block "group" form.name (header form.opcodes form.layout)
        (form.layout.entries.map entry ++ form.members.map member)

/-! ## Text -/

/-- Whether two neighbours on a line stand without a blank between them. -/
def adjoins (token next : Token) : Bool :=
  token.kind = .colon || token.kind = .equals || next.kind = .equals

/-- The characters of a line, with its end. -/
def text : List Token → List Char
  | [] => ['\n']
  | [token] => spelling token ++ ['\n']
  | token :: next :: rest =>
      spelling token ++ ((if adjoins token next then [] else [' ']) ++ text (next :: rest))

/-! ## What is written is spelled well -/

/-- Whether every token of a line is read back from its spelling. -/
def Spelled (line : List Token) : Prop :=
  ∀ token ∈ line, WellSpelled token

theorem spelled_nil : Spelled [] :=
  List.forall_mem_nil WellSpelled

theorem spelled_cons {token : Token} {line : List Token} (first : WellSpelled token)
    (rest : Spelled line) : Spelled (token :: line) :=
  List.forall_mem_cons.2 ⟨first, rest⟩

theorem spelled_append {line more : List Token} (first : Spelled line) (rest : Spelled more) :
    Spelled (line ++ more) :=
  List.forall_mem_append.2 ⟨first, rest⟩

theorem wellSpelled_word {lexeme : String} (spelled : isIdentifier lexeme.toList = true) :
    WellSpelled (word lexeme) :=
  .identifier rfl spelled

theorem wellSpelled_quoted (text : String) : WellSpelled (quoted text) :=
  .text rfl

theorem wellSpelled_number (value : Nat) : WellSpelled (number value) := by
  have digits : (number value).lexeme.toList = Nat.toDigits 10 value := by
    show (toString value).toList = _
    rw [Nat.toString_eq_ofList_toDigits, String.toList_ofList]
  apply wellSpelled_of_digits rfl
  · rw [digits]
    exact Nat.toDigits_ne_nil
  · intro c member
    rw [digits] at member
    exact Nat.isDigit_of_mem_toDigits (by decide) (by decide) member

/-- The values of attributes that are written. -/
inductive Value : Token → Prop where
  | truth (value : Bool) : Value (truth value)
  | number (value : Nat) : Value (number value)
  | quoted (text : String) : Value (quoted text)

theorem Value.wellSpelled {token : Token} (value : Value token) : WellSpelled token := by
  cases value with
  | truth value =>
      apply wellSpelled_word
      cases value
      · decide +kernel
      · decide +kernel
  | number value => exact wellSpelled_number value
  | quoted text => exact wellSpelled_quoted text

theorem Value.isAttributeValue {token : Token} (value : Value token) :
    Reader.isAttributeValue token.kind = true := by
  cases value <;> rfl

/-- The keys of all attributes. -/
def keys : List String :=
  [ "lane", "size", "float", "swizzle", "widen", "lanes", "absneg", "not", "read", "write", "count",
    "flags", "name", "start", "signed", "implied", "opcode", "opcode2", "srcs", "dests", "default" ]

/-- A key is an identifier in lower case. -/
theorem key_spelled : ∀ key ∈ keys, isIdentifier key.toList = true ∧ key.toLower = key := by
  decide +kernel

/-- Attributes as they are written: under known keys, none of them repeated, and with values that
can be spelled. -/
structure Written (pairs : AttributePairs) : Prop where
  known : ∀ pair ∈ pairs, pair.1 ∈ keys
  distinct : (pairs.map (·.1)).Nodup
  values : ∀ pair ∈ pairs, Value pair.2

theorem value_lane (choice : Option LaneChoice) : Value (lane choice) := by
  match choice with
  | some .automatic => exact .truth true
  | some (.bit position) => exact .number position.toNat
  | none => exact .truth false

theorem written_nil : Written [] := by
  constructor <;> simp

theorem written_source (form : SourceForm) : Written (source form) := by
  obtain ⟨name, size, traits, choice⟩ := form
  cases size <;> constructor <;> simp [source, given, keys, Value.truth, Value.number, value_lane]

theorem written_staging (form : StagingForm) : Written (staging form) := by
  constructor <;> simp [staging, keys, Value.truth, Value.number]

theorem written_immediate (operand : Immediate) : Written (immediate operand) := by
  constructor <;> simp [immediate, keys, Value.truth, Value.number, Value.quoted]

theorem written_modifier (placement : ModifierPlacement) : Written (modifier placement) := by
  constructor <;> simp [modifier, keys, Value.truth, Value.number, Value.quoted]

theorem written_opcodes (codes : Opcodes) : Written (opcodes codes) := by
  obtain ⟨primary, secondary⟩ := codes
  cases primary <;> cases secondary <;> constructor <;>
    simp [opcodes, given, keys, Value.number]

theorem written_header (codes : Opcodes) (layout : Layout) : Written (header codes layout) := by
  obtain ⟨primary, secondary⟩ := codes
  cases primary <;> cases secondary <;> constructor <;>
    simp [header, opcodes, given, keys, Value.number]

theorem written_isDefault (value : Bool) : Written (isDefault value) := by
  constructor <;> simp [isDefault, keys, Value.truth]

theorem spelled_attributes {pairs : AttributePairs} (written : Written pairs) :
    Spelled (attributes pairs) := by
  intro token member
  obtain ⟨pair, listed, here⟩ := List.mem_flatMap.1 member
  obtain ⟨spelled, -⟩ := key_spelled pair.1 (written.known pair listed)
  have value := (written.values pair listed).wellSpelled
  have equals : WellSpelled sign := .punctuation '=' rfl rfl
  have line : Spelled [word pair.1, sign, pair.2] :=
    spelled_cons (wellSpelled_word spelled) (spelled_cons equals (spelled_cons value spelled_nil))
  exact line token here

/-- The words of the grammar. -/
def words : List String :=
  ["lut", "enum", "ins", "group", "src", "dest", "sr", "imm", "mod", "value", "reserved"]

theorem wellSpelled_keyword {lexeme : String} (listed : lexeme ∈ words) :
    WellSpelled (word lexeme) := by
  have all : ∀ found ∈ words, isIdentifier found.toList = true := by decide +kernel
  exact wellSpelled_word (all lexeme listed)

theorem spelled_entry {line : LayoutEntry} (wellFormed : line.WellFormed) :
    Spelled (entry line) := by
  cases line with
  | source form =>
      exact spelled_cons (wellSpelled_keyword (by decide))
        (spelled_cons (wellSpelled_quoted _) (spelled_attributes (written_source form)))
  | dest name =>
      exact spelled_cons (wellSpelled_keyword (by decide))
        (spelled_cons (wellSpelled_quoted name) spelled_nil)
  | staging form =>
      exact spelled_cons (wellSpelled_keyword (by decide))
        (spelled_cons (wellSpelled_quoted _) (spelled_attributes (written_staging form)))
  | immediate operand =>
      exact spelled_cons (wellSpelled_keyword (by decide))
        (spelled_attributes (written_immediate operand))
  | modifier placement =>
      exact spelled_cons (wellSpelled_keyword (by decide))
        (spelled_attributes (written_modifier placement))
  | tag name => exact spelled_cons (wellSpelled_word wellFormed.1) spelled_nil

theorem spelled_member (form : GroupMember) : Spelled (member form) :=
  spelled_cons (wellSpelled_keyword (by decide))
    (spelled_cons (wellSpelled_quoted _) (spelled_attributes (written_opcodes _)))

theorem spelled_value (form : EnumerationEntry) : Spelled (value form) := by
  cases form with
  | value text default =>
      exact spelled_cons (wellSpelled_keyword (by decide))
        (spelled_cons (wellSpelled_quoted text) (spelled_attributes (written_isDefault default)))
  | reserved => exact spelled_cons (wellSpelled_keyword (by decide)) spelled_nil

theorem spelled_constant (form : UInt32) : Spelled (constant form) :=
  spelled_cons (wellSpelled_number _) spelled_nil

theorem spelled_block {keyword : String} {name? : Option String} {pairs : AttributePairs}
    {body : List (List Token)} (listed : keyword ∈ words) (written : Written pairs)
    (lines : ∀ line ∈ body, Spelled line) :
    ∀ line ∈ block keyword name? pairs body, Spelled line := by
  intro line member
  rcases List.mem_cons.1 member with rfl | later
  · have colon : WellSpelled mark := .punctuation ':' rfl rfl
    have opened : WellSpelled openBrace := .punctuation '\x7b' rfl rfl
    have names : Spelled (name?.toList.map quoted) := by
      intro token here
      obtain ⟨name, -, rfl⟩ := List.mem_map.1 here
      exact wellSpelled_quoted name
    exact spelled_cons colon (spelled_cons (wellSpelled_keyword listed) (spelled_append names
      (spelled_append (spelled_attributes written) (spelled_cons opened spelled_nil))))
  · rcases List.mem_append.1 later with inside | last
    · exact lines line inside
    · have closed : WellSpelled closeBrace := .punctuation '\x7d' rfl rfl
      obtain rfl := List.mem_singleton.1 last
      exact spelled_cons closed spelled_nil

theorem spelled_directive {form : Directive} (wellFormed : form.WellFormed) :
    ∀ line ∈ directive form, Spelled line := by
  have entries : ∀ layout : Layout, layout.WellFormed →
      ∀ line ∈ layout.entries.map entry, Spelled line := by
    intro layout wellFormed line member
    obtain ⟨found, listed, rfl⟩ := List.mem_map.1 member
    exact spelled_entry (wellFormed found listed)
  cases form with
  | lookupTable table =>
      apply spelled_block (by decide) written_nil
      intro line member
      obtain ⟨value, -, rfl⟩ := List.mem_map.1 member
      exact spelled_constant value
  | enumeration form =>
      apply spelled_block (by decide) written_nil
      intro line member
      obtain ⟨value, -, rfl⟩ := List.mem_map.1 member
      exact spelled_value value
  | instruction form =>
      apply spelled_block (by decide) (written_header _ _)
      exact entries form.layout wellFormed
  | group form =>
      apply spelled_block (by decide) (written_header _ _)
      intro line member
      rcases List.mem_append.1 member with inside | last
      · exact entries form.layout wellFormed.2 line inside
      · obtain ⟨found, -, rfl⟩ := List.mem_map.1 last
        exact spelled_member found

/-! ## What is written reads as its tokens -/

theorem text_cons (token : Token) (line : List Token) :
    ∃ behind, text (token :: line) = spelling token ++ behind := by
  cases line with
  | nil => exact ⟨_, rfl⟩
  | cons next line => exact ⟨_, rfl⟩

/-- A token ends in front of a neighbour without a blank: the sign of an attribute does not continue
a word. -/
theorem endsAt_of_adjoins {token next : Token} (spelled : WellSpelled next)
    (beside : adjoins token next = true) (rest : List Char) :
    EndsAt token (spelling next ++ rest) := by
  intro goesOn
  have isSign : next.kind = .equals := by
    rcases goesOn with identifier | number
    · simpa [adjoins, identifier] using beside
    · simpa [adjoins, number] using beside
  have lexeme : next.lexeme.toList = ['='] := by
    cases spelled with
    | punctuation c lexeme kind =>
        rw [isSign] at kind
        unfold TokenKind.ofPunctuation? at kind
        split at kind <;> cases kind
        exact lexeme
    | identifier kind => rw [isSign] at kind; cases kind
    | number kind => rw [isSign] at kind; cases kind
    | text kind => rw [isSign] at kind; cases kind
  rw [spelling, if_neg (by simp [isSign]), lexeme]
  show continuesIdentifier '=' = false
  decide

theorem readsAs_text {line tokens : List Token} {rest : List Char} (spelled : Spelled line)
    (reads : ReadsAs rest tokens) : ReadsAs (text line ++ rest) (line ++ tokens) := by
  induction line with
  | nil => exact readsAs_blank (by decide) reads
  | cons token line ih =>
      have first := spelled token List.mem_cons_self
      have others : Spelled line := fun found member =>
        spelled found (List.mem_cons_of_mem _ member)
      have later := ih others
      cases line with
      | nil =>
          have ends : EndsAt token ('\n' :: rest) := fun _ => stops_of_blank (by decide)
          rw [text, List.append_assoc]
          exact readsAs_token first ends later
      | cons next line =>
          rw [text, List.append_assoc, List.append_assoc]
          by_cases beside : adjoins token next = true
          · rw [if_pos beside, List.nil_append]
            refine readsAs_token first ?_ later
            obtain ⟨behind, whole⟩ := text_cons next line
            rw [whole, List.append_assoc]
            exact endsAt_of_adjoins (others next List.mem_cons_self) beside _
          · rw [if_neg beside]
            have ends : EndsAt token (' ' :: (text (next :: line) ++ rest)) :=
              fun _ => stops_of_blank (by decide)
            exact readsAs_token first ends (readsAs_blank (by decide) later)

theorem readsAs_lines {lines : List (List Token)} (spelled : ∀ line ∈ lines, Spelled line) :
    ReadsAs (lines.flatMap text) lines.flatten := by
  induction lines with
  | nil => exact readsAs_nil
  | cons line lines ih =>
      have later := ih fun found member => spelled found (List.mem_cons_of_mem _ member)
      exact readsAs_text (spelled line List.mem_cons_self) later

end Writing

/-- The text of a description. -/
def Document.write (document : Document) : String :=
  String.ofList ((document.directives.flatMap Writing.directive).flatMap Writing.text)

end InstructionSet
