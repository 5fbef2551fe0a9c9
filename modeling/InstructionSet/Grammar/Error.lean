import InstructionSet.Diagnostic
import InstructionSet.Numeral
import InstructionSet.Token

/-!
# Faults of grammar

Tokens that are spelled well may still not be a directive. This module lists what can be wrong with
them, each fault with what its message needs to say. A fault names the construct in which it was
found by the way the construct is introduced in the source.
-/

namespace InstructionSet.Grammar

open InstructionSet.Text

set_option autoImplicit false

/-! ## Constructs -/

/-- The parts of a description that have attributes or a body. -/
inductive Construct where
  /-- An instruction. -/
  | instruction (name : String)
  /-- A group of instructions. -/
  | group (name : Option String)
  /-- A member of a group. -/
  | member (name : String)
  /-- A source. -/
  | source
  /-- A staging register. -/
  | staging
  /-- An immediate operand. -/
  | immediate
  /-- A modifier with a placement. -/
  | modifier
  /-- A value of an enumeration. -/
  | enumerationValue
  deriving DecidableEq

/-- How a construct is introduced in the source. -/
def Construct.text : Construct → String
  | .instruction name => ":ins " ++ name
  | .group none => ":group"
  | .group (some name) => ":group " ++ name
  | .member name => "ins " ++ name
  | .source => "src"
  | .staging => "sr"
  | .immediate => "imm"
  | .modifier => "mod"
  | .enumerationValue => "enum value"

/-- The punctuation that a construct cannot do without. -/
inductive Expectation where
  /-- The colon in front of a directive. -/
  | directiveMark
  /-- The brace that opens a lookup table. -/
  | lookupTableBlock
  /-- The brace that opens an enumeration. -/
  | enumerationBlock
  /-- The brace that opens a body. -/
  | body (construct : Construct)
  deriving DecidableEq

/-- The punctuation in words. -/
def Expectation.text : Expectation → String
  | .directiveMark => "directive introducer ':'"
  | .lookupTableBlock => "'\x7b' to start :lut block"
  | .enumerationBlock => "'\x7b' to start :enum block"
  | .body construct => "'\x7b' to start " ++ construct.text ++ " body"

/-- What an identifier is expected for. -/
inductive Keyword where
  /-- The name of a directive. -/
  | directive
  /-- The kind of an entry of an enumeration. -/
  | enumerationEntry
  /-- The kind of an entry of a body. -/
  | bodyEntry
  deriving DecidableEq

/-- The purpose of an identifier in words. -/
def Keyword.text : Keyword → String
  | .directive => "directive name"
  | .enumerationEntry => "enum entry ('value' or 'reserved')"
  | .bodyEntry => "body entry"

/-- What a name is expected for. -/
inductive Named where
  /-- A lookup table. -/
  | lookupTable
  /-- An enumeration. -/
  | enumeration
  /-- An instruction. -/
  | instruction
  /-- A member of a group. -/
  | member
  deriving DecidableEq

/-- The purpose of a name in words. -/
def Named.text : Named → String
  | .lookupTable => "lookup table name"
  | .enumeration => "enum name"
  | .instruction => "instruction name"
  | .member => "group member name"

/-! ## Faults -/

/-- What a value of an attribute is expected to be. -/
inductive ValueKind where
  /-- True or false. -/
  | truth
  /-- A number. -/
  | number
  /-- A name. -/
  | name
  deriving DecidableEq

/-- The kind of a value in words. -/
def ValueKind.text : ValueKind → String
  | .truth => "true or false"
  | .number => "a number"
  | .name => "a name"

/-- Faults of the attributes of a construct. -/
inductive AttributeError where
  /-- There is no value behind the key. -/
  | valueMissing (key : String)
  /-- The key occurs twice. -/
  | duplicate (key : String)
  /-- The construct has no attribute with the key. -/
  | unknown (key : String)
  /-- The construct cannot do without an attribute. -/
  | required (key : String)
  /-- The value is not of the kind that the attribute needs. -/
  | unfit (key : String) (kind : ValueKind) (found : String)
  /-- The numeral has no value of the width that the attribute needs. -/
  | numeral (key found : String) (error : NumeralError)
  deriving DecidableEq

/-- A fault of attributes in words. -/
def AttributeError.message (construct : Construct) : AttributeError → String
  | .valueMissing key => "attribute '" ++ key ++ "' in " ++ construct.text ++ " is missing a value"
  | .duplicate key => "duplicate attribute '" ++ key ++ "' in " ++ construct.text
  | .unknown key => "unknown attribute '" ++ key ++ "' in " ++ construct.text
  | .required key => construct.text ++ " requires a " ++ key ++ " attribute"
  | .unfit key kind found =>
      key ++ " in " ++ construct.text ++ " expects " ++ kind.text ++ ", found '" ++ found ++ "'"
  | .numeral key found error =>
      "invalid numeric literal '" ++ found ++ "' for " ++ key ++ " in " ++ construct.text ++ ": " ++
        error.message

/-- What keeps tokens from being a directive. -/
inductive SyntaxError where
  /-- Some punctuation is missing. -/
  | expected (expectation : Expectation)
  /-- Something else stands in the place of an identifier. -/
  | notIdentifier (purpose : Keyword) (found : String)
  /-- Something else stands in the place of a name. -/
  | notName (purpose : Named) (found : String)
  /-- There is no directive of the name. -/
  | unsupportedDirective (name : String)
  /-- Further tokens stand between a directive and the next one. -/
  | trailing (directive : String) (lexemes : List String)
  /-- A lookup table of the name has been declared before. -/
  | lookupTableRepeated (name : String)
  /-- A lookup table is not closed. -/
  | lookupTableUnclosed
  /-- A numeral of a lookup table has no 32-bit value. -/
  | lookupTableNumeral (name found : String) (error : NumeralError)
  /-- Something else than a numeral stands in a lookup table. -/
  | lookupTableEntry (name found : String)
  /-- An enumeration is not closed. -/
  | enumerationUnclosed
  /-- A value of an enumeration has no text. -/
  | enumerationText (name found : String)
  /-- There is no kind of entry of the name. -/
  | enumerationEntry (found : String)
  /-- A body is not closed. -/
  | bodyUnclosed (construct : Construct)
  /-- An attribute stands where an entry should. -/
  | strayAttribute (key : String) (construct : Construct)
  /-- A member stands outside a group. -/
  | memberOutsideGroup (construct : Construct)
  /-- A group has no members. -/
  | groupWithoutMembers (construct : Construct)
  /-- The attributes of a construct are at fault. -/
  | attributes (construct : Construct) (error : AttributeError)
  deriving DecidableEq

/-- The fault in words. -/
def SyntaxError.message : SyntaxError → String
  | .expected expectation => "expected " ++ expectation.text
  | .notIdentifier purpose found =>
      "expected identifier for " ++ purpose.text ++ ", found '" ++ found ++ "'"
  | .notName purpose found => "expected name for " ++ purpose.text ++ ", found '" ++ found ++ "'"
  | .unsupportedDirective name => "unsupported directive :" ++ name
  | .trailing directive lexemes =>
      let snippet := " ".intercalate (lexemes.filter (· ≠ ""))
      "unexpected trailing tokens after :" ++ directive ++
        (if snippet = "" then "" else ": " ++ snippet)
  | .lookupTableRepeated name => "lookup table '" ++ name ++ "' declared more than once"
  | .lookupTableUnclosed => ":lut block missing closing '\x7d'"
  | .lookupTableNumeral name found error =>
      "invalid numeric literal '" ++ found ++ "' in :lut " ++ name ++ ": " ++ error.message
  | .lookupTableEntry name found =>
      ":lut " ++ name ++ " expects numeric values, found '" ++ found ++ "'"
  | .enumerationUnclosed => ":enum block missing closing '\x7d'"
  | .enumerationText name found =>
      "enum value in " ++ name ++ " needs text, found '" ++ found ++ "'"
  | .enumerationEntry found =>
      "unknown enum entry '" ++ found ++ "', expected 'value' or 'reserved'"
  | .bodyUnclosed construct => construct.text ++ " body missing closing '\x7d'"
  | .strayAttribute key construct =>
      "attribute '" ++ key ++ "' in " ++ construct.text ++ " body does not follow an entry"
  | .memberOutsideGroup construct =>
      "'ins' members are only allowed inside :group, not " ++ construct.text
  | .groupWithoutMembers construct => construct.text ++ " must list at least one 'ins' member"
  | .attributes construct error => error.message construct

/-- What ends the reading of a directive. -/
inductive Fault where
  /-- The next characters are no token. -/
  | spelling (fault : SpellingFault)
  /-- The tokens are no directive. -/
  | grammar (error : SyntaxError)
  deriving DecidableEq

/-- A fault at its place in the source. -/
structure Issue where
  /-- What is wrong. -/
  fault : Fault
  /-- Where it is wrong. -/
  region : Option Region
  deriving DecidableEq

/-- The issue as a diagnostic about a file. -/
def Issue.diagnostic (path : String) (issue : Issue) : Diagnostic :=
  match issue.fault with
  | .spelling fault =>
      .errorAt .lexer fault.error.code fault.error.message path (.point fault.position)
  | .grammar error =>
      { phase := .parser
        severity := .error
        code := "parser.syntax"
        message := error.message
        span := issue.region.map (·.within path) }

end InstructionSet.Grammar
