import InstructionSet.Text.Position

/-!
# Tokens

A description is read as a sequence of tokens: punctuation, identifiers, numerals and quoted texts.
A token keeps its lexeme, which for a quoted text is the text itself without its quotation marks
and escapes, and the position of its first character. A token of its own kind marks the end.
-/

namespace InstructionSet

open InstructionSet.Text

set_option autoImplicit false

/-- The kinds of tokens. -/
inductive TokenKind where
  /-- The colon that introduces a directive. -/
  | colon
  /-- A bare name. -/
  | identifier
  /-- A numeral, with its sign and radix mark. -/
  | number
  /-- A text between quotation marks. -/
  | text
  /-- An opening brace. -/
  | openBrace
  /-- A closing brace. -/
  | closeBrace
  /-- The sign between the key and the value of an attribute. -/
  | equals
  /-- A comma. -/
  | comma
  /-- A semicolon. -/
  | semicolon
  /-- The end of the source. -/
  | finish
  deriving DecidableEq

/-- The kind of a punctuation character. -/
def TokenKind.ofPunctuation? : Char → Option TokenKind
  | ':' => some .colon
  | '\x7b' => some .openBrace
  | '\x7d' => some .closeBrace
  | '=' => some .equals
  | ',' => some .comma
  | ';' => some .semicolon
  | _ => none

/-- A token of a source text. -/
structure Token where
  /-- What kind of token it is. -/
  kind : TokenKind
  /-- What the token says. -/
  lexeme : String
  /-- Where the token starts. -/
  position : Position
  deriving DecidableEq

namespace Token

/-- The token that marks the end of a source. -/
def finish (position : Position) : Token := ⟨.finish, "", position⟩

/-- The position behind a token, as far as its lexeme shows it: the quotation marks and escapes of
a quoted text are not counted. -/
def stop (token : Token) : Position :=
  token.position.after token.lexeme.toList

/-- The region from one token to another. -/
def regionTo (first last : Token) : Region := ⟨first.position, last.stop⟩

/-- The region of one token. -/
def region (token : Token) : Region := token.regionTo token

end Token

/-! ## Faults of spelling -/

/-- What keeps characters from being a token. -/
inductive SpellingError where
  /-- A character that starts no token. -/
  | unexpected (c : Char)
  /-- A radix mark without digits behind it. -/
  | missingDigits
  /-- A numeral with a letter directly behind it. -/
  | runsIntoIdentifier
  /-- A quoted text without its closing quotation mark on the line. -/
  | unterminated
  deriving DecidableEq

namespace SpellingError

/-- The stable name of the fault. -/
def code : SpellingError → String
  | .unexpected _ => "lexer.unexpected-char"
  | .missingDigits => "lexer.number.missing-digits"
  | .runsIntoIdentifier => "lexer.number.trailing"
  | .unterminated => "lexer.string.unterminated"

/-- The fault in words. -/
def message : SpellingError → String
  | .unexpected c => "unexpected character '" ++ String.singleton c ++ "'"
  | .missingDigits => "numeric literal requires digits after prefix"
  | .runsIntoIdentifier => "numeric literal runs into an identifier"
  | .unterminated => "unterminated string literal"

end SpellingError

/-- A fault of spelling at its place. -/
structure SpellingFault where
  /-- What is wrong. -/
  error : SpellingError
  /-- Where it is wrong. -/
  position : Position
  deriving DecidableEq

/-- What the characters at the front of a source come to: a token, or a fault of spelling. -/
inductive Scanned where
  /-- A token. -/
  | token (token : Token)
  /-- A fault of spelling. -/
  | fault (fault : SpellingFault)
  deriving DecidableEq

end InstructionSet
