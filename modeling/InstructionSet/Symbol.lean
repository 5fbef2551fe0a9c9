import InstructionSet.Text.Alphabetic
import InstructionSet.Text.LowerCase

/-!
# Symbol names

Enumerations are found under a canonical form of their names, so that a name may be written for
people and still be one key. The form joins words with underscores, drops punctuation, starts with
a letter or an underscore, and has no capitals.
-/

namespace InstructionSet.Symbol

open InstructionSet.Text

set_option autoImplicit false

/-- The characters that join two words of a name. -/
def joints : List Char := [' ', '/', '-']

/-- The punctuation that a canonical name leaves out. -/
def punctuation : List Char :=
  ['[', ']', '(', ')', ':', '.', ',', '=', '>', '#', '&', '*', '"', '+', '\'']

/-- What stands for a character of a name before its case is lowered. -/
def replace (c : Char) : List Char :=
  if c ∈ joints then ['_'] else if c ∈ punctuation then [] else [c]

/-- The text itself when it starts with a letter, and otherwise the text behind an underscore. -/
def anchor : List Char → List Char
  | [] => ['_']
  | c :: rest => if isAlphabetic c then c :: rest else '_' :: c :: rest

/-- The canonical form of a name. -/
def canonical (name : String) : String :=
  String.ofList (lowerCase (anchor (name.toList.flatMap replace)))

end InstructionSet.Symbol
