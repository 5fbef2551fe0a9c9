/-!
# Canonical JSON

The canonical form of a table is a JSON text without white space, with the members of an object in
the order in which they are given. A text value escapes the quotation mark, the backslash and the
control characters below the space, and writes every other character as it is. The same value has
an indented form for reading, with two spaces for each level and empty lists and objects on one
line.
-/

namespace InstructionSet

set_option autoImplicit false

/-- A JSON value whose numbers are natural numbers. -/
inductive Json where
  /-- The value for what is absent. -/
  | null
  /-- A truth value. -/
  | boolean (value : Bool)
  /-- A natural number. -/
  | number (value : Nat)
  /-- A text. -/
  | text (value : String)
  /-- A list of values. -/
  | list (items : List Json)
  /-- Named members in their order. -/
  | object (members : List (String × Json))

namespace Json

/-- The digits of a natural number in decimal. -/
def digits (value : Nat) : List Char :=
  Nat.toDigits 10 value

/-- A control character by its code, with two hexadecimal digits. -/
def escapeCode (c : Char) : List Char :=
  ['\\', 'u', '0', '0', Nat.digitChar (c.toNat / 16), Nat.digitChar (c.toNat % 16)]

/-- A character as it is written between quotation marks. -/
def escape (c : Char) : List Char :=
  if c = '"' then ['\\', '"']
  else if c = '\\' then ['\\', '\\']
  else if c = '\x08' then ['\\', 'b']
  else if c = '\x0c' then ['\\', 'f']
  else if c = '\n' then ['\\', 'n']
  else if c = '\r' then ['\\', 'r']
  else if c = '\t' then ['\\', 't']
  else if c < ' ' then escapeCode c
  else [c]

/-- A text between quotation marks. -/
def quote (value : String) : List Char :=
  '"' :: value.toList.flatMap escape ++ ['"']

/-- A value that has no parts. -/
def boolText (value : Bool) : List Char :=
  if value then "true".toList else "false".toList

/-! ## The compact form -/

mutual
/-- The text of a value without white space. -/
def compact : Json → List Char
  | .null => "null".toList
  | .boolean value => boolText value
  | .number value => digits value
  | .text value => quote value
  | .list items => '[' :: compactItems items ++ [']']
  | .object members => '\x7b' :: compactMembers members ++ ['\x7d']

/-- The texts of the items of a list, with commas between them. -/
def compactItems : List Json → List Char
  | [] => []
  | [item] => compact item
  | item :: rest => compact item ++ ',' :: compactItems rest

/-- The texts of the members of an object, with commas between them. -/
def compactMembers : List (String × Json) → List Char
  | [] => []
  | [(name, value)] => quote name ++ ':' :: compact value
  | (name, value) :: rest => quote name ++ ':' :: compact value ++ ',' :: compactMembers rest
end

/-! ## The indented form -/

/-- A new line at a level of indentation. -/
def newLine (level : Nat) : List Char :=
  '\n' :: List.replicate (2 * level) ' '

mutual
/-- The text of a value with its parts on lines of their own, at a level of indentation. -/
def indented (level : Nat) : Json → List Char
  | .null => "null".toList
  | .boolean value => boolText value
  | .number value => digits value
  | .text value => quote value
  | .list [] => "[]".toList
  | .list (item :: rest) =>
      '[' :: indentedItems (level + 1) (item :: rest) ++ newLine level ++ [']']
  | .object [] => ['\x7b', '\x7d']
  | .object (member :: rest) =>
      '\x7b' :: indentedMembers (level + 1) (member :: rest) ++ newLine level ++ ['\x7d']

/-- The texts of the items of a list, each on its own lines. -/
def indentedItems (level : Nat) : List Json → List Char
  | [] => []
  | [item] => newLine level ++ indented level item
  | item :: rest => newLine level ++ indented level item ++ ',' :: indentedItems level rest

/-- The texts of the members of an object, each on its own lines. -/
def indentedMembers (level : Nat) : List (String × Json) → List Char
  | [] => []
  | [(name, value)] => newLine level ++ quote name ++ ": ".toList ++ indented level value
  | (name, value) :: rest =>
      newLine level ++ quote name ++ ": ".toList ++ indented level value ++
        ',' :: indentedMembers level rest
end

/-! ## Values from values -/

/-- A value that may be absent. -/
def ofOption {α : Type} (form : α → Json) : Option α → Json
  | none => .null
  | some value => form value

/-- A list of values of one form. -/
def ofList {α : Type} (form : α → Json) (values : List α) : Json :=
  .list (values.map form)

end Json
end InstructionSet
