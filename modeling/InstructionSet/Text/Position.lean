/-!
# Positions in a source text

A position counts lines and columns from one, and a column counts characters. Reading a newline
leads to the first column of the next line; reading any other character leads to the next column.
A region is the part of a text between two positions, and a span is a region of a named file.
-/

namespace InstructionSet.Text

set_option autoImplicit false

/-- A place between two characters of a text. -/
structure Position where
  /-- Line number, counted from one. -/
  line : Nat
  /-- Column number in characters, counted from one. -/
  column : Nat
  deriving DecidableEq

namespace Position

/-- The position in front of the first character. -/
def origin : Position := ⟨1, 1⟩

/-- The position behind a character that stands at a position. -/
def step (position : Position) (c : Char) : Position :=
  if c = '\n' then ⟨position.line + 1, 1⟩ else ⟨position.line, position.column + 1⟩

/-- The position behind a text that starts at a position. -/
def after (position : Position) (text : List Char) : Position :=
  text.foldl step position

@[simp] theorem after_nil (position : Position) : position.after [] = position := rfl

@[simp] theorem after_cons (position : Position) (c : Char) (text : List Char) :
    position.after (c :: text) = (position.step c).after text := rfl

theorem after_append (position : Position) (first second : List Char) :
    position.after (first ++ second) = (position.after first).after second :=
  List.foldl_append

end Position

/-- The part of a text from `start` up to, and without, the character at `stop`. -/
structure Region where
  /-- Position of the first character. -/
  start : Position
  /-- Position behind the last character. -/
  stop : Position
  deriving DecidableEq

/-- The empty region at a position. -/
def Region.point (position : Position) : Region := ⟨position, position⟩

/-- A region of a named file. -/
structure Span extends Region where
  /-- The label of the file. -/
  path : String
  deriving DecidableEq

/-- A region, said of the file with the given label. -/
def Region.within (region : Region) (path : String) : Span := ⟨region, path⟩

end InstructionSet.Text
