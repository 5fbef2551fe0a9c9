import InstructionSet.Diagnostic

/-!
# Reading files

Why a file cannot be read is told by the message that goes with the fault. A file tree says what
reading a path comes to in a folder with known contents: a path is walked component by component
from the folder on, a folder can be entered but not read, and nothing is known about the world
outside except that it consists of folders without the names that are asked for.
-/

namespace InstructionSet

set_option autoImplicit false

/-- Why a file cannot be read as text. -/
inductive ReadError where
  /-- Nothing has the name. -/
  | notFound
  /-- Something that is entered is not a folder. -/
  | notFolder
  /-- What is read is a folder. -/
  | isFolder
  /-- A name or the whole path is too long. -/
  | tooLong
  /-- The path contains a null character. -/
  | nullInPath
  /-- The bytes are not UTF-8. -/
  | notText
  /-- Any other reason, in the words of the system. -/
  | other (reason : String)
  deriving DecidableEq

namespace ReadError

/-- The fault in words. -/
def message : ReadError → String
  | .notFound => "No such file or directory (os error 2)"
  | .notFolder => "Not a directory (os error 20)"
  | .isFolder => "Is a directory (os error 21)"
  | .tooLong => "File name too long (os error 36)"
  | .nullInPath => "file name contained an unexpected NUL byte"
  | .notText => "stream did not contain valid UTF-8"
  | .other reason => reason

/-- The fault as the failure to make a table. -/
def failure (error : ReadError) : Failure :=
  .unreadable error.message

end ReadError

/-- The text that bytes encode in UTF-8. -/
def decodeText (bytes : ByteArray) : Except ReadError String :=
  match String.fromUTF8? bytes with
  | some text => .ok text
  | none => .error .notText

/-! ## Folders with known contents -/

/-- A file with its bytes, or a folder with named entries. -/
inductive FileTree where
  /-- A file. -/
  | file (bytes : ByteArray)
  /-- A folder. -/
  | folder (entries : List (String × FileTree))

namespace FileTree

/-- What the folder has under a name. -/
def entry? (name : String) : FileTree → Option FileTree
  | .file _ => none
  | .folder entries => entries.lookup name

/-- Whether the tree is a folder. -/
def isFolder : FileTree → Bool
  | .file _ => false
  | .folder _ => true

/-- The number of bytes that the name of an entry may have. -/
def nameLimit : Nat := 255

/-- The number of bytes that a path may have. -/
def pathLimit : Nat := 4095

/-- A place that a path leads to: trees from the one arrived at to the outermost one, or none of
them outside. -/
abbrev Place := List FileTree

/-- The place behind one component of a path. -/
def enter (place : Place) (component : String) : Except ReadError Place :=
  match place with
  | [] =>
      if component = "" ∨ component = "." ∨ component = ".." then .ok []
      else if component.utf8ByteSize > nameLimit then .error .tooLong
      else .error .notFound
  | tree :: outer =>
      if !tree.isFolder then .error .notFolder
      else if component = "" ∨ component = "." then .ok (tree :: outer)
      else if component = ".." then .ok outer
      else if component.utf8ByteSize > nameLimit then .error .tooLong
      else
        match tree.entry? component with
        | some inner => .ok (inner :: tree :: outer)
        | none => .error .notFound

/-- The bytes at a place. -/
def bytesAt : Place → Except ReadError ByteArray
  | .file bytes :: _ => .ok bytes
  | _ => .error .isFolder

/-- The components of a path, which slashes separate. -/
def components : List Char → List (List Char)
  | [] => [[]]
  | '/' :: rest => [] :: components rest
  | c :: rest =>
      match components rest with
      | [] => [[c]]
      | first :: others => (c :: first) :: others

/-- The bytes of the file that a path leads to from a folder. -/
def read (folder : FileTree) (path : String) : Except ReadError ByteArray := do
  if path = "" then
    throw .notFound
  else if '\x00' ∈ path.toList then
    throw .nullInPath
  else if path.utf8ByteSize > pathLimit then
    throw .tooLong
  else
    let start : Place := if path.toList.head? = some '/' then [] else [folder]
    bytesAt (← ((components path.toList).map String.ofList).foldlM enter start)

/-- The text of the file that a path leads to from a folder. -/
def readText (folder : FileTree) (path : String) : Except ReadError String := do
  decodeText (← folder.read path)

end FileTree
end InstructionSet
