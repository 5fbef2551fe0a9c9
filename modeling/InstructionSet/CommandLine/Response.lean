import InstructionSet.CommandLine.Options
import InstructionSet.FileTree
import InstructionSet.Grammar.Description
import InstructionSet.Hexadecimal
import InstructionSet.Table.Canonical

/-!
# Responses on the command line

The response to a request is what the program prints and the code with which it exits. A table is
shown by a line for each instruction, as JSON, or by its fingerprint. A failure is reported with
its cause on lines of their own; the cause of a file that cannot be read has a cause itself, and
the two are numbered.
-/

namespace InstructionSet.CommandLine

set_option autoImplicit false

/-- What the program prints, and its exit code. -/
structure Response where
  /-- Exit code. -/
  exit : Nat
  /-- What goes to the standard output. -/
  stdout : String
  /-- What goes to the standard error output. -/
  stderr : String
  deriving DecidableEq

/-! ## Formats -/

/-- A text filled up with spaces on its right to a number of characters. -/
def padRight (width : Nat) (text : String) : String :=
  text ++ String.ofList (List.replicate (width - text.length) ' ')

/-- A text filled up with spaces on its left to a number of characters. -/
def padLeft (width : Nat) (text : String) : String :=
  String.ofList (List.replicate (width - text.length) ' ') ++ text

/-- The line about an instruction. -/
def summaryLine (instruction : Instruction) : String :=
  let opcode2 := match instruction.opcode2 with
    | none => "-"
    | some opcode2 => Hexadecimal.text opcode2.toNat
  padRight 24 instruction.name ++ " " ++ Hexadecimal.padded 4 instruction.opcode.toNat ++ " " ++
    padLeft 5 opcode2 ++
    " srcs=" ++ toString instruction.sources.length ++
    " dests=" ++ toString instruction.dests.length ++
    " sr=" ++ toString instruction.staging.length ++
    " mods=" ++ toString instruction.modifiers.length ++
    " shift=" ++ toString instruction.secondaryShift ++
    " mask=" ++ Hexadecimal.text instruction.secondaryMask.toNat ++ "\n"

/-- The line of totals. -/
def totalsLine (table : Table) : String :=
  toString table.instructions.length ++ " instructions, " ++
    toString table.enums.size ++ " enums, " ++
    toString table.immediates.length ++ " immediates, " ++
    toString table.warnings.length ++ " warnings\n"

/-- A table in a format. -/
def Format.text (table : Table) : Format → String
  | .summary => String.join (table.instructions.map summaryLine) ++ totalsLine table
  | .json => String.ofList (table.json.indented 0) ++ "\n"
  | .fingerprint => table.fingerprint ++ "\n"

/-! ## Failures -/

/-- A text with every line behind the first one moved to the right. -/
def indentLines (margin : List Char) (text : List Char) : List Char :=
  text.flatMap fun c => if c = '\n' then c :: margin else [c]

/-- A cause that stands alone. -/
def causeText (message : String) : String :=
  let margin := List.replicate 4 ' '
  String.ofList (margin ++ indentLines margin message.toList) ++ "\n"

/-- A cause among several. -/
def numberedCause (number : Nat) (message : String) : String :=
  padLeft 5 (toString number) ++ ": " ++
    String.ofList (indentLines (List.replicate 7 ' ') message.toList) ++ "\n"

/-- The causes of a failure. -/
def causes (failure : Failure) : String :=
  match failure with
  | .unreadable reason => numberedCause 0 failure.message ++ numberedCause 1 reason
  | _ => causeText failure.message

/-- The report about the failure to make a table from the description at a path. -/
def failureReport (path : String) (failure : Failure) : String :=
  "Error: failed to build " ++ path ++ "\n\nCaused by:\n" ++ causes failure

/-! ## Responses -/

/-- The table of a source text. -/
def tableOf (path source : String) (catalog : Catalog) : Except Failure Table := do
  Table.ofDocument (← Document.parse path source) catalog

/-- The response to the request for a report, given what reading the path came to. -/
def reportOn (path : String) (format : Format) (source : Except ReadError String) : Response :=
  match source.mapError (·.failure) >>= fun text => tableOf path text .standard with
  | .ok table => ⟨0, format.text table, ""⟩
  | .error failure => ⟨1, "", failureReport path failure⟩

/-- The name and the version of the program. -/
def versionText : String := "isatab 0.1.0\n"

/-- How the program is used. -/
def usageText : String :=
  "Usage: isatab [OPTIONS] <ISAFILE>\n\nOptions:\n" ++
  "  -f, --format <FORMAT>  summary, json or fingerprint [default: summary]\n" ++
  "  -v, --verbose          Log build progress\n" ++
  "  -h, --help             Print help\n" ++
  "  -V, --version          Print version\n"

/-- The response to arguments, given what reading a path comes to. -/
def respond (read : String → Except ReadError String) (arguments : List String) : Response :=
  match request? arguments with
  | none => ⟨2, "", usageText⟩
  | some .version => ⟨0, versionText, ""⟩
  | some .help => ⟨0, usageText, ""⟩
  | some (.report path format) => reportOn path format (read path)

end InstructionSet.CommandLine
