/-!
# Command-line options

The program takes the path of one description and a few options. An option may be written in a long
form or as a letter; letters may be joined behind one hyphen, and a value may be joined to its
option. Two hyphens end the options. Arguments are read from left to right, and the request for the
version, or for help, is granted as soon as it is met; a mistake that stands in front of it is met
first.
-/

namespace InstructionSet.CommandLine

set_option autoImplicit false

/-- What is printed about a table. -/
inductive Format where
  /-- A line for each instruction, and a line of totals. -/
  | summary
  /-- The whole table. -/
  | json
  /-- The fingerprint of the table. -/
  | fingerprint
  deriving DecidableEq

/-- The format with a name. -/
def Format.ofName? : String → Option Format
  | "summary" => some .summary
  | "json" => some .json
  | "fingerprint" => some .fingerprint
  | _ => none

/-- What is asked of the program. -/
inductive Request where
  /-- The version of the program. -/
  | version
  /-- How the program is used. -/
  | help
  /-- A report about the description at a path. -/
  | report (path : String) (format : Format)
  deriving DecidableEq

/-- The arguments read so far. -/
structure Progress where
  /-- Path of the description. -/
  path : Option String := none
  /-- Format that was asked for. -/
  format : Option Format := none
  /-- The option for more output was given. -/
  verbose : Bool := false
  deriving DecidableEq

namespace Progress

/-- Takes an argument as the path, of which there is only one. -/
def withPath (progress : Progress) (argument : String) : Option Progress :=
  if progress.path.isSome ∨ argument = "" then none
  else some { progress with path := some argument }

/-- Takes an argument as the name of the format, which is given at most once. -/
def withFormat (progress : Progress) (argument : String) : Option Progress :=
  if progress.format.isSome then none
  else (Format.ofName? argument).map fun format => { progress with format := some format }

/-- Notes the option for more output, which is given at most once. -/
def withVerbose (progress : Progress) : Option Progress :=
  if progress.verbose then none else some { progress with verbose := true }

/-- The request that all arguments come to. -/
def request (progress : Progress) : Option Request :=
  progress.path.map fun path => .report path (progress.format.getD .summary)

end Progress

/-- What an option comes to. -/
inductive Step where
  /-- Reading goes on. -/
  | next (progress : Progress)
  /-- The next argument is the name of the format. -/
  | awaitFormat
  /-- The rest of the arguments is not read. -/
  | granted (request : Request)

/-- Reads letters joined behind a hyphen. -/
def readLetters (progress : Progress) : List Char → Option Step
  | [] => some (.next progress)
  | 'V' :: _ => some (.granted .version)
  | 'h' :: _ => some (.granted .help)
  | 'v' :: rest => progress.withVerbose.bind fun progress => readLetters progress rest
  | ['f'] => some .awaitFormat
  | 'f' :: '=' :: value => (progress.withFormat (String.ofList value)).map .next
  | 'f' :: value => (progress.withFormat (String.ofList value)).map .next
  | _ => none

/-- Reads the long form of an option behind its hyphens. -/
def readLong (progress : Progress) (option : List Char) : Option Step :=
  if option = "version".toList then some (.granted .version)
  else if option = "help".toList then some (.granted .help)
  else if option = "verbose".toList then progress.withVerbose.map .next
  else if option = "format".toList then some .awaitFormat
  else if "format=".toList.isPrefixOf option then
    (progress.withFormat (String.ofList (option.drop "format=".length))).map .next
  else none

/-- Reads an argument that is not the value of an option. -/
def readArgument (progress : Progress) (argument : String) : Option Step :=
  match argument.toList with
  | '-' :: '-' :: option => readLong progress option
  | '-' :: letter :: letters => readLetters progress (letter :: letters)
  | _ => (progress.withPath argument).map .next

/-- Reads arguments behind the end of the options. -/
def readPaths : Progress → List String → Option Request
  | progress, [] => progress.request
  | progress, argument :: rest =>
      (progress.withPath argument).bind fun progress => readPaths progress rest

/-- Reads the arguments behind those read so far. Nothing comes of arguments with a mistake. -/
def readArguments : Progress → List String → Option Request
  | progress, [] => progress.request
  | progress, "--" :: rest => readPaths progress rest
  | progress, argument :: rest =>
      match readArgument progress argument with
      | none => none
      | some (.granted request) => some request
      | some (.next progress) => readArguments progress rest
      | some .awaitFormat =>
          match rest with
          | [] => none
          | value :: rest =>
              (progress.withFormat value).bind fun progress => readArguments progress rest

/-- The request that the arguments of the program come to. -/
def request? (arguments : List String) : Option Request :=
  readArguments {} arguments

end InstructionSet.CommandLine
