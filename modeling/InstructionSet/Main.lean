import InstructionSet.CommandLine.Response

/-!
# The command line

The program reads the description at the path that its arguments give, and prints the response.
-/

open InstructionSet InstructionSet.CommandLine

set_option autoImplicit false

/-- Why the system did not read a file. -/
def readErrorOf (error : IO.Error) : ReadError :=
  match error with
  | .noFileOrDirectory .. => .notFound
  | .inappropriateType _ code _ => if code = 21 then .isFolder else .notFolder
  | error => .other (toString error)

/-- The text of the file at a path. -/
def readFile (path : String) : IO (Except ReadError String) := do
  match ← (IO.FS.readBinFile path).toBaseIO with
  | .ok bytes => return decodeText bytes
  | .error error => return .error (readErrorOf error)

/-- Reads what the arguments ask for and prints the response. -/
def main (arguments : List String) : IO UInt32 := do
  let source ← match request? arguments with
    | some (.report path _) => readFile path
    | _ => pure (.error .notFound)
  let response := respond (fun _ => source) arguments
  (← IO.getStdout).putStr response.stdout
  (← IO.getStderr).putStr response.stderr
  return UInt32.ofNat response.exit
