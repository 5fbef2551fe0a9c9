import InstructionSet.Text.Position

/-!
# Diagnostics

What goes wrong with a description is published as diagnostics: the phase that noticed it, how
serious it is, a stable code, a message for people, and the place in the source. A failure is one
message without a place, or the diagnostics that a whole phase collected.
-/

namespace InstructionSet

open InstructionSet.Text

set_option autoImplicit false

/-- The part of the work that notices a fault. -/
inductive Phase where
  /-- Cutting the source into tokens. -/
  | lexer
  /-- Reading directives from tokens. -/
  | parser
  /-- Building instructions from directives. -/
  | build
  /-- Checking the finished instructions against each other. -/
  | validation
  deriving DecidableEq

/-- The name under which a phase is published. -/
def Phase.name : Phase → String
  | .lexer => "Lexer"
  | .parser => "Parser"
  | .build => "Build"
  | .validation => "Validation"

/-- How serious a diagnostic is. -/
inductive Severity where
  /-- The description is refused. -/
  | error
  /-- The description is accepted. -/
  | warning
  deriving DecidableEq

/-- The name under which a severity is published. -/
def Severity.name : Severity → String
  | .error => "Error"
  | .warning => "Warning"

/-- One finding about a description. -/
structure Diagnostic where
  /-- The phase that found it. -/
  phase : Phase
  /-- How serious it is. -/
  severity : Severity
  /-- A stable name for the kind of finding. -/
  code : String
  /-- What was found, in words. -/
  message : String
  /-- Where it was found. -/
  span : Option Span
  deriving DecidableEq

namespace Diagnostic

/-- Whether a diagnostic refuses the description. -/
def isError (diagnostic : Diagnostic) : Bool :=
  diagnostic.severity = .error

/-- The place of a diagnostic: file, line and column of its start. -/
def location (diagnostic : Diagnostic) : String :=
  match diagnostic.span with
  | none => "<unknown>"
  | some span =>
      span.path ++ ":" ++ toString span.start.line ++ ":" ++ toString span.start.column

/-- A diagnostic on one line. -/
def line (diagnostic : Diagnostic) : String :=
  diagnostic.severity.name ++ " " ++ diagnostic.code ++ ": " ++ diagnostic.message ++ " @ " ++
    diagnostic.location

end Diagnostic

/-- Why a description does not become a table. -/
inductive Failure where
  /-- The file cannot be read. -/
  | unreadable (reason : String)
  /-- The text is not a description. -/
  | malformed (message : String)
  /-- An instruction cannot be built. -/
  | unbuildable (message : String)
  /-- A phase refuses the description, with everything it found. -/
  | reported (phase : Phase) (diagnostics : List Diagnostic)
  deriving DecidableEq

namespace Failure

/-- The diagnostics of a failure that has any. -/
def diagnostics : Failure → List Diagnostic
  | .reported _ diagnostics => diagnostics
  | _ => []

/-- The failure in words, with a line for each diagnostic. -/
def message : Failure → String
  | .unreadable reason => "I/O error: " ++ reason
  | .malformed message => "parser error: " ++ message
  | .unbuildable message => "build error: " ++ message
  | .reported phase diagnostics =>
      phase.name ++ " produced " ++ toString diagnostics.length ++ " issue(s):\n" ++
        "\n".intercalate (diagnostics.map fun diagnostic => "  - " ++ diagnostic.line)

end Failure

/-- The error of a phase at a region of a file. -/
def Diagnostic.errorAt (phase : Phase) (code message path : String) (region : Region) :
    Diagnostic where
  phase := phase
  severity := .error
  code := code
  message := message
  span := some (region.within path)

/-- The value, unless something was reported against it. -/
def Phase.accept {α : Type} (phase : Phase) (value : α) : List Diagnostic → Except Failure α
  | [] => .ok value
  | diagnostics => .error (.reported phase diagnostics)

theorem Phase.accept_eq_ok_iff {α : Type} {phase : Phase} {value result : α}
    {diagnostics : List Diagnostic} :
    phase.accept value diagnostics = .ok result ↔ diagnostics = [] ∧ value = result := by
  cases diagnostics <;> simp [accept]

theorem Phase.accept_eq_error_iff {α : Type} {phase : Phase} {value : α} {failure : Failure}
    {diagnostics : List Diagnostic} :
    phase.accept value diagnostics = .error failure ↔
      diagnostics ≠ [] ∧ .reported phase diagnostics = failure := by
  cases diagnostics <;> simp [accept]

end InstructionSet
