import InstructionSet.Diagnostic
import InstructionSet.NameMap
import InstructionSet.Symbol

/-!
# Enumerations

An enumeration lists the values of a modifier in the order of their codes. A code may be reserved,
and at most one value may be the default. The enumerations of a description form a registry under
the canonical forms of their names, so two names with one canonical form cannot both be declared.

A registry is made of declarations in order. Every declaration that cannot enter is reported; one
that is refused for its defaults leaves its name free.
-/

namespace InstructionSet

open InstructionSet.Text

set_option autoImplicit false

/-- An entry of an enumeration as it is declared. -/
inductive EnumerationEntry where
  /-- A value, which may be marked as the default. -/
  | value (text : String) (isDefault : Bool)
  /-- A code without a value. -/
  | reserved
  deriving DecidableEq

/-- An enumeration as it is declared. -/
structure EnumerationForm where
  /-- Name as it is written. -/
  name : String
  /-- Entries in the order of their codes. -/
  entries : List EnumerationEntry
  /-- Place of the declaration. -/
  region : Region
  deriving DecidableEq

/-- A value of an enumeration. -/
structure EnumerationValue where
  /-- Text of the value. -/
  text : String
  /-- The value is the default. -/
  isDefault : Bool
  deriving DecidableEq

/-- An enumeration of a registry. -/
structure Enumeration where
  /-- Name as it is written. -/
  name : String
  /-- Values in the order of their codes. -/
  values : List EnumerationValue
  deriving DecidableEq

/-- The value that an entry stands for; a reserved code has a text that says so. -/
def EnumerationEntry.toValue : EnumerationEntry → EnumerationValue
  | .value text isDefault => ⟨text, isDefault⟩
  | .reserved => ⟨"reserved", false⟩

namespace Enumeration

/-- The texts of the values. -/
def texts (enumeration : Enumeration) : List String :=
  enumeration.values.map (·.text)

/-- The code of the default value. -/
def default? (enumeration : Enumeration) : Option Nat :=
  enumeration.values.findIdx? (·.isDefault)

/-- The texts of the values that are marked as the default. -/
def defaultTexts (enumeration : Enumeration) : List String :=
  (enumeration.values.filter (·.isDefault)).map (·.text)

end Enumeration

/-- The enumeration that a form declares. -/
def EnumerationForm.toEnumeration (form : EnumerationForm) : Enumeration :=
  ⟨form.name, form.entries.map (·.toValue)⟩

/-! ## Faults of declarations -/

/-- What keeps a declaration out of a registry. -/
inductive EnumerationError where
  /-- Several values are marked as the default. -/
  | multipleDefaults (name : String) (texts : List String)
  /-- The canonical name is taken. -/
  | duplicate (name key : String)
  deriving DecidableEq

namespace EnumerationError

/-- The stable name of the fault. -/
def code : EnumerationError → String
  | .multipleDefaults .. => "build.enum.multiple-defaults"
  | .duplicate .. => "build.enum.duplicate"

/-- The fault in words. -/
def message : EnumerationError → String
  | .multipleDefaults name texts =>
      "enum '" ++ name ++ "' marks " ++ toString texts.length ++ " values as default: " ++
        ", ".intercalate texts
  | .duplicate name key =>
      "enum '" ++ name ++ "' normalizes to '" ++ key ++ "' which is already declared"

/-- The fault as a diagnostic about a declaration in a file. -/
def diagnostic (path : String) (region : Region) (error : EnumerationError) : Diagnostic :=
  .errorAt .build error.code error.message path region

end EnumerationError

/-! ## The registry -/

/-- The enumerations of a description under the canonical forms of their names. -/
abbrev Registry := NameMap Enumeration

namespace Registry

/-- The enumeration whose name has the same canonical form as the given one. -/
def named? (registry : Registry) (name : String) : Option Enumeration :=
  registry.find? (Symbol.canonical name)

/-- The registry with one more declaration. -/
def enter (registry : Registry) (form : EnumerationForm) : Except EnumerationError Registry :=
  let enumeration := form.toEnumeration
  let key := Symbol.canonical form.name
  if enumeration.defaultTexts.length > 1 then
    .error (.multipleDefaults form.name enumeration.defaultTexts)
  else if registry.contains key then
    .error (.duplicate form.name key)
  else
    .ok (registry.insert key enumeration)

/-- The registry with further declarations, and the faults of those that do not enter. -/
def enterAll (registry : Registry) :
    List EnumerationForm → Registry × List (EnumerationForm × EnumerationError)
  | [] => (registry, [])
  | form :: rest =>
      match registry.enter form with
      | .ok extended => enterAll extended rest
      | .error error =>
          let (final, faults) := enterAll registry rest
          (final, (form, error) :: faults)

/-- The registry of all declarations of a file. -/
def ofForms (path : String) (forms : List EnumerationForm) : Except Failure Registry :=
  let (registry, faults) := enterAll NameMap.empty forms
  Phase.build.accept registry
    (faults.map fun (form, error) => error.diagnostic path form.region)

end Registry
end InstructionSet
