import InstructionSet.Grammar.Description
import InstructionSet.Proofs.Fallible
import InstructionSet.Proofs.Grammar.Phrases
import InstructionSet.Proofs.Token.Scanned

/-!
# Descriptions without their places

Directives and the members of groups carry the regions of their declarations, tokens and faults the
positions where they stand, and diagnostics their spans. This module says what each of them is
without its place, or when two of them are the same up to their places. What is read from
attributes does not depend on the places of their values (`Attributes.Placeless`).
-/

namespace InstructionSet

open InstructionSet.Text

set_option autoImplicit false

open Fallible

/-! ## Declarations -/

/-- A member of a group without its place. -/
def GroupMember.unplaced (member : GroupMember) : GroupMember :=
  { member with region := .point .origin }

/-- A directive without its place and those of its members. -/
def Directive.unplaced : Directive → Directive
  | .lookupTable table => .lookupTable { table with region := .point .origin }
  | .enumeration form => .enumeration { form with region := .point .origin }
  | .instruction form => .instruction { form with region := .point .origin }
  | .group form =>
      .group { form with region := .point .origin, members := form.members.map (·.unplaced) }

/-- A document without its path and all places. -/
def Document.unplaced (document : Document) : Document :=
  ⟨"", document.directives.map (·.unplaced)⟩

/-! ## Diagnostics and failures -/

/-- Diagnostics that say the same, wherever they are. -/
structure Diagnostic.Alike (first second : Diagnostic) : Prop where
  /-- The phase is the same. -/
  phase : first.phase = second.phase
  /-- The severity is the same. -/
  severity : first.severity = second.severity
  /-- The code is the same. -/
  code : first.code = second.code
  /-- The message is the same. -/
  message : first.message = second.message

/-- Reports of the same phase whose diagnostics say the same, one by one. -/
inductive Failure.Alike : Failure → Failure → Prop where
  | reported {phase : Phase} {first second : List Diagnostic}
      (each : List.Forall₂ Diagnostic.Alike first second) :
      Alike (.reported phase first) (.reported phase second)

theorem Diagnostic.alike_errorAt (phase : Phase) (code message path other : String)
    (region place : Region) :
    Alike (errorAt phase code message path region) (errorAt phase code message other place) :=
  ⟨rfl, rfl, rfl, rfl⟩

/-- A phase that collects the same diagnostics accepts both or reports both. -/
theorem Phase.parallel_accept {α β : Type} {phase : Phase} {values : α → β → Prop} {value : α}
    {other : β} {first second : List Diagnostic} (related : values value other)
    (each : List.Forall₂ Diagnostic.Alike first second) :
    Parallel Failure.Alike values (phase.accept value first) (phase.accept other second) := by
  cases each with
  | nil => exact .ok related
  | cons here there => exact .error (.reported (.cons here there))

namespace Grammar

/-- Faults that say the same. -/
inductive Fault.Alike : Fault → Fault → Prop where
  | spelling {fault other : SpellingFault} (error : fault.error = other.error) :
      Alike (.spelling fault) (.spelling other)
  | grammar (error : SyntaxError) : Alike (.grammar error) (.grammar error)

/-- Issues that say the same. -/
def Issue.Alike (issue other : Issue) : Prop :=
  issue.fault.Alike other.fault

theorem Issue.Alike.diagnostic {issue issue' : Issue} (alike : issue.Alike issue')
    (path other : String) : (issue.diagnostic path).Alike (issue'.diagnostic other) := by
  obtain ⟨fault, region⟩ := issue
  obtain ⟨fault', region'⟩ := issue'
  cases alike with
  | spelling error =>
      simp only [Issue.diagnostic, error]
      exact Diagnostic.alike_errorAt _ _ _ _ _ _ _
  | grammar error => exact ⟨rfl, rfl, rfl, rfl⟩

/-! ## Attributes -/

/-- Attributes whose values have no places. -/
def unplacedPairs (pairs : AttributePairs) : AttributePairs :=
  pairs.map fun pair => (pair.1, pair.2.unplaced)

/-- The attributes of a construct without the places of their values. -/
def Attributes.unplaced (attributes : Attributes) : Attributes :=
  ⟨attributes.construct, unplacedPairs attributes.pairs⟩

namespace Attributes

variable {α : Type} (attributes : Attributes) (key : String)

theorem find?_unplaced : attributes.unplaced.find? key =
    (attributes.find? key).map Token.unplaced := by
  show (unplacedPairs attributes.pairs).lookup key = (attributes.pairs.lookup key).map _
  induction attributes.pairs with
  | nil => rfl
  | cons pair pairs ih =>
      obtain ⟨name, token⟩ := pair
      show ((name, token.unplaced) :: unplacedPairs pairs).lookup key = _
      rw [NameMap.lookup_cons_ite, NameMap.lookup_cons_ite, ih]
      split <;> rfl

theorem optional_unplaced {reading reading' : String → Token → Except SyntaxError α}
    (same : ∀ token, reading' key token.unplaced = reading key token) :
    attributes.unplaced.optional reading' key = attributes.optional reading key := by
  unfold optional
  rw [find?_unplaced]
  cases attributes.find? key with
  | none => rfl
  | some token => exact congrArg (some <$> ·) (same token)

theorem required_unplaced {reading reading' : String → Token → Except SyntaxError α}
    (same : ∀ token, reading' key token.unplaced = reading key token) :
    attributes.unplaced.required reading' key = attributes.required reading key := by
  unfold required
  rw [attributes.optional_unplaced key same]
  rfl

theorem flag_unplaced (assumed : Bool) :
    attributes.unplaced.flag key assumed = attributes.flag key assumed := by
  have same : attributes.unplaced.optional attributes.unplaced.truth key =
      attributes.optional attributes.truth key := attributes.optional_unplaced key fun _ => rfl
  unfold flag
  rw [same]

theorem byte?_unplaced : attributes.unplaced.byte? key = attributes.byte? key :=
  attributes.optional_unplaced key fun _ => rfl

theorem byte_unplaced : attributes.unplaced.byte key = attributes.byte key :=
  attributes.required_unplaced key fun _ => rfl

theorem word?_unplaced : attributes.unplaced.word? key = attributes.word? key :=
  attributes.optional_unplaced key fun _ => rfl

theorem name_unplaced : attributes.unplaced.name key = attributes.name key :=
  attributes.required_unplaced key fun _ => rfl

theorem lane_unplaced : attributes.unplaced.optional attributes.unplaced.laneOf key =
    attributes.optional attributes.laneOf key :=
  attributes.optional_unplaced key fun _ => rfl

theorem onlyKnown_unplaced (known : List String) :
    attributes.unplaced.onlyKnown known = attributes.onlyKnown known := by
  unfold onlyKnown
  have same : attributes.unplaced.pairs.find? (fun pair => pair.1 ∉ known) =
      (attributes.pairs.find? fun pair => pair.1 ∉ known).map
        fun pair => (pair.1, pair.2.unplaced) := List.find?_map
  rw [same]
  cases attributes.pairs.find? fun pair => pair.1 ∉ known <;> rfl

/-- Whether a reading of attributes does not depend on the places of their values. -/
def Placeless (reading : Attributes → Except SyntaxError α) : Prop :=
  ∀ attributes, reading attributes.unplaced = reading attributes

theorem Placeless.congr {reading : Attributes → Except SyntaxError α}
    (placeless : Placeless reading) {first second : Attributes}
    (same : first.unplaced = second.unplaced) : reading first = reading second := by
  rw [← placeless first, same, placeless second]

theorem placeless_source (name : String) : Placeless (·.source name) := by
  intro attributes
  simp only [source, lane_unplaced, byte?_unplaced, flag_unplaced, onlyKnown_unplaced]

theorem placeless_staging (name : String) : Placeless (·.staging name) := by
  intro attributes
  simp only [staging, byte?_unplaced, flag_unplaced, onlyKnown_unplaced]

theorem placeless_immediate : Placeless (·.immediate) := by
  intro attributes
  simp only [immediate, name_unplaced, byte_unplaced, flag_unplaced, onlyKnown_unplaced]

theorem placeless_modifier : Placeless (·.modifier) := by
  intro attributes
  simp only [modifier, name_unplaced, byte_unplaced, flag_unplaced, onlyKnown_unplaced]

theorem placeless_member : Placeless (·.member) := by
  intro attributes
  simp only [member, word?_unplaced, onlyKnown_unplaced]

theorem placeless_isDefault : Placeless (·.isDefault) := by
  intro attributes
  simp only [isDefault, flag_unplaced, onlyKnown_unplaced]

theorem placeless_header : Placeless (·.header) := by
  intro attributes
  simp only [header, word?_unplaced, byte?_unplaced, onlyKnown_unplaced]

end Attributes

/-! ## Lookup tables -/

theorem tableNames_unplaced (directive : Directive) :
    tableNames directive.unplaced = tableNames directive := by
  cases directive <;> rfl

theorem flatMap_tableNames_congr {first second : List Directive}
    (same : first.map (·.unplaced) = second.map (·.unplaced)) :
    first.flatMap tableNames = second.flatMap tableNames := by
  have names : ∀ directives : List Directive,
      (directives.map (·.unplaced)).flatMap tableNames = directives.flatMap tableNames := by
    intro directives
    rw [List.flatMap_map]
    simp only [tableNames_unplaced]
  rw [← names, same, names]

end Grammar
end InstructionSet
