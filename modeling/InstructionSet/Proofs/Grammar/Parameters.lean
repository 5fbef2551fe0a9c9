import InstructionSet.Proofs.Grammar.Phrases
import InstructionSet.Proofs.NameMap
import InstructionSet.Proofs.Numeral.Grammar
import InstructionSet.Proofs.Token.Scanned

/-!
# The parameters of constructs

A construct reads its attributes under the keys that it knows. Its parameters say which keys these
are, what has to stand under them, and which of them it cannot do without
(`Construct.parameters`). Attributes are refused for one of four reasons and for no other
(`Refused`): a key is repeated, a key is unknown, a required one is absent, or a value is not what
its key asks for. All others are read (`Construct.Reads.exists_iff`).
-/

namespace InstructionSet.Grammar

open InstructionSet.Text

set_option autoImplicit false

/-! ## What constructs know -/

/-- What the value under a key has to be. -/
inductive ValueType where
  /-- True or false. -/
  | truth
  /-- A bit position, or true or false. -/
  | lane
  /-- A number below 256. -/
  | byte
  /-- A number of at most 32 bits. -/
  | word
  /-- An identifier or a text. -/
  | name
  deriving DecidableEq

/-- A key that a construct knows. -/
structure Parameter where
  /-- The key in lower case. -/
  key : String
  /-- What has to stand under the key. -/
  type : ValueType
  /-- Whether the construct cannot do without the key. -/
  isRequired : Bool
  deriving DecidableEq

/-- The keys that a construct knows. -/
def Construct.parameters : Construct → List Parameter
  | .instruction _ | .group _ =>
      [ ⟨"opcode", .word, false⟩, ⟨"opcode2", .word, false⟩,
        ⟨"srcs", .byte, false⟩, ⟨"dests", .byte, false⟩ ]
  | .member _ => [⟨"opcode", .word, false⟩, ⟨"opcode2", .word, false⟩]
  | .source =>
      [ ⟨"lane", .lane, false⟩, ⟨"size", .byte, false⟩, ⟨"float", .truth, false⟩,
        ⟨"swizzle", .truth, false⟩, ⟨"widen", .truth, false⟩, ⟨"lanes", .truth, false⟩,
        ⟨"absneg", .truth, false⟩, ⟨"not", .truth, false⟩ ]
  | .staging =>
      [ ⟨"read", .truth, false⟩, ⟨"write", .truth, false⟩,
        ⟨"count", .byte, false⟩, ⟨"flags", .truth, false⟩ ]
  | .immediate =>
      [ ⟨"name", .name, true⟩, ⟨"start", .byte, true⟩,
        ⟨"size", .byte, true⟩, ⟨"signed", .truth, false⟩ ]
  | .modifier =>
      [ ⟨"name", .name, true⟩, ⟨"start", .byte, true⟩,
        ⟨"size", .byte, true⟩, ⟨"implied", .truth, false⟩ ]
  | .enumerationValue => [⟨"default", .truth, false⟩]

/-- What a construct reads its attributes as. A source and a staging register bring a name. -/
inductive Construct.Reads :
    Construct → {α : Type} → (Attributes → Except SyntaxError α) → Prop where
  | instruction (name : String) : Reads (.instruction name) (·.header)
  | group (name? : Option String) : Reads (.group name?) (·.header)
  | member (name : String) : Reads (.member name) (·.member)
  | source (name : String) : Reads .source (·.source name)
  | staging (name : String) : Reads .staging (·.staging name)
  | immediate : Reads .immediate (·.immediate)
  | modifier : Reads .modifier (·.modifier)
  | enumerationValue : Reads .enumerationValue (·.isDefault)

theorem Construct.exists_reads (construct : Construct) :
    ∃ (α : Type) (reading : Attributes → Except SyntaxError α), construct.Reads reading := by
  cases construct with
  | instruction name => exact ⟨_, _, .instruction name⟩
  | group name? => exact ⟨_, _, .group name?⟩
  | member name => exact ⟨_, _, .member name⟩
  | source => exact ⟨_, _, .source ""⟩
  | staging => exact ⟨_, _, .staging ""⟩
  | immediate => exact ⟨_, _, .immediate⟩
  | modifier => exact ⟨_, _, .modifier⟩
  | enumerationValue => exact ⟨_, _, .enumerationValue⟩

/-! ## What is refused -/

/-- Whether a token is true or false, in any case. -/
def writesTruth (token : Token) : Prop :=
  token.kind = .identifier ∧ (token.lexeme.toLower = "true" ∨ token.lexeme.toLower = "false")

/-- Whether a token is a number below a bound. -/
def writesNumber (bound : Nat) (token : Token) : Prop :=
  token.kind = .number ∧ ∃ number < bound, Numeral.Reads token.lexeme.toList (.ok number)

/-- Whether a token is what a value has to be. -/
def ValueType.Fits : ValueType → Token → Prop
  | .truth, token => writesTruth token
  | .lane, token => writesNumber UInt8.size token ∨ writesTruth token
  | .byte, token => writesNumber UInt8.size token
  | .word, token => writesNumber UInt32.size token
  | .name, token => isName token

/-- Why a construct does not read attributes, whose keys are in lower case. -/
inductive Refused (construct : Construct) (pairs : AttributePairs) : Prop where
  | repeated (same : ¬ (pairs.map (·.1)).Nodup)
  | unknown (pair : String × Token) (listed : pair ∈ pairs)
      (unknown : ∀ parameter ∈ construct.parameters, parameter.key ≠ pair.1)
  | absent (parameter : Parameter) (known : parameter ∈ construct.parameters)
      (isRequired : parameter.isRequired = true) (absent : ∀ pair ∈ pairs, pair.1 ≠ parameter.key)
  | unfit (parameter : Parameter) (known : parameter ∈ construct.parameters) (value : Token)
      (listed : (parameter.key, value) ∈ pairs) (unfit : ¬ parameter.type.Fits value)

/-- Whether attributes have under a key what its parameter asks for. -/
structure Parameter.Suits (parameter : Parameter) (pairs : AttributePairs) : Prop where
  /-- What stands under the key is of the type. -/
  fits : ∀ token, pairs.lookup parameter.key = some token → parameter.type.Fits token
  /-- Something stands under a key that is required. -/
  present : parameter.isRequired = true → ∃ token, pairs.lookup parameter.key = some token

/-- Whether attributes have what each of some parameters asks for, and no other keys than these. -/
structure Suit (parameters : List Parameter) (pairs : AttributePairs) : Prop where
  each : ∀ parameter ∈ parameters, parameter.Suits pairs
  known : ∀ pair ∈ pairs, pair.1 ∈ parameters.map (·.key)

/-- Attributes are refused unless no key is repeated and they are what the parameters ask for. -/
theorem refused_iff {construct : Construct} {pairs : AttributePairs} :
    Refused construct pairs ↔
      ¬ ((pairs.map (·.1)).Nodup ∧ Suit construct.parameters pairs) := by
  constructor
  · rintro refused ⟨distinct, suit⟩
    cases refused with
    | repeated same => exact same distinct
    | unknown pair listed unknown =>
        obtain ⟨parameter, known, same⟩ := List.mem_map.1 (suit.known pair listed)
        exact unknown parameter known same
    | absent parameter known isRequired absent =>
        obtain ⟨token, found⟩ := (suit.each parameter known).present isRequired
        exact absent _ (NameMap.mem_of_lookup found) rfl
    | unfit parameter known value listed unfit =>
        exact unfit ((suit.each parameter known).fits value
          ((NameMap.lookup_eq_some_iff distinct).2 listed))
  · intro unsuited
    by_contra accepted
    have distinct : (pairs.map (·.1)).Nodup := by
      by_contra same
      exact accepted (.repeated same)
    refine unsuited ⟨distinct, fun parameter known => ⟨fun token found => ?_, fun isRequired => ?_⟩,
      fun pair listed => ?_⟩
    · by_contra unfit
      exact accepted (.unfit parameter known token (NameMap.mem_of_lookup found) unfit)
    · by_contra none
      refine accepted (.absent parameter known isRequired fun pair listed same => none ⟨pair.2, ?_⟩)
      exact (NameMap.lookup_eq_some_iff distinct).2 (same ▸ listed)
    · by_contra unlisted
      exact accepted (.unknown pair listed fun parameter known same =>
        unlisted (List.mem_map.2 ⟨parameter, known, same⟩))

/-! ## Attributes that are what the parameters ask for -/

namespace Attributes

open Fallible

variable {α : Type} (attributes : Attributes) (key : String)

theorem exists_truth_iff (token : Token) :
    (∃ value, attributes.truth key token = .ok value) ↔ writesTruth token := by
  unfold truth truthOf? writesTruth fault
  by_cases isIdentifier : token.kind = .identifier
  · by_cases yes : token.lexeme.toLower = "true"
    · simp [isIdentifier, yes]
    · by_cases no : token.lexeme.toLower = "false"
      · simp [isIdentifier, no]
      · simp [isIdentifier, yes, no]
  · simp [isIdentifier]

theorem below_reads_iff {numeral : String} {bound : Nat} :
    (∃ number, Numeral.below bound numeral = .ok number) ↔
      ∃ number < bound, Numeral.Reads numeral.toList (.ok number) := by
  simp only [← Numeral.value_eq_iff, Numeral.below, bind_eq_ok_iff]
  constructor
  · rintro ⟨number, found, read, inside⟩
    split at inside
    next fits => exact ⟨found, fits, read⟩
    next => cases inside
  · rintro ⟨number, fits, read⟩
    exact ⟨number, number, read, by rw [if_pos fits]; rfl⟩

theorem byte_reads_iff (numeral : String) : (∃ byte, Numeral.byte numeral = .ok byte) ↔
    ∃ number < UInt8.size, Numeral.Reads numeral.toList (.ok number) :=
  exists_map_eq_ok_iff.trans below_reads_iff

theorem word32_reads_iff (numeral : String) : (∃ word, Numeral.word32 numeral = .ok word) ↔
    ∃ number < UInt32.size, Numeral.Reads numeral.toList (.ok number) :=
  exists_map_eq_ok_iff.trans below_reads_iff

section Numerals

variable {numeral : String → Except NumeralError α} {bound : Nat}
  (below : ∀ text, (∃ value, numeral text = .ok value) ↔
    ∃ number < bound, Numeral.Reads text.toList (.ok number))

include below

theorem exists_numeral_iff (token : Token) :
    (∃ value, attributes.numeral numeral key token = .ok value) ↔
      ∃ number < bound, Numeral.Reads token.lexeme.toList (.ok number) := by
  rw [← below, Attributes.numeral]
  cases numeral token.lexeme with
  | ok value => simp
  | error error => simp [fault]

theorem exists_number_iff (token : Token) :
    (∃ value, attributes.number numeral key token = .ok value) ↔ writesNumber bound token := by
  rw [number, writesNumber]
  by_cases isNumber : token.kind = .number
  · rw [if_pos isNumber, attributes.exists_numeral_iff key below token]
    simp [isNumber]
  · simp [isNumber, fault]

end Numerals

theorem exists_laneOf_iff (token : Token) :
    (∃ choice, attributes.laneOf key token = .ok choice) ↔ ValueType.lane.Fits token := by
  show _ ↔ writesNumber UInt8.size token ∨ writesTruth token
  rw [laneOf]
  by_cases isNumber : token.kind = .number
  · rw [if_pos isNumber]
    refine (exists_bind_eq_ok_iff (attributes.exists_numeral_iff key byte_reads_iff token)
      fun _ => exists_pure_eq_ok_iff).trans ?_
    simp [writesNumber, writesTruth, isNumber]
  · rw [if_neg isNumber]
    refine (exists_bind_eq_ok_iff (attributes.exists_truth_iff key token)
      fun _ => exists_pure_eq_ok_iff).trans ?_
    simp [writesNumber, isNumber]

theorem exists_nameOf_iff (token : Token) :
    (∃ name, attributes.nameOf key token = .ok name) ↔ isName token := by
  unfold nameOf isName
  split
  next named => exact iff_of_true ⟨_, rfl⟩ named
  next other => exact iff_of_false (by rintro ⟨_, impossible⟩; cases impossible) other

/-! ## Values under keys -/

variable {reading : String → Token → Except SyntaxError α} {type : ValueType}

theorem exists_optional_iff
    (each : ∀ token, (∃ value, reading key token = .ok value) ↔ type.Fits token) :
    (∃ value?, attributes.optional reading key = .ok value?) ↔
      Parameter.Suits ⟨key, type, false⟩ attributes.pairs := by
  rw [optional, find?]
  cases found : attributes.pairs.lookup key with
  | none =>
      refine iff_of_true ⟨none, rfl⟩ ⟨fun token there => ?_, fun impossible => by cases impossible⟩
      rw [found] at there
      cases there
  | some token =>
      simp only [exists_map_eq_ok_iff, each]
      constructor
      · intro fits
        refine ⟨fun token there => ?_, fun impossible => by cases impossible⟩
        rw [found] at there
        cases there
        exact fits
      · exact fun suits => suits.fits token found

theorem exists_required_iff
    (each : ∀ token, (∃ value, reading key token = .ok value) ↔ type.Fits token) :
    (∃ value, attributes.required reading key = .ok value) ↔
      Parameter.Suits ⟨key, type, true⟩ attributes.pairs := by
  have optional := attributes.exists_optional_iff key each
  cases found : attributes.pairs.lookup key with
  | none =>
      have none : attributes.required reading key = attributes.fault (.required key) := by
        simp only [required, Attributes.optional, find?, found]
        rfl
      rw [none]
      refine iff_of_false (by rintro ⟨_, impossible⟩; cases impossible) fun suits => ?_
      obtain ⟨token, there⟩ := suits.present rfl
      rw [found] at there
      cases there
  | some token =>
      have same : attributes.required reading key = reading key token := by
        simp only [required, Attributes.optional, find?, found]
        cases reading key token <;> rfl
      rw [same, each]
      refine ⟨fun fits => ⟨fun other there => ?_, fun _ => ⟨token, found⟩⟩,
        fun suits => suits.fits token found⟩
      rw [found] at there
      cases there
      exact fits

theorem exists_onlyKnown_iff (known : List String) :
    (∃ done, attributes.onlyKnown known = .ok done) ↔
      ∀ pair ∈ attributes.pairs, pair.1 ∈ known := by
  rw [onlyKnown]
  cases found : attributes.pairs.find? fun pair => pair.1 ∉ known with
  | none =>
      refine iff_of_true ⟨(), rfl⟩ fun pair listed => ?_
      simpa using List.find?_eq_none.1 found pair listed
  | some pair =>
      refine iff_of_false (by rintro ⟨_, impossible⟩; cases impossible) fun all => ?_
      have unknown := List.find?_some found
      simp [all pair (List.mem_of_find?_eq_some found)] at unknown

theorem exists_flag_iff (assumed : Bool) : (∃ value, attributes.flag key assumed = .ok value) ↔
    Parameter.Suits ⟨key, .truth, false⟩ attributes.pairs :=
  exists_map_eq_ok_iff.trans (attributes.exists_optional_iff key (attributes.exists_truth_iff key))

theorem exists_lane?_iff : (∃ choice, attributes.optional attributes.laneOf key = .ok choice) ↔
    Parameter.Suits ⟨key, .lane, false⟩ attributes.pairs :=
  attributes.exists_optional_iff key (attributes.exists_laneOf_iff key)

theorem exists_byte?_iff : (∃ value?, attributes.byte? key = .ok value?) ↔
    Parameter.Suits ⟨key, .byte, false⟩ attributes.pairs :=
  attributes.exists_optional_iff key (attributes.exists_number_iff key byte_reads_iff)

theorem exists_byte_iff : (∃ value, attributes.byte key = .ok value) ↔
    Parameter.Suits ⟨key, .byte, true⟩ attributes.pairs :=
  attributes.exists_required_iff key (attributes.exists_number_iff key byte_reads_iff)

theorem exists_word?_iff : (∃ value?, attributes.word? key = .ok value?) ↔
    Parameter.Suits ⟨key, .word, false⟩ attributes.pairs :=
  attributes.exists_optional_iff key (attributes.exists_number_iff key word32_reads_iff)

theorem exists_name_iff : (∃ name, attributes.name key = .ok name) ↔
    Parameter.Suits ⟨key, .name, true⟩ attributes.pairs :=
  attributes.exists_required_iff key (attributes.exists_nameOf_iff key)

end Attributes

/-! ## What the parameters of a construct ask for -/

/-- What a construct reads: what each parameter asks for, in their order, and then that the keys of
all attributes are known. -/
def Demands (known : List String) (pairs : AttributePairs) : List Parameter → Prop
  -- The last step makes a value of what was read, and demands nothing.
  | [] => (∀ pair ∈ pairs, pair.1 ∈ known) ∧ True
  | parameter :: rest => parameter.Suits pairs ∧ Demands known pairs rest

theorem demands_iff {known : List String} {pairs : AttributePairs} {parameters : List Parameter} :
    Demands known pairs parameters ↔
      (∀ parameter ∈ parameters, parameter.Suits pairs) ∧ ∀ pair ∈ pairs, pair.1 ∈ known := by
  induction parameters with
  | nil => simp [Demands]
  | cons parameter rest ih => simp [Demands, ih, and_assoc]

namespace Construct.Reads

open Attributes Fallible

variable {α : Type} {construct : Construct} {reading : Attributes → Except SyntaxError α}

theorem exists_iff_demands (reads : construct.Reads reading) (pairs : AttributePairs) :
    (∃ value, reading ⟨construct, pairs⟩ = .ok value) ↔
      Demands (construct.parameters.map (·.key)) pairs construct.parameters := by
  have header : ∀ attributes : Attributes, (∃ value, attributes.header = .ok value) ↔
      Demands ["opcode", "opcode2", "srcs", "dests"] attributes.pairs
        (Construct.group none).parameters := fun attributes =>
    exists_bind_eq_ok_iff (attributes.exists_word?_iff _) fun _ =>
    exists_bind_eq_ok_iff (attributes.exists_word?_iff _) fun _ =>
    exists_bind_eq_ok_iff (attributes.exists_byte?_iff _) fun _ =>
    exists_bind_eq_ok_iff (attributes.exists_byte?_iff _) fun _ =>
    exists_bind_eq_ok_iff (attributes.exists_onlyKnown_iff _) fun _ => exists_pure_eq_ok_iff
  cases reads with
  | instruction name => exact header _
  | group name? => exact header _
  | member name =>
      exact exists_bind_eq_ok_iff (exists_word?_iff _ _) fun _ =>
        exists_bind_eq_ok_iff (exists_word?_iff _ _) fun _ =>
        exists_bind_eq_ok_iff (exists_onlyKnown_iff _ _) fun _ => exists_pure_eq_ok_iff
  | source name =>
      exact exists_bind_eq_ok_iff (exists_lane?_iff _ _) fun _ =>
        exists_bind_eq_ok_iff (exists_byte?_iff _ _) fun _ =>
        exists_bind_eq_ok_iff (exists_flag_iff _ _ _) fun _ =>
        exists_bind_eq_ok_iff (exists_flag_iff _ _ _) fun _ =>
        exists_bind_eq_ok_iff (exists_flag_iff _ _ _) fun _ =>
        exists_bind_eq_ok_iff (exists_flag_iff _ _ _) fun _ =>
        exists_bind_eq_ok_iff (exists_flag_iff _ _ _) fun _ =>
        exists_bind_eq_ok_iff (exists_flag_iff _ _ _) fun _ =>
        exists_bind_eq_ok_iff (exists_onlyKnown_iff _ _) fun _ => exists_pure_eq_ok_iff
  | staging name =>
      exact exists_bind_eq_ok_iff (exists_flag_iff _ _ _) fun _ =>
        exists_bind_eq_ok_iff (exists_flag_iff _ _ _) fun _ =>
        exists_bind_eq_ok_iff (exists_byte?_iff _ _) fun _ =>
        exists_bind_eq_ok_iff (exists_flag_iff _ _ _) fun _ =>
        exists_bind_eq_ok_iff (exists_onlyKnown_iff _ _) fun _ => exists_pure_eq_ok_iff
  | immediate =>
      exact exists_bind_eq_ok_iff (exists_name_iff _ _) fun _ =>
        exists_bind_eq_ok_iff (exists_byte_iff _ _) fun _ =>
        exists_bind_eq_ok_iff (exists_byte_iff _ _) fun _ =>
        exists_bind_eq_ok_iff (exists_flag_iff _ _ _) fun _ =>
        exists_bind_eq_ok_iff (exists_onlyKnown_iff _ _) fun _ => exists_pure_eq_ok_iff
  | modifier =>
      exact exists_bind_eq_ok_iff (exists_name_iff _ _) fun _ =>
        exists_bind_eq_ok_iff (exists_byte_iff _ _) fun _ =>
        exists_bind_eq_ok_iff (exists_byte_iff _ _) fun _ =>
        exists_bind_eq_ok_iff (exists_flag_iff _ _ _) fun _ =>
        exists_bind_eq_ok_iff (exists_onlyKnown_iff _ _) fun _ => exists_pure_eq_ok_iff
  | enumerationValue =>
      exact exists_bind_eq_ok_iff (exists_flag_iff _ _ _) fun _ =>
        exists_bind_eq_ok_iff (exists_onlyKnown_iff _ _) fun _ => exists_pure_eq_ok_iff

/-- Attributes are read unless they are refused. -/
theorem exists_iff (reads : construct.Reads reading) (pairs : AttributePairs) :
    ((pairs.map (·.1)).Nodup ∧ ∃ value, reading ⟨construct, pairs⟩ = .ok value) ↔
      ¬ Refused construct pairs := by
  rw [refused_iff, not_not, reads.exists_iff_demands, demands_iff]
  exact and_congr_right fun _ => ⟨fun both => ⟨both.1, both.2⟩, fun suit => ⟨suit.each, suit.known⟩⟩

end Construct.Reads

end InstructionSet.Grammar
