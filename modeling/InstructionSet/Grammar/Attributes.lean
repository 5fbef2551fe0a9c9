import InstructionSet.Grammar.Reader
import InstructionSet.Document

/-!
# Attributes

The header of a directive, an entry of a body, a member of a group and a value of an enumeration
carry attributes: keys with values, in any order. The case of a key does not matter, and no key
occurs twice. A construct looks the attributes up that it knows, each with the kind of value that it
needs, and refuses the ones that it does not know.
-/

namespace InstructionSet.Grammar

open InstructionSet.Text

set_option autoImplicit false

/-- Keys in lower case with the tokens of their values, in the order of the source. -/
abbrev AttributePairs := List (String × Token)

/-- The attributes of a construct. -/
structure Attributes where
  /-- The construct that has them. -/
  construct : Construct
  /-- The attributes in the order of the source. -/
  pairs : AttributePairs

/-! ## Reading attributes -/

namespace Reader

/-- Looking behind the next token leaves it the next one. -/
theorem peekSecond_run_ok {state next : State} {token second : Token} {rest : List Token}
    (ahead : state.ahead = token :: rest) (ran : peekSecond.run state = (.ok second, next)) :
    ∃ later, next.ahead = token :: later := by
  rw [peekSecond, run_bind, peek_run_of_ahead ahead] at ran
  simp only [ahead] at ran
  split at ran
  next => obtain ⟨-, rfl⟩ : _ = second ∧ state = next := by simpa using ran
          exact ⟨rest, ahead⟩
  next => exact ⟨rest ++ [second], by rw [look_run_ok ran, ahead]; rfl⟩

/-- In front of an attribute, an identifier is next. -/
theorem atAttribute_run_true {state next : State} (ran : atAttribute.run state = (.ok true, next)) :
    ∃ token rest, next.ahead = token :: rest ∧ token.kind = .identifier := by
  obtain ⟨isIdentifier, middle, checked, behind⟩ := run_bind_ok ran
  obtain ⟨token, looked, peeked, answered⟩ := run_bind_ok checked
  obtain ⟨rfl, rfl⟩ : decide (token.kind = .identifier) = isIdentifier ∧ looked = middle := by
    simpa using answered
  split at behind
  next kind =>
    obtain ⟨second, last, behindLast, ended⟩ := run_bind_ok behind
    obtain ⟨-, rfl⟩ : decide (second.kind = .equals) = true ∧ last = next := by
      simpa using ended
    obtain ⟨rest, ahead⟩ := peek_run_ok peeked
    obtain ⟨later, still⟩ := peekSecond_run_ok ahead behindLast
    exact ⟨token, later, still, of_decide_eq_true kind⟩
  next => simp at behind

theorem attributeKey?_run_some {state next : State} {key : String}
    (ran : attributeKey?.run state = (.ok (some key), next)) :
    next.remaining < state.remaining := by
  obtain ⟨found, middle, looked, rest⟩ := run_bind_ok ran
  split at rest
  next isAttribute =>
    subst isAttribute
    obtain ⟨token, later, ahead, kind⟩ := atAttribute_run_true looked
    obtain ⟨first, behind, consumed, rest⟩ := run_bind_ok rest
    obtain ⟨second, last, sign, rest⟩ := run_bind_ok rest
    obtain ⟨-, rfl⟩ : first.lexeme = key ∧ last = next := by simpa using rest
    rw [consume_run_of_ahead ahead] at consumed
    obtain ⟨rfl, rfl⟩ : token = first ∧ _ = behind := by simpa using consumed
    have taken := State.remaining_take ahead (by simp [kind]) (some token)
    exact Nat.lt_of_le_of_lt (remaining_le_of_run sign)
      (Nat.lt_of_lt_of_le taken (remaining_le_of_run looked))
  next => simp at rest

/-- Whether a token of a kind may be the value of an attribute. -/
def isAttributeValue (kind : TokenKind) : Bool :=
  kind = .identifier || kind = .number || kind = .text

/-- Reads one attribute behind others, if there is one. -/
def nextAttribute (construct : Construct) (pairs : AttributePairs) :
    Reader (Round AttributePairs AttributePairs) := do
  match ← attributeKey? with
  | none => return .done pairs
  | some key =>
      let value ← consume
      if !isAttributeValue value.kind then
        fail (.attributes construct (.valueMissing key))
      else if pairs.any (·.1 = key.toLower) then
        fail (.attributes construct (.duplicate key.toLower))
      else
        return .again (pairs ++ [(key.toLower, value)])

theorem progresses_nextAttribute (construct : Construct) (pairs : AttributePairs) :
    Progresses (nextAttribute construct pairs) := by
  intro state last more ran
  obtain ⟨key?, next, first, rest⟩ := run_bind_ok ran
  cases key? with
  | none => simp at rest
  | some key =>
      exact Nat.lt_of_le_of_lt (remaining_le_of_run rest) (attributeKey?_run_some first)

/-- Reads the attributes that come next. -/
def attributes (construct : Construct) : Reader Attributes := do
  return ⟨construct, ← loop (nextAttribute construct) (progresses_nextAttribute construct) []⟩

end Reader

/-! ## Looking attributes up -/

namespace Attributes

/-- The token under a key. -/
def find? (attributes : Attributes) (key : String) : Option Token :=
  attributes.pairs.lookup key

/-- The fault of the construct. -/
def fault {α : Type} (attributes : Attributes) (error : AttributeError) : Except SyntaxError α :=
  .error (.attributes attributes.construct error)

/-- The truth value that a token writes, in any case. -/
def truthOf? (token : Token) : Option Bool :=
  if token.kind ≠ .identifier then none
  else if token.lexeme.toLower = "true" then some true
  else if token.lexeme.toLower = "false" then some false
  else none

/-- The truth value of a token under a key. -/
def truth (attributes : Attributes) (key : String) (token : Token) : Except SyntaxError Bool :=
  match truthOf? token with
  | some value => .ok value
  | none => attributes.fault (.unfit key .truth token.lexeme)

/-- The value of a numeral under a key, of the width that a reading gives. -/
def numeral {α : Type} (attributes : Attributes) (reading : String → Except NumeralError α)
    (key : String) (token : Token) : Except SyntaxError α :=
  match reading token.lexeme with
  | .ok value => .ok value
  | .error error => attributes.fault (.numeral key token.lexeme error)

/-- The number of a token under a key, of the width that a reading gives. -/
def number {α : Type} (attributes : Attributes) (reading : String → Except NumeralError α)
    (key : String) (token : Token) : Except SyntaxError α :=
  if token.kind = .number then
    attributes.numeral reading key token
  else
    attributes.fault (.unfit key .number token.lexeme)

/-- The name of a token under a key. -/
def nameOf (attributes : Attributes) (key : String) (token : Token) :
    Except SyntaxError String :=
  if token.kind = .identifier ∨ token.kind = .text then
    .ok token.lexeme
  else
    attributes.fault (.unfit key .name token.lexeme)

/-- The value under a key, if there is one, as a reading of tokens gives it. -/
def optional {α : Type} (attributes : Attributes)
    (reading : String → Token → Except SyntaxError α) (key : String) :
    Except SyntaxError (Option α) :=
  match attributes.find? key with
  | none => .ok none
  | some token => some <$> reading key token

/-- The value under a key that the construct cannot do without. -/
def required {α : Type} (attributes : Attributes)
    (reading : String → Token → Except SyntaxError α) (key : String) : Except SyntaxError α := do
  match ← attributes.optional reading key with
  | some value => return value
  | none => attributes.fault (.required key)

/-- The truth value under a key, or the value to assume. -/
def flag (attributes : Attributes) (key : String) (assumed : Bool) : Except SyntaxError Bool :=
  (·.getD assumed) <$> attributes.optional attributes.truth key

/-- The byte under a key, if there is one. -/
def byte? (attributes : Attributes) (key : String) : Except SyntaxError (Option UInt8) :=
  attributes.optional (attributes.number Numeral.byte) key

/-- The byte under a key that the construct cannot do without. -/
def byte (attributes : Attributes) (key : String) : Except SyntaxError UInt8 :=
  attributes.required (attributes.number Numeral.byte) key

/-- The 32-bit word under a key, if there is one. -/
def word? (attributes : Attributes) (key : String) : Except SyntaxError (Option UInt32) :=
  attributes.optional (attributes.number Numeral.word32) key

/-- The name under a key that the construct cannot do without. -/
def name (attributes : Attributes) (key : String) : Except SyntaxError String :=
  attributes.required attributes.nameOf key

/-- Refuses the first attribute whose key is not among the known ones. -/
def onlyKnown (attributes : Attributes) (known : List String) : Except SyntaxError Unit :=
  match attributes.pairs.find? fun pair => pair.1 ∉ known with
  | none => .ok ()
  | some (key, _) => attributes.fault (.unknown key)

/-! ## What constructs read from their attributes -/

/-- The choice of a lane that a token writes: a bit position, the usual place, or none. -/
def laneOf (attributes : Attributes) (key : String) (token : Token) :
    Except SyntaxError (Option LaneChoice) :=
  if token.kind = .number then do
    return some (.bit (← attributes.numeral Numeral.byte key token))
  else do
    return if ← attributes.truth key token then some .automatic else none

/-- The source with a name. -/
def source (attributes : Attributes) (name : String) : Except SyntaxError SourceForm := do
  let lane ← attributes.optional attributes.laneOf "lane"
  let size ← attributes.byte? "size"
  let float ← attributes.flag "float" false
  let swizzle ← attributes.flag "swizzle" false
  let widen ← attributes.flag "widen" false
  let lanes ← attributes.flag "lanes" false
  let absNeg ← attributes.flag "absneg" false
  let not ← attributes.flag "not" false
  attributes.onlyKnown
    ["lane", "size", "float", "swizzle", "widen", "lanes", "absneg", "not"]
  return {
    name := name
    size := size
    traits := { float, swizzle, widen, lanes, absNeg, not }
    lane := lane.join }

/-- The staging register with a name. -/
def staging (attributes : Attributes) (name : String) : Except SyntaxError StagingForm := do
  let read ← attributes.flag "read" false
  let write ← attributes.flag "write" false
  let count ← attributes.byte? "count"
  let flags ← attributes.flag "flags" true
  attributes.onlyKnown ["read", "write", "count", "flags"]
  return { name, read, write, count := count.getD 0, flags }

/-- The immediate operand. -/
def immediate (attributes : Attributes) : Except SyntaxError Immediate := do
  let name ← attributes.name "name"
  let start ← attributes.byte "start"
  let size ← attributes.byte "size"
  let signed ← attributes.flag "signed" false
  attributes.onlyKnown ["name", "start", "size", "signed"]
  return { name, start, size, signed }

/-- The placement of a modifier. -/
def modifier (attributes : Attributes) : Except SyntaxError ModifierPlacement := do
  let name ← attributes.name "name"
  let start ← attributes.byte "start"
  let size ← attributes.byte "size"
  let implied ← attributes.flag "implied" false
  attributes.onlyKnown ["name", "start", "size", "implied"]
  return { name, start, size, implied }

/-- The opcodes of a member of a group. -/
def member (attributes : Attributes) : Except SyntaxError Opcodes := do
  let primary ← attributes.word? "opcode"
  let secondary ← attributes.word? "opcode2"
  attributes.onlyKnown ["opcode", "opcode2"]
  return { primary, secondary }

/-- Whether a value of an enumeration is the default. -/
def isDefault (attributes : Attributes) : Except SyntaxError Bool := do
  let isDefault ← attributes.flag "default" false
  attributes.onlyKnown ["default"]
  return isDefault

/-- The opcodes of an instruction or a group, and a layout with its counts of plain operands. -/
def header (attributes : Attributes) : Except SyntaxError (Opcodes × Layout) := do
  let primary ← attributes.word? "opcode"
  let secondary ← attributes.word? "opcode2"
  let sources ← attributes.byte? "srcs"
  let dests ← attributes.byte? "dests"
  attributes.onlyKnown ["opcode", "opcode2", "srcs", "dests"]
  return ({ primary, secondary },
    { plainSources := sources.getD 0, plainDests := dests.getD 0 })

end Attributes
end InstructionSet.Grammar
