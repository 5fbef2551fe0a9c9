import InstructionSet.Grammar.Body

/-!
# Directives

A directive is introduced by a colon and its name, and ends where the next colon or the end of the
source stands. There are four of them: lookup tables, enumerations, instructions and groups. A word
behind `:group` names the group unless it is the key of an attribute.
-/

namespace InstructionSet.Grammar

open InstructionSet.Text

set_option autoImplicit false

namespace Reader

/-! ## Lookup tables -/

/-- Reads one constant of a lookup table, a mark between constants, or the end of the table. -/
def nextConstant (table : String) (values : List UInt32) :
    Reader (Round (List UInt32) (List UInt32)) := do
  let token ← consume
  match token.kind with
  | .closeBrace => return .done values
  | .comma => return .again values
  | .semicolon => return .again values
  | .number =>
      match Numeral.word32 token.lexeme with
      | .ok value => return .again (values ++ [value])
      | .error error => fail (.lookupTableNumeral table token.lexeme error)
  | .finish => fail .lookupTableUnclosed
  | _ => fail (.lookupTableEntry table token.lexeme)

theorem progresses_nextConstant (table : String) (values : List UInt32) :
    Progresses (nextConstant table values) := by
  intro state last more ran
  obtain ⟨token, next, first, rest⟩ := run_bind_ok ran
  refine Nat.lt_of_le_of_lt (remaining_le_of_run rest) (consume_run_ok first fun atEnd => ?_)
  simp [atEnd] at rest

/-- Reads a lookup table behind its keyword. -/
def lookupTable : Reader Directive := do
  let token ← name .lookupTable
  if ← declareTable token.lexeme then
    let _ ← expect .openBrace .lookupTableBlock
    let values ← loop (nextConstant token.lexeme) (progresses_nextConstant token.lexeme) []
    return .lookupTable ⟨token.lexeme, values, ← regionFrom token⟩
  else
    fail (.lookupTableRepeated token.lexeme)

/-! ## Enumerations -/

/-- Reads a value of an enumeration behind its keyword. -/
def enumerationValue (enumeration : String) : Reader EnumerationEntry := do
  let text ← consume
  if isAttributeValue text.kind then
    let attributes ← attributes .enumerationValue
    return .value text.lexeme (← attributes.isDefault)
  else
    fail (.enumerationText enumeration text.lexeme)

/-- Reads what stands behind a word that starts an entry of an enumeration. -/
def enumerationEntryBehind (enumeration keyword : String) : Reader EnumerationEntry :=
  match keyword with
  | "value" => enumerationValue enumeration
  | "reserved" => return .reserved
  | found => fail (.enumerationEntry found)

/-- Reads one entry of an enumeration, a mark between entries, or the end of the enumeration. -/
def nextEnumerationEntry (enumeration : String) (entries : List EnumerationEntry) :
    Reader (Round (List EnumerationEntry) (List EnumerationEntry)) := do
  if ← check .finish then
    fail .enumerationUnclosed
  else if ← eat .closeBrace then
    return .done entries
  else if ← eat .comma then
    return .again entries
  else if ← eat .semicolon then
    return .again entries
  else
    let keyword ← identifier .enumerationEntry
    return .again (entries ++ [← enumerationEntryBehind enumeration keyword.lexeme])

theorem progresses_nextEnumerationEntry (enumeration : String)
    (entries : List EnumerationEntry) :
    Progresses (nextEnumerationEntry enumeration entries) := by
  refine progresses_bind _ fun atEnd => progresses_ite (progresses_fail _) ?_
  refine progresses_eat (by decide) _ ?_
  refine progresses_eat (by decide) _ ?_
  refine progresses_eat (by decide) _ ?_
  exact Takes.progresses (takes_identifier _) _

/-- Reads an enumeration behind its keyword. -/
def enumeration : Reader Directive := do
  let token ← name .enumeration
  let _ ← expect .openBrace .enumerationBlock
  let entries ←
    loop (nextEnumerationEntry token.lexeme) (progresses_nextEnumerationEntry token.lexeme) []
  return .enumeration ⟨token.lexeme, entries, ← regionFrom token⟩

/-! ## Instructions and groups -/

/-- Reads an instruction behind its keyword. Its body may be left out. -/
def instruction : Reader Directive := do
  let token ← name .instruction
  let construct := Construct.instruction token.lexeme
  let attributes ← attributes construct
  let (opcodes, layout) ← attributes.header
  let layout ← if ← check .openBrace then Body.layout <$> body construct layout else pure layout
  return .instruction ⟨token.lexeme, opcodes, layout, ← regionFrom token⟩

/-- Takes the name of a group, if the token that comes next is one. -/
def groupName? (token : Token) : Reader (Option String) := do
  if token.kind = .identifier ∨ token.kind = .text then
    if ← atAttribute then
      return none
    else
      return some (← consume).lexeme
  else
    return none

/-- Reads a group behind its keyword. -/
def group : Reader Directive := do
  let token ← peek
  let name? ← groupName? token
  let construct := Construct.group name?
  let attributes ← attributes construct
  let (opcodes, layout) ← attributes.header
  if ← check .openBrace then
    let body ← body construct layout
    if body.members = [] then
      fail (.groupWithoutMembers construct)
    else
      return .group ⟨name?, opcodes, body.layout, body.members, ← regionFrom token⟩
  else
    fail (.expected (.body construct))

/-! ## Any directive -/

/-- Reads the directive of a name. -/
def directiveNamed (name : String) : Reader Directive :=
  match name with
  | "lut" => lookupTable
  | "enum" => enumeration
  | "ins" => instruction
  | "group" => group
  | _ => fail (.unsupportedDirective name)

/-- Takes one token behind a directive, unless the next directive or the end of the source
stands there. -/
def nextTrailing (lexemes : List String) : Reader (Round (List String) (List String)) := do
  match ← insideDirective? with
  | none => return .done lexemes
  | some token => return .again (lexemes ++ [token.lexeme])

theorem insideDirective?_run_some {state next : State} {token : Token}
    (ran : insideDirective?.run state = (.ok (some token), next)) :
    next.remaining < state.remaining := by
  obtain ⟨front, looked, peeked, rest⟩ := run_bind_ok ran
  split at rest
  next => simp at rest
  next inside =>
    obtain ⟨taken, last, consumed, ended⟩ := run_bind_ok rest
    obtain ⟨rfl, rfl⟩ : taken = token ∧ last = next := by simpa using ended
    obtain ⟨later, ahead⟩ := peek_run_ok peeked
    rw [consume_run_of_ahead ahead] at consumed
    obtain ⟨rfl, rfl⟩ : front = taken ∧ _ = last := by simpa using consumed
    exact Nat.lt_of_lt_of_le
      (State.remaining_take ahead (fun atEnd => inside (.inl atEnd)) _)
      (remaining_le_of_run peeked)

theorem progresses_nextTrailing (lexemes : List String) :
    Progresses (nextTrailing lexemes) := by
  intro state last more ran
  obtain ⟨token?, next, first, rest⟩ := run_bind_ok ran
  cases token? with
  | none => simp at rest
  | some token =>
      exact Nat.lt_of_le_of_lt (remaining_le_of_run rest) (insideDirective?_run_some first)

/-- Refuses tokens between a directive and the next one. -/
def boundary (directive : String) : Reader Unit := do
  let lexemes ← loop nextTrailing progresses_nextTrailing []
  if lexemes = [] then return () else fail (.trailing directive lexemes)

/-- Reads a directive. -/
def directive : Reader Directive := do
  let _ ← expect .colon .directiveMark
  let name ← identifier .directive
  let directive ← directiveNamed name.lexeme
  boundary name.lexeme
  return directive

end Reader
end InstructionSet.Grammar
