import InstructionSet.Grammar.Attributes

/-!
# Bodies

The body of an instruction or a group stands between braces and lists operands and modifiers, in
any order, with commas or semicolons between them if wanted. The body of a group also lists its
members. A source, a destination and a staging register may have a name, which is quoted because a
bare word would be the next entry; any word that is not the kind of an entry is the tag of a
modifier.
-/

namespace InstructionSet.Grammar

open InstructionSet.Text

set_option autoImplicit false

/-- What a body lists. -/
structure Body where
  /-- Operands and modifiers. -/
  layout : Layout
  /-- Members of a group. -/
  members : List GroupMember

namespace Body

/-- The body with one more operand or modifier. -/
def addEntry (body : Body) (entry : LayoutEntry) : Body :=
  { body with layout := body.layout.add entry }

/-- The body with one more member. -/
def addMember (body : Body) (member : GroupMember) : Body :=
  { body with members := body.members ++ [member] }

end Body

/-- Whether the body of a construct may list members. -/
def Construct.hasMembers : Construct → Bool
  | .group _ => true
  | _ => false

namespace Reader

/-- Takes the quoted name of an entry; without one, the name is empty. -/
def entryName : Reader String := do
  if ← check .text then
    return (← consume).lexeme
  else
    return ""

/-- Reads a source behind its keyword. -/
def source : Reader SourceForm := do
  let name ← entryName
  let attributes ← attributes .source
  attributes.source name

/-- Reads a staging register behind its keyword. -/
def staging : Reader StagingForm := do
  let name ← entryName
  let attributes ← attributes .staging
  attributes.staging name

/-- Reads an immediate operand behind its keyword. -/
def immediate : Reader Immediate := do
  let attributes ← attributes .immediate
  attributes.immediate

/-- Reads a modifier with a placement behind its keyword. -/
def modifier : Reader ModifierPlacement := do
  let attributes ← attributes .modifier
  attributes.modifier

/-- Reads a member of a group behind its keyword. -/
def member : Reader GroupMember := do
  let name ← name .member
  let attributes ← attributes (.member name.lexeme)
  let opcodes ← attributes.member
  return ⟨name.lexeme, opcodes, ← regionFrom name⟩

/-- Reads what stands behind a word that starts an entry. -/
def entryBehind (construct : Construct) (body : Body) (keyword : String) : Reader Body :=
  match keyword with
  | "src" => (body.addEntry <| .source ·) <$> source
  | "dest" => (body.addEntry <| .dest ·) <$> entryName
  | "sr" => (body.addEntry <| .staging ·) <$> staging
  | "imm" => (body.addEntry <| .immediate ·) <$> immediate
  | "mod" => (body.addEntry <| .modifier ·) <$> modifier
  | "ins" =>
      if construct.hasMembers then body.addMember <$> member
      else fail (.memberOutsideGroup construct)
  | tag => return body.addEntry (.tag tag)

/-- Reads one entry of a body, a mark between entries, or the end of the body. -/
def nextEntry (construct : Construct) (body : Body) : Reader (Round Body Body) := do
  if ← check .finish then
    fail (.bodyUnclosed construct)
  else if ← eat .closeBrace then
    return .done body
  else if ← eat .comma then
    return .again body
  else if ← eat .semicolon then
    return .again body
  else if ← atAttribute then
    let key ← consume
    fail (.strayAttribute key.lexeme construct)
  else
    let keyword ← identifier .bodyEntry
    return .again (← entryBehind construct body keyword.lexeme)

theorem progresses_nextEntry (construct : Construct) (body : Body) :
    Progresses (nextEntry construct body) := by
  refine progresses_bind _ fun atEnd => progresses_ite (progresses_fail _) ?_
  refine progresses_eat (by decide) _ ?_
  refine progresses_eat (by decide) _ ?_
  refine progresses_eat (by decide) _ ?_
  refine progresses_bind _ fun stray => progresses_ite ?_ ?_
  · exact progresses_bind _ fun key => progresses_fail _
  · exact Takes.progresses (takes_identifier _) _

/-- Reads the body of a construct, whose header has given a layout with its counts. -/
def body (construct : Construct) (layout : Layout) : Reader Body := do
  let _ ← expect .openBrace (.body construct)
  loop (nextEntry construct) (progresses_nextEntry construct) ⟨layout, []⟩

end Reader
end InstructionSet.Grammar
