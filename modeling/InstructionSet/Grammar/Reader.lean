import InstructionSet.Grammar.Error
import InstructionSet.Token.Scanner

/-!
# Reading tokens with look-ahead

A reader takes tokens off the front of a scanned source. It may look at one or two tokens before it
takes them; tokens that were looked at are kept until they are taken. A fault of spelling is raised
when it would be looked at, and is then gone.

A reader only ever moves on: whatever it does is a sequence of single moves (`State.Move`), and
none of them makes the rest of the source longer (`State.Reaches.remaining_le`). A round of a loop
that asks for another round has taken a token (`Progresses`), so loops come to an end.
-/

namespace InstructionSet.Grammar

open InstructionSet.Text InstructionSet.Scanner

set_option autoImplicit false

/-! ## The state of a reader -/

/-- How far a source has been read. -/
structure State where
  /-- Tokens that were looked at and not taken, in order. -/
  ahead : List Token
  /-- What the source comes to behind them. -/
  pending : List Scanned
  /-- Where the source ends. -/
  finish : Position
  /-- The token that was taken last. -/
  last : Option Token
  /-- Names of the lookup tables met so far. -/
  tables : List String

/-- The state before anything is read. -/
def State.start (stream : Stream) : State where
  ahead := []
  pending := stream.entries
  finish := stream.finish
  last := none
  tables := []

namespace State

/-- A single move of a reader. -/
inductive Move : State → State → Prop where
  /-- The next token is looked at. -/
  | look (state : State) (token : Token) (rest : List Scanned)
      (next : state.pending = .token token :: rest) :
      Move state { state with ahead := state.ahead ++ [token], pending := rest }
  /-- The end of the source is looked at. -/
  | lookAtEnd (state : State) (next : state.pending = []) :
      Move state { state with ahead := state.ahead ++ [.finish state.finish] }
  /-- A fault of spelling is raised. -/
  | raise (state : State) (fault : SpellingFault) (rest : List Scanned)
      (next : state.pending = .fault fault :: rest) :
      Move state { state with pending := rest }
  /-- A token that was looked at is taken. -/
  | take (state : State) (token : Token) (rest : List Token)
      (next : state.ahead = token :: rest) :
      Move state { state with ahead := rest, last := some token }
  /-- The name of a lookup table is noted. -/
  | declare (state : State) (name : String) :
      Move state { state with tables := name :: state.tables }

/-- Moves that lead from one state to another. -/
inductive Reaches : State → State → Prop where
  /-- No move at all. -/
  | refl (state : State) : Reaches state state
  /-- One move more. -/
  | tail {first middle last : State} (moves : Reaches first middle) (move : Move middle last) :
      Reaches first last

theorem Move.reaches {first last : State} (move : Move first last) : Reaches first last :=
  .tail (.refl first) move

theorem Reaches.trans {first middle last : State} (before : Reaches first middle)
    (after : Reaches middle last) : Reaches first last := by
  induction after with
  | refl => exact before
  | tail _ move ih => exact .tail ih move

/-! ## What is left to read -/

/-- The number of tokens and faults that are not taken yet, the end of the source not counted. -/
def remaining (state : State) : Nat :=
  (state.ahead.filter (·.kind ≠ .finish)).length + state.pending.length

theorem Move.remaining_le {first last : State} (move : Move first last) :
    last.remaining ≤ first.remaining := by
  cases move with
  | look token rest next =>
      have bound := List.length_filter_le (fun t : Token => decide (t.kind ≠ .finish)) [token]
      simp only [List.length_singleton] at bound
      simp only [remaining, next, List.filter_append, List.length_append, List.length_cons]
      omega
  | lookAtEnd next => simp [remaining, Token.finish]
  | raise fault rest next =>
      simp only [remaining, next, List.length_cons]
      omega
  | take token rest next =>
      simp only [remaining, next, List.filter_cons]
      split
      · simp only [List.length_cons]
        omega
      · exact Nat.le_refl _
  | declare name => exact Nat.le_refl _

theorem Reaches.remaining_le {first last : State} (moves : Reaches first last) :
    last.remaining ≤ first.remaining := by
  induction moves with
  | refl => exact Nat.le_refl _
  | tail _ move ih => exact Nat.le_trans move.remaining_le ih

theorem remaining_take {state : State} {token : Token} {rest : List Token}
    (next : state.ahead = token :: rest) (notFinish : token.kind ≠ .finish)
    (last : Option Token) :
    ({ state with ahead := rest, last := last } : State).remaining < state.remaining := by
  simp only [remaining, next, List.filter_cons, decide_eq_true notFinish, if_true,
    List.length_cons]
  omega

end State

/-! ## Readers -/

/-- A computation that reads tokens and may end in a fault. -/
structure Reader (α : Type) where
  /-- What the reader answers in a state, and the state that it leaves. -/
  run : State → Except Fault α × State
  /-- A reader only moves on. -/
  reaches : ∀ state : State, state.Reaches (run state).2

namespace Reader

variable {α β : Type}

/-- The reader that takes nothing and answers a value. -/
def answer (value : α) : Reader α where
  run state := (.ok value, state)
  reaches state := .refl state

/-- The reader that goes on with what another one answers. -/
def andThen (reader : Reader α) (continuation : α → Reader β) : Reader β where
  run state :=
    match reader.run state with
    | (.ok value, next) => (continuation value).run next
    | (.error fault, next) => (.error fault, next)
  reaches state := by
    have first := reader.reaches state
    split
    next value next same =>
      rw [same] at first
      exact first.trans ((continuation value).reaches next)
    next fault next same =>
      rw [same] at first
      exact first

instance : Monad Reader where
  pure := answer
  bind := andThen

/-- The reader that ends in a fault of grammar. -/
def fail (error : SyntaxError) : Reader α where
  run state := (.error (.grammar error), state)
  reaches state := .refl state

/-- The reader that answers a result that was computed without reading. -/
def ofExcept : Except SyntaxError α → Reader α
  | .ok value => answer value
  | .error error => fail error

instance : MonadLift (Except SyntaxError) Reader where
  monadLift := ofExcept

@[simp] theorem run_pure (value : α) (state : State) :
    (pure value : Reader α).run state = (.ok value, state) := rfl

@[simp] theorem run_fail (error : SyntaxError) (state : State) :
    (fail error : Reader α).run state = (.error (.grammar error), state) := rfl

theorem run_bind (reader : Reader α) (continuation : α → Reader β) (state : State) :
    (reader >>= continuation).run state =
      match reader.run state with
      | (.ok value, next) => (continuation value).run next
      | (.error fault, next) => (.error fault, next) := rfl

theorem run_bind_ok {reader : Reader α} {continuation : α → Reader β} {state last : State}
    {value : β} (ran : (reader >>= continuation).run state = (.ok value, last)) :
    ∃ found next, reader.run state = (.ok found, next) ∧
      (continuation found).run next = (.ok value, last) := by
  rw [run_bind] at ran
  split at ran
  next found next same => exact ⟨found, next, same, ran⟩
  next => simp at ran

theorem remaining_le (reader : Reader α) (state : State) :
    (reader.run state).2.remaining ≤ state.remaining :=
  (reader.reaches state).remaining_le

theorem remaining_le_of_run {reader : Reader α} {state next : State} {result : Except Fault α}
    (ran : reader.run state = (result, next)) : next.remaining ≤ state.remaining := by
  have bound := reader.remaining_le state
  rwa [ran] at bound

theorem remaining_bind_le (reader : Reader α) (continuation : α → Reader β) (state : State) :
    ((reader >>= continuation).run state).2.remaining ≤ (reader.run state).2.remaining := by
  rw [run_bind]
  split
  next value next same =>
    rw [same]
    exact remaining_le _ _
  next fault next same =>
    exact Nat.le_of_eq (by rw [same])

/-! ## Looking and taking -/

/-- Looks at one token more. -/
def look : Reader Token where
  run state :=
    match state.pending with
    | [] =>
        (.ok (.finish state.finish),
          { state with ahead := state.ahead ++ [.finish state.finish] })
    | .token token :: rest =>
        (.ok token, { state with ahead := state.ahead ++ [token], pending := rest })
    | .fault fault :: rest => (.error (.spelling fault), { state with pending := rest })
  reaches state := by
    split
    next next => exact (State.Move.lookAtEnd state next).reaches
    next token rest next => exact (State.Move.look state token rest next).reaches
    next fault rest next => exact (State.Move.raise state fault rest next).reaches

/-- The next token, which is not taken. -/
def peek : Reader Token where
  run state :=
    match state.ahead with
    | token :: _ => (.ok token, state)
    | [] => look.run state
  reaches state := by
    split
    · exact .refl state
    · exact look.reaches state

/-- The token behind the next one; neither is taken. -/
def peekSecond : Reader Token :=
  peek >>= fun _ =>
    { run := fun state =>
        match state.ahead with
        | _ :: token :: _ => (.ok token, state)
        | _ => look.run state
      reaches := fun state => by
        split
        · exact .refl state
        · exact look.reaches state }

theorem look_run_ok {state next : State} {token : Token}
    (ran : look.run state = (.ok token, next)) : next.ahead = state.ahead ++ [token] := by
  simp only [look] at ran
  split at ran <;> simp_all only [Prod.mk.injEq, Except.ok.injEq, reduceCtorEq, false_and]
  all_goals
    obtain ⟨rfl, rfl⟩ := ran
    rfl

theorem look_run_error {state next : State} {fault : Fault}
    (ran : look.run state = (.error fault, next)) : next.remaining < state.remaining := by
  simp only [look] at ran
  split at ran <;> simp_all only [Prod.mk.injEq, Except.error.injEq, reduceCtorEq, false_and]
  next fault rest pending =>
    obtain ⟨-, rfl⟩ := ran
    simp [State.remaining, pending]

/-- A token that was looked at is the next one. -/
theorem peek_run_ok {state next : State} {token : Token}
    (ran : peek.run state = (.ok token, next)) : ∃ rest, next.ahead = token :: rest := by
  simp only [peek] at ran
  split at ran
  next front rest ahead =>
    obtain ⟨rfl, rfl⟩ : front = token ∧ state = next := by simpa using ran
    exact ⟨rest, ahead⟩
  next ahead => exact ⟨[], by rw [look_run_ok ran, ahead]; rfl⟩

theorem peek_run_error {state next : State} {fault : Fault}
    (ran : peek.run state = (.error fault, next)) : next.remaining < state.remaining := by
  simp only [peek] at ran
  split at ran
  · simp at ran
  · exact look_run_error ran

theorem peek_run_of_ahead {state : State} {token : Token} {rest : List Token}
    (ahead : state.ahead = token :: rest) : peek.run state = (.ok token, state) := by
  simp only [peek, ahead]

/-- Takes the next token. -/
def consume : Reader Token where
  run state :=
    match peek.run state with
    | (.ok token, next) =>
        (.ok token, { next with ahead := next.ahead.tail, last := some token })
    | (.error fault, next) => (.error fault, next)
  reaches state := by
    have looked := peek.reaches state
    split
    next token next same =>
      rw [same] at looked
      obtain ⟨rest, ahead⟩ := peek_run_ok same
      have taken := State.Move.take next token rest ahead
      simp only [ahead, List.tail_cons]
      exact looked.tail taken
    next fault next same =>
      rw [same] at looked
      exact looked

/-- A token other than the end, once taken, is no longer left to read. -/
theorem consume_run_ok {state next : State} {token : Token}
    (ran : consume.run state = (.ok token, next)) (notFinish : token.kind ≠ .finish) :
    next.remaining < state.remaining := by
  simp only [consume] at ran
  split at ran
  next front middle same =>
    simp only [Prod.mk.injEq, Except.ok.injEq] at ran
    obtain ⟨rfl, rfl⟩ := ran
    obtain ⟨rest, ahead⟩ := peek_run_ok same
    simp only [ahead, List.tail_cons]
    exact Nat.lt_of_lt_of_le (State.remaining_take ahead notFinish _) (remaining_le_of_run same)
  next => simp at ran

theorem consume_run_of_ahead {state : State} {token : Token} {rest : List Token}
    (ahead : state.ahead = token :: rest) :
    consume.run state = (.ok token, { state with ahead := rest, last := some token }) := by
  simp only [consume, peek_run_of_ahead ahead, ahead, List.tail_cons]

/-- Whether the next token is of a kind. -/
def check (kind : TokenKind) : Reader Bool := do
  return (← peek).kind = kind

/-- Takes the next token if it is of a kind, and answers whether it was. -/
def eat (kind : TokenKind) : Reader Bool := do
  if ← check kind then
    let _ ← consume
    return true
  else
    return false

/-- Takes the next token, which must be of a kind. -/
def expect (kind : TokenKind) (expectation : Expectation) : Reader Token := do
  let token ← consume
  if token.kind = kind then return token else fail (.expected expectation)

/-- Whether the next two tokens are an identifier and the sign of an attribute. -/
def atAttribute : Reader Bool := do
  if ← check .identifier then
    return (← peekSecond).kind = .equals
  else
    return false

/-- Takes the key of an attribute and the sign behind it, if they come next. -/
def attributeKey? : Reader (Option String) := do
  if ← atAttribute then
    let key ← consume
    let _ ← consume
    return some key.lexeme
  else
    return none

/-- Takes the next token, unless it introduces a directive or ends the source. -/
def insideDirective? : Reader (Option Token) := do
  let token ← peek
  if token.kind = .finish ∨ token.kind = .colon then
    return none
  else
    return some (← consume)

/-- Takes an identifier. -/
def identifier (purpose : Keyword) : Reader Token := do
  let token ← consume
  if token.kind = .identifier then return token
  else fail (.notIdentifier purpose token.lexeme)

/-- Takes a name: an identifier or a quoted text. -/
def name (purpose : Named) : Reader Token := do
  let token ← consume
  if token.kind = .identifier ∨ token.kind = .text then return token
  else fail (.notName purpose token.lexeme)

/-- The region from a token to the one that was taken last. -/
def regionFrom (first : Token) : Reader Region where
  run state := (.ok (first.regionTo (state.last.getD first)), state)
  reaches state := .refl state

/-- Notes the name of a lookup table, and answers whether it is new. -/
def declareTable (name : String) : Reader Bool where
  run state :=
    if name ∈ state.tables then (.ok false, state)
    else (.ok true, { state with tables := name :: state.tables })
  reaches state := by
    split
    · exact .refl state
    · exact (State.Move.declare state name).reaches

/-! ## Loops -/

/-- What a round of a loop answers. -/
inductive Round (α β : Type) where
  /-- Another round follows, with a value for it. -/
  | again (value : α)
  /-- The loop is over, with its result. -/
  | done (result : β)

/-- A round that asks for another one has taken a token. -/
def Progresses (round : Reader (Round α β)) : Prop :=
  ∀ ⦃state next : State⦄ ⦃value : α⦄,
    round.run state = (.ok (.again value), next) → next.remaining < state.remaining

/-- A reader that takes a token whenever it answers. -/
def Takes (reader : Reader α) : Prop :=
  ∀ ⦃state next : State⦄ ⦃value : α⦄,
    reader.run state = (.ok value, next) → next.remaining < state.remaining

theorem progresses_fail (error : SyntaxError) :
    Progresses (fail error : Reader (Round α β)) := by
  intro state next value ran
  simp at ran

theorem Takes.progresses {γ : Type} {reader : Reader γ} (takes : Takes reader)
    (continuation : γ → Reader (Round α β)) : Progresses (reader >>= continuation) := by
  intro state last value ran
  obtain ⟨found, next, first, second⟩ := run_bind_ok ran
  exact Nat.lt_of_le_of_lt (remaining_le_of_run second) (takes first)

theorem progresses_bind {γ : Type} (reader : Reader γ) {continuation : γ → Reader (Round α β)}
    (progress : ∀ found, Progresses (continuation found)) :
    Progresses (reader >>= continuation) := by
  intro state last value ran
  obtain ⟨found, next, first, second⟩ := run_bind_ok ran
  exact Nat.lt_of_lt_of_le (progress found second) (remaining_le_of_run first)

theorem progresses_ite {condition : Prop} [Decidable condition]
    {first second : Reader (Round α β)} (left : Progresses first) (right : Progresses second) :
    Progresses (if condition then first else second) := by
  split
  · exact left
  · exact right

theorem takes_identifier (purpose : Keyword) : Takes (identifier purpose) := by
  intro state last value ran
  obtain ⟨token, next, first, second⟩ := run_bind_ok ran
  split at second
  next isIdentifier =>
    obtain ⟨-, rfl⟩ : token = value ∧ next = last := by simpa using second
    exact consume_run_ok first (by simp [isIdentifier])
  next => simp at second

theorem eat_run_true {kind : TokenKind} {state next : State}
    (ran : (eat kind).run state = (.ok true, next)) (notFinish : kind ≠ .finish) :
    next.remaining < state.remaining := by
  obtain ⟨found, middle, first, second⟩ := run_bind_ok ran
  split at second
  next isKind =>
    obtain ⟨token, looked, peeked, answered⟩ := run_bind_ok first
    obtain ⟨same, rfl⟩ : decide (token.kind = kind) = found ∧ looked = middle := by
      simpa using answered
    obtain ⟨taken, final, consumed, ended⟩ := run_bind_ok second
    obtain rfl : final = next := by simpa using ended
    obtain ⟨rest, ahead⟩ := peek_run_ok peeked
    rw [consume_run_of_ahead ahead] at consumed
    obtain ⟨rfl, rfl⟩ : token = taken ∧ _ = final := by simpa using consumed
    have kindIs : token.kind = kind := by simpa [isKind] using same
    exact Nat.lt_of_lt_of_le (State.remaining_take ahead (by rw [kindIs]; exact notFinish) _)
      (remaining_le_of_run peeked)
  next => simp at second

theorem progresses_eat {kind : TokenKind} (notFinish : kind ≠ .finish)
    (first : Reader (Round α β)) {second : Reader (Round α β)} (progress : Progresses second) :
    Progresses (eat kind >>= fun eaten => if eaten then first else second) := by
  intro state last value ran
  obtain ⟨eaten, next, ate, rest⟩ := run_bind_ok ran
  cases eaten with
  | true => exact Nat.lt_of_le_of_lt (remaining_le_of_run rest) (eat_run_true ate notFinish)
  | false => exact Nat.lt_of_lt_of_le (progress rest) (remaining_le_of_run ate)

/-- The rounds of a loop, from a value and a state on. -/
def rounds (round : α → Reader (Round α β)) (progress : ∀ value, Progresses (round value))
    (value : α) (state : State) : Except Fault β × State :=
  match _ran : (round value).run state with
  | (.ok (.again value), next) => rounds round progress value next
  | (.ok (.done result), next) => (.ok result, next)
  | (.error fault, next) => (.error fault, next)
termination_by state.remaining
decreasing_by exact progress _ _ran

theorem rounds_reaches (round : α → Reader (Round α β))
    (progress : ∀ value, Progresses (round value)) (value : α) (state : State) :
    state.Reaches (rounds round progress value state).2 := by
  fun_induction rounds round progress value state with
  | case1 value state found next ran ih =>
      have first := (round value).reaches state
      rw [ran] at first
      exact first.trans ih
  | case2 value state result next ran =>
      have first := (round value).reaches state
      rw [ran] at first
      exact first
  | case3 value state fault next ran =>
      have first := (round value).reaches state
      rw [ran] at first
      exact first

/-- The reader that repeats a round until it answers that the loop is over. -/
def loop (round : α → Reader (Round α β)) (progress : ∀ value, Progresses (round value))
    (value : α) : Reader β where
  run := rounds round progress value
  reaches := rounds_reaches round progress value

end Reader
end InstructionSet.Grammar
