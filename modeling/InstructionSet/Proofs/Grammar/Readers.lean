import InstructionSet.Proofs.Grammar.Phrases
import InstructionSet.Proofs.Grammar.Upcoming

/-!
# What the small readers answer

Each of the readers that look at one or two tokens, or take them, is described twice: what follows
from its answer, and what it answers in front of given tokens. The readers of whole constructs are
composed of these, and nothing below looks into a state again.
-/

namespace InstructionSet.Grammar

open InstructionSet.Text InstructionSet.Scanner

set_option autoImplicit false

/-- The kind of the token in front of others, or that of the end. -/
def frontKind : List Token → TokenKind
  | [] => .finish
  | token :: _ => token.kind

/-- Whether tokens start with the key and the sign of an attribute. -/
def startsAttribute : List Token → Bool
  | key :: sign :: _ => key.kind = .identifier && sign.kind = .equals
  | _ => false

theorem startsAttribute_eq_false {tokens : List Token} (other : frontKind tokens ≠ .identifier) :
    startsAttribute tokens = false := by
  cases tokens with
  | nil => rfl
  | cons key rest =>
      cases rest with
      | nil => rfl
      | cons sign later =>
          have notIdentifier : key.kind ≠ .identifier := other
          simp [startsAttribute, notIdentifier]

namespace Reader

variable {α β : Type} {state next : State} {tokens : List Token}

/-- In a state, a reader answers a value and passes tokens. -/
def Answers (reader : Reader α) (state : State) (tokens : List Token) (value : α) : Prop :=
  ∃ next, reader.run state = (.ok value, next) ∧ state.Passes tokens next

theorem Answers.bind {reader : Reader α} {continuation : α → Reader β} {found : α} {value : β}
    {more : List Token} (first : reader.Answers state tokens found)
    (behind : ∀ {next}, state.Passes tokens next → (continuation found).Answers next more value) :
    (reader >>= continuation).Answers state (tokens ++ more) value := by
  obtain ⟨middle, ran, passes⟩ := first
  obtain ⟨last, ranBehind, passesBehind⟩ := behind passes
  exact ⟨last, (run_bind_of_ok ran).trans ranBehind, passes.trans passesBehind⟩

/-- A reader that goes on with a computation takes no further tokens. -/
theorem Answers.compute {reader : Reader α} {continuation : α → Reader β} {found : α} {value : β}
    (first : reader.Answers state tokens found)
    (computed : ∀ {next}, state.Passes tokens next →
      (continuation found).run next = (.ok value, next)) :
    (reader >>= continuation).Answers state tokens value := by
  obtain ⟨next, ran, passes⟩ := first
  exact ⟨next, (run_bind_of_ok ran).trans (computed passes), passes⟩

theorem Answers.map {reader : Reader α} {found : α} (first : reader.Answers state tokens found)
    (f : α → β) : (f <$> reader).Answers state tokens (f found) :=
  first.compute fun _ => rfl

theorem Answers.whole {reader : Reader α} {value : α}
    (answers : reader.Answers state (tokens ++ []) value) :
    reader.Answers state tokens value := by
  rwa [List.append_nil] at answers

/-! ## Looking at one token -/

theorem front_of_peek (orderly : state.Orderly) {token : Token}
    (ran : peek.run state = (.ok token, next)) :
    state.Passes [] next ∧ State.frontOf state.finish state.upcoming = .ok token := by
  obtain ⟨found, looked, passes⟩ := peek_run orderly
  rw [looked] at ran
  obtain ⟨front, rfl⟩ := Prod.mk.inj ran
  exact ⟨passes token front, front⟩

theorem peek_run_of_holds (holds : state.Holds tokens) :
    ∃ token next, peek.run state = (.ok token, next) ∧ state.Passes [] next ∧
      token.kind = frontKind tokens ∧ (∀ first rest, tokens = first :: rest → token = first) := by
  obtain ⟨next, ran, passes⟩ := peek_run holds.orderly
  rw [holds.upcoming] at ran passes
  cases tokens with
  | nil => exact ⟨_, next, ran, passes _ rfl, rfl, fun _ _ empty => by cases empty⟩
  | cons token rest =>
      refine ⟨token, next, ran, passes token rfl, rfl, fun first later same => ?_⟩
      exact (List.cons.inj same).1

theorem upcoming_of_front {token : Token} (inside : token.kind ≠ .finish)
    (front : State.frontOf state.finish state.upcoming = .ok token) :
    ∃ rest, state.upcoming = .token token :: rest := by
  unfold State.frontOf at front
  split at front
  next => exact absurd (by rw [← Except.ok.inj front]; rfl) inside
  next found rest upcoming => exact ⟨rest, by rw [upcoming, Except.ok.inj front]⟩
  next => cases front

theorem front_of_check (orderly : state.Orderly) {kind : TokenKind} {found : Bool}
    (ran : (check kind).run state = (.ok found, next)) :
    state.Passes [] next ∧ ∃ token, State.frontOf state.finish state.upcoming = .ok token ∧
      found = decide (token.kind = kind) := by
  obtain ⟨token, middle, looked, answered⟩ := run_bind_ok ran
  obtain ⟨passes, front⟩ := front_of_peek orderly looked
  obtain ⟨rfl, rfl⟩ : decide (token.kind = kind) = found ∧ middle = next := by
    simpa using answered
  exact ⟨passes, token, front, rfl⟩

theorem check_run (holds : state.Holds tokens) (kind : TokenKind) :
    (check kind).Answers state [] (decide (frontKind tokens = kind)) := by
  obtain ⟨token, next, ran, passes, same, -⟩ := peek_run_of_holds holds
  refine ⟨next, ?_, passes⟩
  rw [check, run_bind_of_ok ran, run_pure, same]

/-- What was checked to be in front of a reader is what it takes. -/
theorem consume_after_check (orderly : state.Orderly) {kind : TokenKind}
    (checked : (check kind).run state = (.ok true, next)) (inside : kind ≠ .finish)
    {last : State} {token : Token} (ran : consume.run next = (.ok token, last)) :
    token.kind = kind ∧ state.Passes [token] last := by
  obtain ⟨passes, front, same, isKind⟩ := front_of_check orderly checked
  have frontKind : front.kind = kind := of_decide_eq_true isKind.symm
  have notFinish : front.kind ≠ .finish := frontKind ▸ inside
  obtain ⟨rest, upcoming⟩ := upcoming_of_front notFinish same
  have still : next.upcoming = .token front :: rest := passes.upcoming.symm.trans upcoming
  obtain ⟨final, taken, takes⟩ := consume_run passes.orderly still
  rw [taken] at ran
  cases ran
  exact ⟨frontKind, passes.trans takes⟩

/-! ## Taking one token -/

theorem consume_run_of_holds {token : Token} (holds : state.Holds (token :: tokens)) :
    consume.Answers state [token] token :=
  consume_run holds.orderly holds.upcoming

theorem passes_of_eat (orderly : state.Orderly) {kind : TokenKind} (inside : kind ≠ .finish)
    {eaten : Bool} (ran : (eat kind).run state = (.ok eaten, next)) :
    (eaten = true ∧ ∃ token, token.kind = kind ∧ state.Passes [token] next) ∨
      (eaten = false ∧ state.Passes [] next) := by
  obtain ⟨found, middle, checked, rest⟩ := run_bind_ok ran
  cases found with
  | true =>
      obtain ⟨token, last, consumed, ended⟩ := run_bind_ok rest
      obtain ⟨rfl, rfl⟩ : true = eaten ∧ last = next := by simpa using ended
      obtain ⟨isKind, passes⟩ := consume_after_check orderly checked inside consumed
      exact .inl ⟨rfl, token, isKind, passes⟩
  | false =>
      obtain ⟨rfl, rfl⟩ : false = eaten ∧ middle = next := by simpa using rest
      exact .inr ⟨rfl, (front_of_check orderly checked).1⟩

theorem eat_run {token : Token} (holds : state.Holds (token :: tokens)) :
    (eat token.kind).Answers state [token] true := by
  obtain ⟨middle, checked, looked⟩ := check_run holds token.kind
  obtain ⟨last, consumed, passes⟩ := consume_run_of_holds (holds.of_passes_nil looked)
  refine ⟨last, ?_, looked.trans passes⟩
  rw [eat, run_bind_of_ok checked]
  simp only [frontKind, decide_true, if_true]
  rw [run_bind_of_ok consumed, run_pure]

theorem eat_run_other (holds : state.Holds tokens) {kind : TokenKind}
    (other : frontKind tokens ≠ kind) :
    (eat kind).Answers state [] false := by
  obtain ⟨next, checked, passes⟩ := check_run holds kind
  refine ⟨next, ?_, passes⟩
  rw [eat, run_bind_of_ok checked, decide_eq_false other]
  rfl

/-- A reader that takes one token and refuses tokens that are not fit. -/
theorem passes_of_consume_if (fit : Token → Prop) [DecidablePred fit]
    {fault : Token → SyntaxError} (orderly : state.Orderly)
    (inside : ∀ token, fit token → token.kind ≠ .finish) {token : Token}
    (ran :
      (consume >>= fun found => if fit found then pure found else fail (fault found)).run state =
      (.ok token, next)) : fit token ∧ state.Passes [token] next := by
  obtain ⟨found, middle, consumed, rest⟩ := run_bind_ok ran
  split at rest
  next isFit =>
    obtain ⟨rfl, rfl⟩ : found = token ∧ middle = next := by simpa using rest
    exact ⟨isFit, passes_of_consume orderly consumed (inside found isFit)⟩
  next => simp at rest

theorem consume_if_run (fit : Token → Prop) [DecidablePred fit] {fault : Token → SyntaxError}
    {token : Token} (holds : state.Holds (token :: tokens)) (isFit : fit token) :
    (consume >>= fun found => if fit found then pure found else fail (fault found)).Answers state
      [token] token := by
  obtain ⟨next, consumed, passes⟩ := consume_run_of_holds holds
  refine ⟨next, ?_, passes⟩
  rw [run_bind_of_ok consumed, if_pos isFit, run_pure]

theorem notFinish_of_isName {token : Token} (named : isName token) : token.kind ≠ .finish := by
  rcases named with identifier | text
  · simp [identifier]
  · simp [text]

theorem passes_of_expect (orderly : state.Orderly) {kind : TokenKind} (inside : kind ≠ .finish)
    {expectation : Expectation} {token : Token}
    (ran : (expect kind expectation).run state = (.ok token, next)) :
    token.kind = kind ∧ state.Passes [token] next :=
  passes_of_consume_if (·.kind = kind) orderly (fun _ same => same ▸ inside) ran

theorem expect_run {token : Token} (holds : state.Holds (token :: tokens)) {kind : TokenKind}
    (same : token.kind = kind) (expectation : Expectation) :
    (expect kind expectation).Answers state [token] token :=
  consume_if_run (·.kind = kind) holds same

theorem passes_of_identifier (orderly : state.Orderly) {purpose : Keyword} {token : Token}
    (ran : (identifier purpose).run state = (.ok token, next)) :
    token.kind = .identifier ∧ state.Passes [token] next :=
  passes_of_consume_if (·.kind = .identifier) orderly
    (fun _ same => by simp [same]) ran

theorem identifier_run {token : Token} (holds : state.Holds (token :: tokens))
    (same : token.kind = .identifier) (purpose : Keyword) :
    (identifier purpose).Answers state [token] token :=
  consume_if_run (·.kind = .identifier) holds same

theorem passes_of_name (orderly : state.Orderly) {purpose : Named} {token : Token}
    (ran : (name purpose).run state = (.ok token, next)) :
    isName token ∧ state.Passes [token] next :=
  passes_of_consume_if (fun found => found.kind = .identifier ∨ found.kind = .text) orderly
    (fun _ named => notFinish_of_isName named) ran

theorem name_run {token : Token} (holds : state.Holds (token :: tokens)) (named : isName token)
    (purpose : Named) :
    (name purpose).Answers state [token] token :=
  consume_if_run (fun found => found.kind = .identifier ∨ found.kind = .text) holds named

/-! ## Attributes -/

theorem passes_of_atAttribute (orderly : state.Orderly) {found : Bool}
    (ran : atAttribute.run state = (.ok found, next)) :
    state.Passes [] next ∧ (found = true → ∃ key sign rest,
      key.kind = .identifier ∧ sign.kind = .equals ∧
        state.upcoming = .token key :: .token sign :: rest) := by
  obtain ⟨isIdentifier, middle, checked, behind⟩ := run_bind_ok ran
  obtain ⟨looked, key, front, same⟩ := front_of_check orderly checked
  cases isIdentifier with
  | false =>
      obtain ⟨rfl, rfl⟩ : false = found ∧ middle = next := by simpa using behind
      exact ⟨looked, fun impossible => by cases impossible⟩
  | true =>
      have keyKind : key.kind = .identifier := of_decide_eq_true same.symm
      obtain ⟨rest, upcoming⟩ := upcoming_of_front (by simp [keyKind]) front
      have still : middle.upcoming = .token key :: rest := looked.upcoming.symm.trans upcoming
      obtain ⟨second, last, seen, ended⟩ := run_bind_ok behind
      obtain ⟨rfl, rfl⟩ : decide (second.kind = .equals) = found ∧ last = next := by
        simpa using ended
      obtain ⟨final, looks, keeps⟩ := peekSecond_run looked.orderly still
      rw [looks] at seen
      obtain ⟨behindFront, rfl⟩ := Prod.mk.inj seen
      refine ⟨looked.trans (keeps second behindFront), fun isSign => ?_⟩
      have signKind : second.kind = .equals := of_decide_eq_true isSign
      cases rest with
      | nil =>
          obtain rfl := Except.ok.inj behindFront
          cases signKind
      | cons front later =>
          cases front with
          | token sign =>
              obtain rfl := Except.ok.inj behindFront
              exact ⟨key, sign, later, keyKind, signKind, upcoming⟩
          | fault fault => cases behindFront

theorem atAttribute_run (holds : state.Holds tokens) :
    atAttribute.Answers state [] (startsAttribute tokens) := by
  obtain ⟨middle, checked, looked⟩ := check_run holds .identifier
  have still := holds.of_passes_nil looked
  by_cases identifier : frontKind tokens = .identifier
  · cases tokens with
    | nil => cases identifier
    | cons key rest =>
        obtain ⟨last, seen, keeps⟩ := peekSecond_run looked.orderly still.upcoming
        cases rest with
        | nil =>
            refine ⟨last, ?_, looked.trans (keeps _ rfl)⟩
            rw [atAttribute, run_bind_of_ok checked, decide_eq_true identifier, if_pos rfl]
            exact run_bind_of_ok seen
        | cons sign later =>
            refine ⟨last, ?_, looked.trans (keeps _ rfl)⟩
            rw [atAttribute, run_bind_of_ok checked, decide_eq_true identifier, if_pos rfl]
            have isIdentifier : key.kind = .identifier := identifier
            simp only [startsAttribute, isIdentifier, decide_true, Bool.true_and]
            exact run_bind_of_ok seen
  · refine ⟨middle, ?_, looked⟩
    rw [atAttribute, run_bind_of_ok checked, decide_eq_false identifier]
    rw [startsAttribute_eq_false identifier]
    rfl

theorem passes_of_attributeKey? (orderly : state.Orderly) {found : Option String}
    (ran : attributeKey?.run state = (.ok found, next)) :
    (found = none ∧ state.Passes [] next) ∨
      ∃ key sign, found = some key.lexeme ∧ key.kind = .identifier ∧ sign.kind = .equals ∧
        state.Passes [key, sign] next := by
  obtain ⟨isAttribute, middle, looked, rest⟩ := run_bind_ok ran
  obtain ⟨passes, front⟩ := passes_of_atAttribute orderly looked
  cases isAttribute with
  | false =>
      obtain ⟨rfl, rfl⟩ : none = found ∧ middle = next := by simpa using rest
      exact .inl ⟨rfl, passes⟩
  | true =>
      obtain ⟨key, sign, later, keyKind, signKind, upcoming⟩ := front rfl
      obtain ⟨first, afterKey, ranFirst, rest⟩ := run_bind_ok rest
      obtain ⟨second, afterSign, ranSecond, ended⟩ := run_bind_ok rest
      have still : middle.upcoming = .token key :: .token sign :: later :=
        passes.upcoming.symm.trans upcoming
      obtain ⟨behindKey, takesKey, passesKey⟩ := consume_run passes.orderly still
      rw [takesKey] at ranFirst
      cases ranFirst
      have behind : afterKey.upcoming = .token sign :: later :=
        (List.cons.inj (passesKey.upcoming.symm.trans still)).2
      obtain ⟨behindSign, takesSign, passesSign⟩ := consume_run passesKey.orderly behind
      rw [takesSign] at ranSecond
      cases ranSecond
      obtain ⟨rfl, rfl⟩ : some key.lexeme = found ∧ afterSign = next := by simpa using ended
      exact .inr ⟨key, sign, rfl, keyKind, signKind, (passes.trans passesKey).trans passesSign⟩

theorem attributeKey?_run_none (holds : state.Holds tokens)
    (other : startsAttribute tokens = false) :
    attributeKey?.Answers state [] none := by
  obtain ⟨next, looked, passes⟩ := atAttribute_run holds
  refine ⟨next, ?_, passes⟩
  rw [attributeKey?, run_bind_of_ok looked, other]
  rfl

theorem attributeKey?_run {key sign : Token} (holds : state.Holds (key :: sign :: tokens))
    (keyKind : key.kind = .identifier) (signKind : sign.kind = .equals) :
    attributeKey?.Answers state [key, sign] (some key.lexeme) := by
  obtain ⟨middle, looked, passes⟩ := atAttribute_run holds
  have atFront : startsAttribute (key :: sign :: tokens) = true := by
    simp [startsAttribute, keyKind, signKind]
  obtain ⟨afterKey, takesKey, passesKey⟩ := consume_run_of_holds (holds.of_passes_nil passes)
  obtain ⟨afterSign, takesSign, passesSign⟩ :=
    consume_run_of_holds (passesKey.holds (holds.of_passes_nil passes))
  refine ⟨afterSign, ?_, (passes.trans passesKey).trans passesSign⟩
  rw [attributeKey?, run_bind_of_ok looked, atFront, if_pos rfl, run_bind_of_ok takesKey,
    run_bind_of_ok takesSign, run_pure]

/-! ## Loops -/

/-- What a loop does behind a round. -/
def Round.goOn (behind : α → Reader β) : Round α β → Reader β
  | .again value => behind value
  | .done result => pure result

theorem loop_run (round : α → Reader (Round α β)) (progress : ∀ value, Progresses (round value))
    (value : α) (state : State) : (loop round progress value).run state =
      (round value >>= Round.goOn (loop round progress)).run state := by
  rw [run_bind]
  change rounds round progress value state = _
  rw [rounds]
  split
  next ran => rw [ran]; rfl
  next ran => rw [ran]; rfl
  next ran => rw [ran]

/-- What every round adds to the rounds behind it holds of all rounds together. -/
theorem rounds_induct {round : α → Reader (Round α β)}
    {progress : ∀ value, Progresses (round value)} {motive : α → State → β → State → Prop}
    (done : ∀ value state result last,
      (round value).run state = (.ok (.done result), last) → motive value state result last)
    (again : ∀ value state more middle result last,
      (round value).run state = (.ok (.again more), middle) → motive more middle result last →
        motive value state result last)
    {value : α} {state last : State} {result : β}
    (ran : (loop round progress value).run state = (.ok result, last)) :
    motive value state result last := by
  change rounds round progress value state = _ at ran
  fun_induction rounds round progress value state with
  | case1 value state more middle once ih => exact again _ _ _ _ _ _ once (ih ran)
  | case2 value state found middle once =>
      cases ran
      exact done _ _ _ _ once
  | case3 value state fault middle once => cases ran

theorem Answers.again {round : α → Reader (Round α β)}
    (progress : ∀ value, Progresses (round value)) {value found : α} {result : β}
    {more : List Token} (once : (round value).Answers state tokens (.again found))
    (behind : ∀ {next}, state.Passes tokens next →
      (loop round progress found).Answers next more result) :
    (loop round progress value).Answers state (tokens ++ more) result := by
  obtain ⟨middle, ran, passes⟩ := once
  obtain ⟨last, ranBehind, passesBehind⟩ := behind passes
  refine ⟨last, ?_, passes.trans passesBehind⟩
  rw [loop_run, run_bind_of_ok ran]
  exact ranBehind

theorem Answers.done {round : α → Reader (Round α β)}
    {progress : ∀ value, Progresses (round value)} {value : α} {result : β}
    (once : (round value).Answers state tokens (.done result)) :
    (loop round progress value).Answers state tokens result := by
  obtain ⟨last, ran, passes⟩ := once
  refine ⟨last, ?_, passes⟩
  rw [loop_run, run_bind_of_ok ran]
  rfl

end Reader
end InstructionSet.Grammar
