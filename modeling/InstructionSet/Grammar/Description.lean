import InstructionSet.Grammar.Directive

/-!
# Reading a description

A description is read directive by directive. A directive that is at fault yields an issue instead,
at the token where reading stopped, and reading goes on at the next colon; faults of spelling on
the way there are passed over. A description without issues is the document of its directives.
-/

namespace InstructionSet.Grammar

open InstructionSet.Text InstructionSet.Scanner

set_option autoImplicit false

/-! ## Going on behind a fault -/

/-- Whether a token introduces a directive or ends the source. -/
def isBoundary (token : Token) : Bool :=
  token.kind = .colon || token.kind = .finish

namespace State

/-- Passes tokens that were looked at, up to a boundary: the token passed last, and the tokens from
the boundary on. -/
def passAhead : (last : Option Token) → List Token → Option Token × List Token
  | last, [] => (last, [])
  | last, token :: rest =>
      if isBoundary token then (last, token :: rest) else passAhead (some token) rest

/-- Passes tokens and faults up to a boundary: the token passed last, and the boundary with what is
behind it, unless the source ends before. -/
def passPending : (last : Option Token) → List Scanned →
    Option Token × Option (Token × List Scanned)
  | last, [] => (last, none)
  | last, .fault _ :: rest => passPending last rest
  | last, .token token :: rest =>
      if isBoundary token then (last, some (token, rest)) else passPending (some token) rest

/-- The state in which the next boundary has been looked at. -/
def synchronize (state : State) : State :=
  match passAhead state.last state.ahead with
  | (last, token :: rest) => { state with ahead := token :: rest, last := last }
  | (last, []) =>
      match passPending last state.pending with
      | (last, some (token, rest)) =>
          { state with ahead := [token], pending := rest, last := last }
      | (last, none) =>
          { state with ahead := [.finish state.finish], pending := [], last := last }

theorem passAhead_length (last : Option Token) (tokens : List Token) :
    ((passAhead last tokens).2.filter (·.kind ≠ .finish)).length ≤
      (tokens.filter (·.kind ≠ .finish)).length := by
  induction tokens generalizing last with
  | nil => exact Nat.le_refl _
  | cons token rest ih =>
      simp only [passAhead]
      split
      · exact Nat.le_refl _
      · refine Nat.le_trans (ih _) ?_
        exact (List.sublist_cons_self token rest).filter _ |>.length_le

theorem passPending_length {last found : Option Token} {entries rest : List Scanned}
    {token : Token} (passed : passPending last entries = (found, some (token, rest))) :
    rest.length < entries.length := by
  induction entries generalizing last with
  | nil => simp [passPending] at passed
  | cons entry later ih =>
      cases entry with
      | fault fault => exact Nat.lt_succ_of_lt (ih passed)
      | token front =>
          simp only [passPending] at passed
          split at passed
          · obtain ⟨-, -, rfl⟩ : last = found ∧ front = token ∧ later = rest := by
              simpa using passed
            exact Nat.lt_succ_self _
          · exact Nat.lt_succ_of_lt (ih passed)

theorem synchronize_remaining_le (state : State) :
    state.synchronize.remaining ≤ state.remaining := by
  have bound := passAhead_length state.last state.ahead
  unfold synchronize
  split
  next last token rest passed =>
    rw [passed] at bound
    exact Nat.add_le_add_right bound _
  next last passed =>
    split
    next token rest found =>
      have shorter := passPending_length found
      have single := List.length_filter_le (fun t : Token => decide (t.kind ≠ .finish)) [token]
      simp only [List.length_singleton] at single
      simp only [remaining]
      omega
    next => simp [remaining, Token.finish]

/-- The region that an issue in a state is reported at: the next token if it was looked at, and
otherwise the token that was taken last. -/
def region? (state : State) : Option Region :=
  (state.ahead.head? <|> state.last).map (·.region)

end State

/-! ## The directives of a source -/

/-- What reading one directive comes to. -/
abbrev Outcome := Except Issue Directive

theorem directive_remaining_lt {state next : State} {token : Token}
    (peeked : Reader.peek.run state = (.ok token, next)) (notFinish : token.kind ≠ .finish) :
    (Reader.directive.run next).2.remaining < state.remaining := by
  obtain ⟨rest, ahead⟩ := Reader.peek_run_ok peeked
  have read : (Reader.directive.run next).2.remaining ≤
      (Reader.consume.run next).2.remaining :=
    Nat.le_trans (Reader.remaining_bind_le _ _ next) (Reader.remaining_bind_le _ _ next)
  rw [Reader.consume_run_of_ahead ahead] at read
  exact Nat.lt_of_le_of_lt read
    (Nat.lt_of_lt_of_le (State.remaining_take ahead notFinish _)
      (Reader.remaining_le_of_run peeked))

/-- What the directives of a source come to, in order. -/
def outcomes (state : State) : List Outcome :=
  match _peeked : Reader.peek.run state with
  | (.error fault, next) => .error ⟨fault, next.region?⟩ :: outcomes next.synchronize
  | (.ok token, next) =>
      if _atEnd : token.kind = .finish then []
      else
        match _read : Reader.directive.run next with
        | (.ok directive, last) => .ok directive :: outcomes last
        | (.error fault, last) => .error ⟨fault, last.region?⟩ :: outcomes last.synchronize
termination_by state.remaining
decreasing_by
  · exact Nat.lt_of_le_of_lt next.synchronize_remaining_le (Reader.peek_run_error _peeked)
  · have shorter := directive_remaining_lt _peeked _atEnd
    rwa [_read] at shorter
  · have shorter := directive_remaining_lt _peeked _atEnd
    rw [_read] at shorter
    exact Nat.lt_of_le_of_lt last.synchronize_remaining_le shorter

/-- The directives among outcomes. -/
def directivesOf (outcomes : List Outcome) : List Directive :=
  outcomes.filterMap (·.toOption)

/-- The issues among outcomes. -/
def issuesOf (outcomes : List Outcome) : List Issue :=
  outcomes.filterMap fun
    | .ok _ => none
    | .error issue => some issue

/-- The document that a scanned source is, or the diagnostics of all its issues. -/
def document (path : String) (stream : Stream) : Except Failure Document :=
  let outcomes := outcomes (.start stream)
  Phase.parser.accept ⟨path, directivesOf outcomes⟩
    ((issuesOf outcomes).map (·.diagnostic path))

end InstructionSet.Grammar

namespace InstructionSet.Document

set_option autoImplicit false

/-- The document that a source text is; the path only labels diagnostics. -/
def parse (path source : String) : Except Failure Document :=
  Grammar.document path (Scanner.scan source)

end InstructionSet.Document
