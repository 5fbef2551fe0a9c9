import InstructionSet.Proofs.Grammar.Upcoming
import InstructionSet.Proofs.Token.Requests

/-!
# Reading comes to an end

What a reader does is counted in rounds. Every round but the last one of a loop leaves less to read
(`State.remaining`: the scanned tokens and faults that were not taken, whether they were looked at
or not), so a loop ends after at most one round more than there was left (`Reader.exists_repeats`).
The same holds of going on behind a fault, which passes over faults of spelling as often as they are
raised (`State.exists_resumes`).

A description is read directive by directive, and each of them leaves less to read too. Its rounds
and those of going on behind faults are together at most twice as many as there was to read, and one
more (`exists_reads`). A source of so many characters has at most that many tokens and faults, which
bounds all of these by its length (`Document.terminates`).
-/

namespace InstructionSet.Grammar

open InstructionSet.Text InstructionSet.Scanner

set_option autoImplicit false

/-! ## Loops -/

namespace Reader

variable {α β : Type} {round : α → Reader (Round α β)}

/-- The rounds of a loop from a value and a state on, one after the other and counted, up to the
round that ends the loop. -/
inductive Repeats (round : α → Reader (Round α β)) :
    (count : Nat) → (value : α) → (state : State) → (outcome : Except Fault β × State) → Prop where
  /-- A round answers that the loop is over. -/
  | done {value : α} {state last : State} {result : β}
      (ran : (round value).run state = (.ok (.done result), last)) :
      Repeats round 1 value state (.ok result, last)
  /-- A round ends in a fault, and the loop with it. -/
  | fault {value : α} {state last : State} {fault : Fault}
      (ran : (round value).run state = (.error fault, last)) :
      Repeats round 1 value state (.error fault, last)
  /-- A round asks for another one. -/
  | again {count : Nat} {value found : α} {state next : State} {outcome : Except Fault β × State}
      (ran : (round value).run state = (.ok (.again found), next))
      (others : Repeats round count found next outcome) :
      Repeats round (count + 1) value state outcome

/-- A loop ends, after at most one round more than there is left to read. -/
theorem exists_repeats (progress : ∀ value, Progresses (round value)) (value : α) (state : State) :
    ∃ count ≤ state.remaining + 1,
      Repeats round count value state ((loop round progress value).run state) := by
  change ∃ count ≤ _, Repeats round count value state (rounds round progress value state)
  fun_induction rounds round progress value state with
  | case1 value state found next ran ih =>
      obtain ⟨count, bound, others⟩ := ih
      have shorter := progress value ran
      exact ⟨count + 1, by omega, .again ran others⟩
  | case2 value state result last ran => exact ⟨1, by omega, .done ran⟩
  | case3 value state fault last ran => exact ⟨1, by omega, .fault ran⟩

end Reader

/-! ## Going on behind a fault -/

namespace State

/-- The rounds of going on behind a fault, counted: the next token is looked at, again if a fault of
spelling is raised instead, and taken unless it is a boundary. -/
inductive Resumes : (count : Nat) → (state last : State) → Prop where
  /-- The next token is a boundary and stays. -/
  | boundary {state last : State} {token : Token}
      (looked : Reader.peek.run state = (.ok token, last)) (reached : isBoundary token = true) :
      Resumes 1 state last
  /-- The next token is none and is taken. -/
  | pass {count : Nat} {state next after last : State} {token : Token}
      (looked : Reader.peek.run state = (.ok token, next)) (inside : isBoundary token = false)
      (taken : Reader.consume.run next = (.ok token, after)) (others : Resumes count after last) :
      Resumes (count + 1) state last
  /-- A fault of spelling is raised and dropped. -/
  | retry {count : Nat} {state next last : State} {fault : Fault}
      (raised : Reader.peek.run state = (.error fault, next)) (others : Resumes count next last) :
      Resumes (count + 1) state last

/-- Whether the next token was looked at before does not matter to going on. -/
theorem synchronize_peek (state : State) :
    (Reader.peek.run state).2.synchronize = state.synchronize := by
  obtain ⟨ahead, pending, finish, last, tables⟩ := state
  cases ahead with
  | cons token rest => rfl
  | nil =>
      cases pending with
      | nil => rfl
      | cons entry rest =>
          cases entry with
          | fault fault => rfl
          | token token =>
              by_cases reached : isBoundary token = true
              · simp [Reader.peek, Reader.look, synchronize, passAhead, passPending, reached]
              · simp [Reader.peek, Reader.look, synchronize, passAhead, passPending, reached]

theorem synchronize_of_boundary {state : State} {token : Token} {rest : List Token}
    (ahead : state.ahead = token :: rest) (reached : isBoundary token = true) :
    state.synchronize = state := by
  simp only [synchronize, ahead, passAhead, reached, if_true]
  rw [← ahead]

theorem synchronize_of_inside {state : State} {token : Token} {rest : List Token}
    (ahead : state.ahead = token :: rest) (inside : isBoundary token = false) :
    state.synchronize = synchronize { state with ahead := rest, last := some token } := by
  simp [synchronize, ahead, passAhead, inside]

/-- Going on behind a fault ends, after at most one round more than it leaves less to read. -/
theorem exists_resumes (state : State) : ∃ count,
    count + state.synchronize.remaining ≤ state.remaining + 1 ∧
      state.Resumes count state.synchronize := by
  induction bound : state.remaining using Nat.strongRecOn generalizing state with
  | ind remaining ih =>
      cases looked : Reader.peek.run state with
      | mk result next =>
          have same : next.synchronize = state.synchronize := by
            rw [← state.synchronize_peek, looked]
          have notMore := Reader.remaining_le_of_run looked
          cases result with
          | error fault =>
              have shorter := Reader.peek_run_error looked
              obtain ⟨count, rounds, others⟩ := ih _ (bound ▸ shorter) next rfl
              rw [← same]
              exact ⟨count + 1, by omega, .retry looked others⟩
          | ok token =>
              obtain ⟨rest, ahead⟩ := Reader.peek_run_ok looked
              rw [← same]
              by_cases reached : isBoundary token = true
              · rw [synchronize_of_boundary ahead reached]
                exact ⟨1, by omega, .boundary looked reached⟩
              · have inside : isBoundary token = false := Bool.eq_false_iff.2 reached
                have notFinish : token.kind ≠ .finish := by
                  intro atEnd
                  simp [isBoundary, atEnd] at inside
                have taken := Reader.consume_run_of_ahead ahead
                have shorter := remaining_take ahead notFinish (some token)
                rw [synchronize_of_inside ahead inside]
                obtain ⟨count, rounds, others⟩ :=
                  ih _ (bound ▸ Nat.lt_of_lt_of_le shorter notMore) _ rfl
                exact ⟨count + 1, by omega, .pass looked inside taken others⟩

end State

/-! ## The directives of a source -/

/-- The rounds of reading the directives of a source, counted together with those of going on behind
faults, and what they come to. -/
inductive Reads : (count : Nat) → (state : State) → (found : List Outcome) → Prop where
  /-- The end of the source comes next. -/
  | finish {state next : State} {token : Token}
      (looked : Reader.peek.run state = (.ok token, next)) (atEnd : token.kind = .finish) :
      Reads 1 state []
  /-- A fault of spelling is raised in front of the next directive. -/
  | misspelled {count skipping : Nat} {state next resumed : State} {fault : Fault}
      {found : List Outcome} (raised : Reader.peek.run state = (.error fault, next))
      (resumes : next.Resumes skipping resumed) (others : Reads count resumed found) :
      Reads (1 + skipping + count) state (.error ⟨fault, next.region?⟩ :: found)
  /-- A directive is read. -/
  | directive {count : Nat} {state next last : State} {token : Token} {directive : Directive}
      {found : List Outcome} (looked : Reader.peek.run state = (.ok token, next))
      (more : token.kind ≠ .finish) (read : Reader.directive.run next = (.ok directive, last))
      (others : Reads count last found) :
      Reads (1 + count) state (.ok directive :: found)
  /-- A directive is at fault. -/
  | faulty {count skipping : Nat} {state next last resumed : State} {token : Token} {fault : Fault}
      {found : List Outcome} (looked : Reader.peek.run state = (.ok token, next))
      (more : token.kind ≠ .finish) (read : Reader.directive.run next = (.error fault, last))
      (resumes : last.Resumes skipping resumed) (others : Reads count resumed found) :
      Reads (1 + skipping + count) state (.error ⟨fault, last.region?⟩ :: found)

theorem remaining_lt_of_directive {state next last : State} {token : Token}
    {outcome : Except Fault Directive} (looked : Reader.peek.run state = (.ok token, next))
    (more : token.kind ≠ .finish) (read : Reader.directive.run next = (outcome, last)) :
    last.remaining < state.remaining := by
  have shorter := directive_remaining_lt looked more
  rwa [read] at shorter

/-- Reading the directives of a source ends, after at most twice as many rounds as there was to read
and one more. -/
theorem exists_reads (state : State) :
    ∃ count ≤ 2 * state.remaining + 1, Reads count state (outcomes state) := by
  fun_induction outcomes state with
  | case1 state fault next looked ih =>
      obtain ⟨count, rounds, others⟩ := ih
      obtain ⟨skipping, skipped, resumes⟩ := next.exists_resumes
      have notMore := next.synchronize_remaining_le
      have shorter := Reader.peek_run_error looked
      exact ⟨1 + skipping + count, by omega, .misspelled looked resumes others⟩
  | case2 state token next looked atEnd => exact ⟨1, by omega, .finish looked atEnd⟩
  | case3 state token next looked more directive last read ih =>
      obtain ⟨count, rounds, others⟩ := ih
      have shorter := remaining_lt_of_directive looked more read
      exact ⟨1 + count, by omega, .directive looked more read others⟩
  | case4 state token next looked more fault last read ih =>
      obtain ⟨count, rounds, others⟩ := ih
      obtain ⟨skipping, skipped, resumes⟩ := last.exists_resumes
      have notMore := last.synchronize_remaining_le
      have shorter := remaining_lt_of_directive looked more read
      exact ⟨1 + skipping + count, by omega, .faulty looked more read resumes others⟩

/-! ## Sources -/

theorem entries_scan_length_le (source : String) :
    (scan source).entries.length ≤ source.length := by
  rw [← String.length_toList]
  exact Tail.entries_length_le ⟨.origin, source.toList⟩

theorem remaining_of_reaches {source : String} {state : State}
    (moves : (State.start (scan source)).Reaches state) : state.remaining ≤ source.length :=
  calc state.remaining ≤ (State.start (scan source)).remaining := moves.remaining_le
    _ = (scan source).entries.length := Nat.zero_add _
    _ ≤ source.length := entries_scan_length_le source

/-- A loop that is entered on the way through a source ends after at most so many rounds. -/
def Reader.EndsWithin {α β : Type} (source : String) (bound : Nat)
    (round : α → Reader (Round α β)) (progress : ∀ value, Progresses (round value)) : Prop :=
  ∀ (value : α) (state : State), (State.start (scan source)).Reaches state →
    ∃ count ≤ bound, Repeats round count value state ((loop round progress value).run state)

theorem Reader.endsWithin {α β : Type} (source : String) {round : α → Reader (Round α β)}
    (progress : ∀ value, Progresses (round value)) :
    EndsWithin source (source.length + 1) round progress := by
  intro value state moves
  obtain ⟨count, bound, repeats⟩ := exists_repeats progress value state
  exact ⟨count, Nat.le_trans bound (Nat.succ_le_succ (remaining_of_reaches moves)), repeats⟩

end InstructionSet.Grammar

namespace InstructionSet.Document

open InstructionSet.Text InstructionSet.Scanner InstructionSet.Grammar

set_option autoImplicit false

/-- The front of a source. -/
def front (source : String) : Tail := ⟨.origin, source.toList⟩

/-- Scanning a source and reading it come to an end. -/
structure Terminates (source : String) : Prop where
  /-- An answer other than the end takes at least one character, and moves on behind it. -/
  advances : ∀ count, ((front source).answer count).isFinish = false → ∃ taken, taken ≠ [] ∧
    ((front source).behind count).text = taken ++ ((front source).behind (count + 1)).text ∧
    ((front source).behind (count + 1)).position =
      ((front source).behind count).position.after taken
  /-- The end is answered after as many requests as the source has characters and one more, if not
  earlier, and ever after. What was answered until then is what the source is scanned to. -/
  finishes : ∃ requests ≤ source.length + 1,
    (scan source).results = (List.range requests).map (front source).answer ∧
    ∀ count, ((front source).answer count).isFinish = true ↔ requests ≤ count + 1
  /-- The description is read in a bounded number of rounds, those of going on behind its faults
  included. -/
  directives : ∀ path, ∃ rounds ≤ 2 * source.length + 1, ∃ found : List Outcome,
    Reads rounds (.start (scan source)) found ∧ parse path source =
      Phase.parser.accept ⟨path, directivesOf found⟩ ((issuesOf found).map (·.diagnostic path))
  /-- Going on behind a fault ends. -/
  recovery : ∀ state, (State.start (scan source)).Reaches state →
    ∃ rounds ≤ source.length + 1, state.Resumes rounds state.synchronize
  /-- Reading attributes ends. -/
  attributes : ∀ construct, Reader.EndsWithin source (source.length + 1)
    (Reader.nextAttribute construct) (Reader.progresses_nextAttribute construct)
  /-- Reading the body of an instruction or a group ends. -/
  body : ∀ construct, Reader.EndsWithin source (source.length + 1)
    (Reader.nextEntry construct) (Reader.progresses_nextEntry construct)
  /-- Reading the constants of a lookup table ends. -/
  constants : ∀ table, Reader.EndsWithin source (source.length + 1)
    (Reader.nextConstant table) (Reader.progresses_nextConstant table)
  /-- Reading the entries of an enumeration ends. -/
  entries : ∀ enumeration, Reader.EndsWithin source (source.length + 1)
    (Reader.nextEnumerationEntry enumeration) (Reader.progresses_nextEnumerationEntry enumeration)
  /-- Collecting what stands behind a directive ends. -/
  trailing : Reader.EndsWithin source (source.length + 1)
    Reader.nextTrailing Reader.progresses_nextTrailing

/-- **Scanning and reading terminate on every source**, within bounds that its length gives. -/
theorem terminates (source : String) : Terminates source where
  advances count more := by
    rw [Tail.behind_succ]
    exact Tail.next_advances more
  finishes := by
    refine ⟨(scan source).entries.length + 1, ?_, Tail.results_stream _, fun count => ?_⟩
    · exact Nat.succ_le_succ (entries_scan_length_le source)
    · rw [Nat.succ_le_succ_iff]
      exact Tail.isFinish_answer_iff
  directives path := by
    obtain ⟨rounds, bound, reads⟩ := exists_reads (.start (scan source))
    have length := remaining_of_reaches (.refl (.start (scan source)))
    exact ⟨rounds, by omega, _, reads, rfl⟩
  recovery state moves := by
    obtain ⟨rounds, bound, resumes⟩ := state.exists_resumes
    have length := remaining_of_reaches moves
    exact ⟨rounds, by omega, resumes⟩
  attributes construct := Reader.endsWithin source _
  body construct := Reader.endsWithin source _
  constants table := Reader.endsWithin source _
  entries enumeration := Reader.endsWithin source _
  trailing := Reader.endsWithin source _

end InstructionSet.Document
