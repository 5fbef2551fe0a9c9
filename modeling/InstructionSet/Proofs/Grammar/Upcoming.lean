import InstructionSet.Grammar.Description

/-!
# What a reader has in front of it

The state of a reader keeps apart what was looked at and what was not, but what a reader answers
does not depend on how far it has looked. It depends on the tokens and faults that are upcoming,
wherever they are kept. A run that answers takes tokens off their front and nothing else: it passes
them.

The token that marks the end is no part of what is upcoming. A reader may look at it as often as it
likes, so it may be kept several times; the order of what is kept (`Orderly`) says that it is kept
only behind everything else.
-/

namespace InstructionSet.Grammar

open InstructionSet.Text InstructionSet.Scanner

set_option autoImplicit false

namespace State

/-! ## What is upcoming -/

/-- The tokens and faults that are not taken yet, whether they were looked at or not. -/
def upcoming (state : State) : List Scanned :=
  (state.ahead.filter (·.kind ≠ .finish)).map .token ++ state.pending

/-- The end of the source is looked at only behind everything else, and is no scanned token. -/
structure Orderly (state : State) : Prop where
  ahead : ∃ tokens count, state.ahead = tokens ++ List.replicate count (.finish state.finish) ∧
    (∀ token ∈ tokens, token.kind ≠ .finish) ∧ (count = 0 ∨ state.pending = [])
  pending : ∀ token, Scanned.token token ∈ state.pending → token.kind ≠ .finish

theorem Move.finish_eq {first last : State} (move : Move first last) :
    last.finish = first.finish := by
  cases move <;> rfl

theorem Reaches.finish_eq {first last : State} (moves : Reaches first last) :
    last.finish = first.finish := by
  induction moves with
  | refl => rfl
  | tail _ move ih => exact move.finish_eq.trans ih

theorem Orderly.look {state : State} (orderly : state.Orderly) {token : Token}
    {rest : List Scanned} (next : state.pending = .token token :: rest) :
    ({ state with ahead := state.ahead ++ [token], pending := rest } : State).Orderly := by
  obtain ⟨tokens, count, ahead, inside, atEnd⟩ := orderly.ahead
  have none : count = 0 := by
    rcases atEnd with none | nothing
    · exact none
    · rw [nothing] at next
      cases next
  subst none
  refine ⟨⟨tokens ++ [token], 0, ?_, ?_, .inl rfl⟩, ?_⟩
  · simp only [ahead, List.replicate_zero, List.append_nil]
  · intro found member
    rcases List.mem_append.1 member with earlier | here
    · exact inside found earlier
    · cases List.mem_singleton.1 here
      exact orderly.pending token (next ▸ List.mem_cons_self)
  · intro found member
    exact orderly.pending found (next ▸ List.mem_cons_of_mem _ member)

theorem Orderly.lookAtEnd {state : State} (orderly : state.Orderly) (next : state.pending = []) :
    ({ state with ahead := state.ahead ++ [.finish state.finish] } : State).Orderly := by
  obtain ⟨tokens, count, ahead, inside, -⟩ := orderly.ahead
  refine ⟨⟨tokens, count + 1, ?_, inside, .inr next⟩, orderly.pending⟩
  simp only [ahead, List.append_assoc, List.replicate_succ']

theorem Orderly.take {state : State} (orderly : state.Orderly) {token : Token}
    {rest : List Token} (next : state.ahead = token :: rest) (last : Option Token) :
    ({ state with ahead := rest, last := last } : State).Orderly := by
  obtain ⟨tokens, count, ahead, inside, atEnd⟩ := orderly.ahead
  refine ⟨?_, orderly.pending⟩
  rw [next] at ahead
  cases tokens with
  | nil =>
      cases count with
      | zero => cases ahead
      | succ count =>
          have restIs : rest = List.replicate count (.finish state.finish) :=
            (List.cons.inj ahead).2
          refine ⟨[], count, restIs, inside, .inr ?_⟩
          exact atEnd.resolve_left (Nat.succ_ne_zero count)
  | cons front later =>
      have restIs := (List.cons.inj ahead).2
      exact ⟨later, count, restIs,
        fun found member => inside found (List.mem_cons_of_mem _ member), atEnd⟩

/-- Every move of a reader keeps the order of what was looked at. -/
theorem Move.orderly {first last : State} (move : Move first last) (orderly : first.Orderly) :
    last.Orderly := by
  cases move with
  | look token rest next => exact orderly.look next
  | lookAtEnd next => exact orderly.lookAtEnd next
  | raise fault rest next =>
      refine ⟨?_, fun found member =>
        orderly.pending found (next ▸ List.mem_cons_of_mem _ member)⟩
      obtain ⟨tokens, count, ahead, inside, atEnd⟩ := orderly.ahead
      refine ⟨tokens, count, ahead, inside, atEnd.imp_right fun nothing => ?_⟩
      rw [nothing] at next
      cases next
  | take token rest next => exact orderly.take next _
  | declare name => exact ⟨orderly.ahead, orderly.pending⟩

theorem Reaches.orderly {first last : State} (moves : Reaches first last)
    (orderly : first.Orderly) : last.Orderly := by
  induction moves with
  | refl => exact orderly
  | tail _ move ih => exact move.orderly ih

/-- The token in front of what is upcoming, or the fault there. -/
def frontOf (finish : Position) : List Scanned → Except Fault Token
  | [] => .ok (.finish finish)
  | .token token :: _ => .ok token
  | .fault fault :: _ => .error (.spelling fault)

/-- A token that comes next introduces a directive or ends the source. -/
def AtBoundary (state : State) : Prop :=
  ∀ ⦃token : Token⦄ ⦃rest : List Scanned⦄, state.upcoming = .token token :: rest →
    isBoundary token = true

/-! ## Passing tokens -/

/-- A run leads from one state to another and takes the given tokens. -/
structure Passes (first : State) (tokens : List Token) (last : State) : Prop where
  orderly : last.Orderly
  upcoming : first.upcoming = tokens.map .token ++ last.upcoming
  taken : last.last = (tokens.getLast? <|> first.last)
  tables : last.tables = first.tables
  finish : last.finish = first.finish

theorem Passes.refl {state : State} (orderly : state.Orderly) : state.Passes [] state :=
  ⟨orderly, rfl, rfl, rfl, rfl⟩

theorem Passes.trans {first middle last : State} {tokens more : List Token}
    (before : first.Passes tokens middle) (after : middle.Passes more last) :
    first.Passes (tokens ++ more) last where
  orderly := after.orderly
  upcoming := by
    rw [before.upcoming, after.upcoming, List.map_append, List.append_assoc]
  taken := by
    rw [after.taken, before.taken, List.getLast?_append]
    cases more.getLast? <;> rfl
  tables := after.tables.trans before.tables
  finish := after.finish.trans before.finish

theorem Passes.still {first middle last : State} {tokens : List Token}
    (before : first.Passes tokens middle) (after : middle.Passes [] last) :
    first.Passes tokens last := by
  have both := before.trans after
  rwa [List.append_nil] at both

/-- The state in which the names of further lookup tables have been met. -/
def noting (state : State) (names : List String) : State :=
  { state with tables := names ++ state.tables }

theorem Passes.noting {first last : State} {tokens : List Token}
    (passes : first.Passes tokens last) (names : List String) :
    (first.noting names).Passes tokens (last.noting names) where
  orderly := ⟨passes.orderly.ahead, passes.orderly.pending⟩
  upcoming := passes.upcoming
  taken := passes.taken
  tables := congrArg (names ++ ·) passes.tables
  finish := passes.finish

/-- Nothing but tokens is upcoming, and these are the ones. -/
structure Holds (state : State) (tokens : List Token) : Prop where
  orderly : state.Orderly
  upcoming : state.upcoming = tokens.map .token

theorem Passes.holds {first last : State} {tokens rest : List Token}
    (passes : first.Passes tokens last) (holds : first.Holds (tokens ++ rest)) :
    last.Holds rest := by
  have same := passes.upcoming
  rw [holds.upcoming, List.map_append] at same
  exact ⟨passes.orderly, (List.append_cancel_left same).symm⟩

theorem Holds.noting {state : State} {tokens : List Token} (holds : state.Holds tokens)
    (names : List String) : (state.noting names).Holds tokens :=
  ⟨⟨holds.orderly.ahead, holds.orderly.pending⟩, holds.upcoming⟩

theorem Holds.of_passes_nil {first last : State} {tokens : List Token}
    (holds : first.Holds tokens) (passes : first.Passes [] last) : last.Holds tokens :=
  passes.holds holds

/-! ## Going on behind a fault -/

/-- Passing what was looked at takes it. -/
theorem reaches_passAhead (state : State) :
    state.Reaches { state with
      ahead := (passAhead state.last state.ahead).2
      last := (passAhead state.last state.ahead).1 } := by
  obtain ⟨ahead, pending, finish, last, tables⟩ := state
  simp only
  induction ahead generalizing last with
  | nil => exact .refl _
  | cons token rest ih =>
      rw [passAhead]
      split
      · exact .refl _
      · have taken := Move.take ⟨token :: rest, pending, finish, last, tables⟩ token rest rfl
        exact taken.reaches.trans (ih (some token))

/-- Passing what was not looked at looks at it and takes it, up to a boundary or the end. -/
theorem reaches_passPending (pending : List Scanned) (finish : Position) (last : Option Token)
    (tables : List String) :
    (∀ {found token rest}, passPending last pending = (found, some (token, rest)) →
      Reaches ⟨[], pending, finish, last, tables⟩ ⟨[token], rest, finish, found, tables⟩) ∧
    ∀ {found}, passPending last pending = (found, none) →
      Reaches ⟨[], pending, finish, last, tables⟩
        ⟨[.finish finish], [], finish, found, tables⟩ := by
  induction pending generalizing last with
  | nil =>
      refine ⟨fun passed => (by cases passed), fun passed => ?_⟩
      cases passed
      exact (Move.lookAtEnd ⟨[], [], finish, last, tables⟩ rfl).reaches
  | cons entry rest ih =>
      cases entry with
      | fault fault =>
          have raise := (Move.raise ⟨[], .fault fault :: rest, finish, last, tables⟩ fault rest
            rfl).reaches
          exact ⟨fun passed => raise.trans ((ih last).1 passed),
            fun passed => raise.trans ((ih last).2 passed)⟩
      | token token =>
          have look := (Move.look ⟨[], .token token :: rest, finish, last, tables⟩ token rest
            rfl).reaches
          have take := look.trans
            (Move.take ⟨[token], rest, finish, last, tables⟩ token [] rfl).reaches
          rw [passPending]
          split
          next =>
            refine ⟨fun passed => ?_, fun passed => by cases passed⟩
            cases passed
            exact look
          next =>
            exact ⟨fun passed => take.trans ((ih (some token)).1 passed),
              fun passed => take.trans ((ih (some token)).2 passed)⟩

/-- Going on behind a fault is a sequence of moves too. -/
theorem reaches_synchronize (state : State) : state.Reaches state.synchronize := by
  have first := state.reaches_passAhead
  unfold synchronize
  split
  next last token rest passed =>
    rw [passed] at first
    exact first
  next last passed =>
    rw [passed] at first
    obtain ⟨toBoundary, toEnd⟩ := reaches_passPending state.pending state.finish last state.tables
    split
    next found token rest passed => exact first.trans (toBoundary passed)
    next found passed => exact first.trans (toEnd passed)

theorem passAhead_append (last : Option Token) (tokens : List Token) :
    ∃ skipped, tokens = skipped ++ (passAhead last tokens).2 ∧
      ∀ token ∈ skipped, isBoundary token = false := by
  induction tokens generalizing last with
  | nil => exact ⟨[], rfl, fun _ member => absurd member List.not_mem_nil⟩
  | cons token rest ih =>
      rw [passAhead]
      split
      next => exact ⟨[], rfl, fun _ member => absurd member List.not_mem_nil⟩
      next inside =>
        obtain ⟨skipped, whole, others⟩ := ih (some token)
        refine ⟨token :: skipped, congrArg (token :: ·) whole, ?_⟩
        exact List.forall_mem_cons.2 ⟨Bool.eq_false_iff.2 inside, others⟩

theorem passPending_append (last : Option Token) (entries : List Scanned) :
    ∃ skipped, entries = skipped ++ ((passPending last entries).2.elim [] fun front =>
        .token front.1 :: front.2) ∧
      ∀ token, .token token ∈ skipped → isBoundary token = false := by
  induction entries generalizing last with
  | nil => exact ⟨[], rfl, fun _ member => absurd member List.not_mem_nil⟩
  | cons entry rest ih =>
      cases entry with
      | fault fault =>
          obtain ⟨skipped, whole, others⟩ := ih last
          refine ⟨.fault fault :: skipped, congrArg (_ :: ·) whole, fun token member => ?_⟩
          exact others token ((List.mem_cons.1 member).resolve_left (fun same => by cases same))
      | token token =>
          rw [passPending]
          split
          next => exact ⟨[], rfl, fun _ member => absurd member List.not_mem_nil⟩
          next inside =>
            obtain ⟨skipped, whole, others⟩ := ih (some token)
            refine ⟨.token token :: skipped, congrArg (_ :: ·) whole, fun found member => ?_⟩
            rcases List.mem_cons.1 member with same | later
            · cases same
              exact Bool.eq_false_iff.2 inside
            · exact others found later

/-- Going on behind a fault skips no boundary. -/
theorem upcoming_synchronize {state : State} (orderly : state.Orderly) :
    ∃ skipped, state.upcoming = skipped ++ state.synchronize.upcoming ∧
      ∀ token, .token token ∈ skipped → isBoundary token = false := by
  obtain ⟨taken, ahead, others⟩ := passAhead_append state.last state.ahead
  have inside : ∀ token, Scanned.token token ∈ (taken.filter (·.kind ≠ .finish)).map .token →
      isBoundary token = false := by
    intro token member
    obtain ⟨found, kept, same⟩ := List.mem_map.1 member
    cases same
    exact others token (List.mem_filter.1 kept).1
  unfold synchronize
  split
  next last token rest passed =>
    rw [passed] at ahead
    refine ⟨(taken.filter (·.kind ≠ .finish)).map .token, ?_, inside⟩
    simp only [upcoming, ahead, List.filter_append, List.map_append, List.append_assoc]
  next last passed =>
    rw [passed, List.append_nil] at ahead
    obtain ⟨skipped, pending, more⟩ := passPending_append last state.pending
    refine ⟨(taken.filter (·.kind ≠ .finish)).map .token ++ skipped, ?_, fun token member =>
      (List.mem_append.1 member).elim (inside token) (more token)⟩
    split
    next found token rest passed =>
      rw [passed] at pending
      have notFinish : token.kind ≠ .finish := by
        refine orderly.pending token ?_
        rw [pending]
        exact List.mem_append_right _ List.mem_cons_self
      simp only [upcoming, ahead]
      rw [pending]
      simp [notFinish]
    next found passed =>
      rw [passed] at pending
      simp only [upcoming, ahead]
      rw [pending]
      simp [Token.finish]

end State

namespace Reader

variable {α β : Type}

theorem run_bind_of_ok {reader : Reader α} {continuation : α → Reader β} {state next : State}
    {value : α} (ran : reader.run state = (.ok value, next)) :
    (reader >>= continuation).run state = (continuation value).run next := by
  rw [run_bind, ran]

theorem reaches_of_run {reader : Reader α} {state next : State} {result : Except Fault α}
    (ran : reader.run state = (result, next)) : state.Reaches next := by
  have moves := reader.reaches state
  rwa [ran] at moves

theorem orderly_of_run {reader : Reader α} {state next : State} {result : Except Fault α}
    (ran : reader.run state = (result, next)) (orderly : state.Orderly) : next.Orderly :=
  (reaches_of_run ran).orderly orderly

/-! ## Looking -/

/-- Looking at one token more answers the token in front of what was not looked at. -/
theorem look_run {state : State} (orderly : state.Orderly) :
    ∃ next, look.run state = (State.frontOf state.finish state.pending, next) ∧
      (∀ token, State.frontOf state.finish state.pending = .ok token → state.Passes [] next) := by
  have moves := look.reaches state
  refine ⟨(look.run state).2, ?_, ?_⟩
  · simp only [look]
    split <;> simp_all [State.frontOf]
  · intro token front
    refine ⟨moves.orderly orderly, ?_, ?_, ?_, moves.finish_eq⟩
    · simp only [look]
      split
      next nothing => simp [State.upcoming, Token.finish, nothing]
      next token rest next =>
        have inside : token.kind ≠ .finish :=
          orderly.pending token (next ▸ List.mem_cons_self)
        simp [State.upcoming, next, inside]
      next fault rest next =>
        rw [next] at front
        cases front
    · simp only [look]
      split <;> rfl
    · simp only [look]
      split <;> rfl

/-- What was looked at is upcoming, unless it is the end. -/
theorem upcoming_of_ahead {state : State} (orderly : state.Orderly) {token : Token}
    {rest : List Token} (ahead : state.ahead = token :: rest) :
    (token.kind ≠ .finish ∧ state.upcoming = .token token ::
        ((rest.filter (·.kind ≠ .finish)).map .token ++ state.pending)) ∨
      (token = .finish state.finish ∧ state.upcoming = []) := by
  by_cases inside : token.kind = .finish
  · right
    obtain ⟨tokens, count, whole, others, atEnd⟩ := orderly.ahead
    rw [ahead] at whole
    cases tokens with
    | cons front later =>
        obtain ⟨rfl, -⟩ := List.cons.inj whole
        exact absurd inside (others token List.mem_cons_self)
    | nil =>
        cases count with
        | zero => cases whole
        | succ count =>
            obtain ⟨rfl, rfl⟩ := List.cons.inj whole
            have nothing := atEnd.resolve_left (Nat.succ_ne_zero count)
            refine ⟨rfl, ?_⟩
            simp [State.upcoming, ahead, nothing, Token.finish]
  · left
    exact ⟨inside, by simp [State.upcoming, ahead, inside]⟩

/-- The next token is the one in front of what is upcoming, and looking at it takes nothing. -/
theorem peek_run {state : State} (orderly : state.Orderly) :
    ∃ next, peek.run state = (State.frontOf state.finish state.upcoming, next) ∧
      (∀ token, State.frontOf state.finish state.upcoming = .ok token → state.Passes [] next) := by
  cases ahead : state.ahead with
  | nil =>
      have same : state.upcoming = state.pending := by simp [State.upcoming, ahead]
      rw [same]
      simp only [peek, ahead]
      exact look_run orderly
  | cons token rest =>
      refine ⟨state, ?_, fun _ _ => .refl orderly⟩
      rw [peek_run_of_ahead ahead]
      rcases upcoming_of_ahead orderly ahead with ⟨-, upcoming⟩ | ⟨rfl, upcoming⟩
      · rw [upcoming]
        rfl
      · rw [upcoming]
        rfl

/-- An upcoming token that was looked at stands in front of the others. -/
theorem peek_run_of_upcoming {state : State} (orderly : state.Orderly) {token : Token}
    {rest : List Scanned} (upcoming : state.upcoming = .token token :: rest) :
    ∃ next later, peek.run state = (.ok token, next) ∧ state.Passes [] next ∧
      next.ahead = token :: later ∧
      (∀ last, ({ next with ahead := later, last := last } : State).upcoming = rest) := by
  obtain ⟨next, ran, passes⟩ := peek_run orderly
  rw [upcoming] at ran passes
  have looked := passes token rfl
  have still : next.upcoming = .token token :: rest := looked.upcoming.symm.trans upcoming
  obtain ⟨later, ahead⟩ := peek_run_ok ran
  refine ⟨next, later, ran, looked, ahead, fun last => ?_⟩
  rcases upcoming_of_ahead looked.orderly ahead with ⟨-, whole⟩ | ⟨-, whole⟩
  · rw [still] at whole
    exact (List.cons.inj whole).2.symm
  · rw [still] at whole
    cases whole

/-- The token behind an upcoming one is the one in front of the others. -/
theorem peekSecond_run {state : State} (orderly : state.Orderly) {token : Token}
    {rest : List Scanned} (upcoming : state.upcoming = .token token :: rest) :
    ∃ next, peekSecond.run state = (State.frontOf state.finish rest, next) ∧
      (∀ second, State.frontOf state.finish rest = .ok second → state.Passes [] next) := by
  obtain ⟨middle, later, ran, looked, ahead, behind⟩ := peek_run_of_upcoming orderly upcoming
  rw [peekSecond, run_bind_of_ok ran, ← looked.finish]
  cases later with
  | nil =>
      simp only [ahead]
      obtain ⟨last, found, keeps⟩ := look_run looked.orderly
      have same : middle.pending = rest := behind none
      rw [same] at found keeps
      exact ⟨last, found, fun second front => looked.trans (keeps second front)⟩
  | cons second others =>
      simp only [ahead]
      refine ⟨middle, ?_, fun _ _ => looked⟩
      have taken := looked.orderly.take ahead none
      rcases upcoming_of_ahead taken rfl with ⟨-, whole⟩ | ⟨atEnd, whole⟩
      · rw [← behind none, whole]
        rfl
      · rw [← behind none, whole, atEnd]
        rfl

/-- A fault that is raised by looking was upcoming, and nothing in front of it is kept. -/
theorem raised_of_peek {state next : State} {fault : Fault}
    (ran : peek.run state = (.error fault, next)) :
    ∃ found, fault = .spelling found ∧ state.upcoming = .fault found :: next.upcoming := by
  obtain ⟨ahead, pending, finish, last, tables⟩ := state
  cases ahead with
  | cons token rest => cases ran
  | nil =>
      cases pending with
      | nil => cases ran
      | cons entry rest =>
          cases entry with
          | token token => cases ran
          | fault found =>
              cases ran
              exact ⟨found, rfl, rfl⟩

/-- A fault behind an upcoming token is raised while the token is kept. -/
theorem raised_of_peekSecond {state next : State} (orderly : state.Orderly) {token : Token}
    {fault : SpellingFault} {rest : List Scanned} {result : Except Fault Token}
    (upcoming : state.upcoming = .token token :: .fault fault :: rest)
    (ran : peekSecond.run state = (result, next)) : next.upcoming = .token token :: rest := by
  obtain ⟨middle, later, looked, passes, ahead, behind⟩ := peek_run_of_upcoming orderly upcoming
  rw [peekSecond, run_bind_of_ok looked] at ran
  cases later with
  | cons second others =>
      have taken := passes.orderly.take ahead none
      rcases upcoming_of_ahead taken rfl with ⟨-, whole⟩ | ⟨-, whole⟩
      · rw [behind none] at whole
        cases whole
      · rw [behind none] at whole
        cases whole
  | nil =>
      have pending : middle.pending = .fault fault :: rest := behind none
      simp only [ahead, look, pending] at ran
      cases ran
      rcases upcoming_of_ahead passes.orderly ahead with ⟨notFinish, -⟩ | ⟨-, nothing⟩
      · simp [State.upcoming, notFinish]
      · cases (passes.upcoming.symm.trans upcoming).symm.trans nothing

/-! ## Taking -/

/-- Taking an upcoming token passes it. -/
theorem consume_run {state : State} (orderly : state.Orderly) {token : Token}
    {rest : List Scanned} (upcoming : state.upcoming = .token token :: rest) :
    ∃ next, consume.run state = (.ok token, next) ∧ state.Passes [token] next := by
  obtain ⟨middle, later, ran, looked, ahead, behind⟩ := peek_run_of_upcoming orderly upcoming
  refine ⟨{ middle with ahead := later, last := some token }, ?_, ?_⟩
  · simp only [consume]
    rw [ran]
    simp only [ahead, List.tail_cons]
  · refine ⟨looked.orderly.take ahead _, ?_, rfl, looked.tables, looked.finish⟩
    rw [upcoming, behind]
    rfl

/-- A token other than the end that was taken was upcoming. -/
theorem passes_of_consume {state next : State} {token : Token} (orderly : state.Orderly)
    (ran : consume.run state = (.ok token, next)) (inside : token.kind ≠ .finish) :
    state.Passes [token] next := by
  obtain ⟨middle, looked, -⟩ := peek_run orderly
  cases upcoming : state.upcoming with
  | nil =>
      rw [upcoming] at looked
      simp only [consume, looked, State.frontOf] at ran
      obtain ⟨rfl, -⟩ := Prod.mk.inj ran |>.imp_left Except.ok.inj
      exact absurd rfl inside
  | cons front rest =>
      cases front with
      | fault fault =>
          rw [upcoming] at looked
          simp [consume, looked, State.frontOf] at ran
      | token front =>
          obtain ⟨last, taken, passes⟩ := consume_run orderly upcoming
          rw [taken] at ran
          cases ran
          exact passes

end Reader
end InstructionSet.Grammar
