import InstructionSet.Proofs.Grammar.Rounds

/-!
# Looking ahead

A reader asks the scanner for one answer after the other and keeps the tokens that it only looks at.
A call may therefore ask for nothing, when it is served from what is kept, or ask once or twice; and
it may end in a fault of spelling between the first and the second time, with a token kept in front
of the fault and the answers behind the fault not asked for.

Whatever a call does, it keeps account of what it asks for (`State.Serves`): the tokens among the
answers go behind those that were kept, from the front of which the call takes, and the faults
among the answers are what it raises. Accounts of one call after the other add up, so that this
holds of every sequence of calls (`serves_serve`).

A call that only looks takes nothing. What is consumed behind it is then what would have been
consumed without it, up to a fault that it has raised (`State.Undisturbed`).
-/

namespace InstructionSet

open InstructionSet.Text InstructionSet.Scanner

set_option autoImplicit false

/-- The token of an answer, if it is one. -/
def Scanned.token? : Scanned → Option Token
  | .token found => some found
  | .fault _ => none

/-- The fault of an answer, if it is one. -/
def Scanned.fault? : Scanned → Option SpellingFault
  | .token _ => none
  | .fault found => some found

/-- What consuming an answer comes to. -/
def Scanned.consumed : Scanned → Except Grammar.Fault Token
  | .token found => .ok found
  | .fault found => .error (.spelling found)

theorem Scanned.filterMap_token?_map (tokens : List Token) :
    (tokens.map Scanned.token).filterMap (·.token?) = tokens := by
  rw [List.filterMap_map]
  exact List.filterMap_some

theorem Scanned.eq_of_no_fault {entries : List Scanned} (none : entries.filterMap (·.fault?) = []) :
    entries = (entries.filterMap (·.token?)).map .token := by
  induction entries with
  | nil => rfl
  | cons entry rest ih =>
      cases entry with
      | token token => exact congrArg (List.cons _) (ih none)
      | fault fault => cases none

theorem Scanned.exists_split_of_fault {entries : List Scanned} {fault : SpellingFault}
    (one : entries.filterMap (·.fault?) = [fault]) :
    ∃ front behind : List Token,
      entries = front.map .token ++ .fault fault :: behind.map .token := by
  induction entries with
  | nil => cases one
  | cons entry rest ih =>
      cases entry with
      | token token =>
          obtain ⟨front, behind, split⟩ := ih one
          exact ⟨token :: front, behind, congrArg (List.cons _) split⟩
      | fault found =>
          obtain ⟨rfl, none⟩ : found = fault ∧ rest.filterMap (·.fault?) = [] := List.cons.inj one
          exact ⟨[], rest.filterMap (·.token?), congrArg (List.cons _) (eq_of_no_fault none)⟩

namespace Grammar

/-! ## Calls -/

/-- A call of a reader that looks at tokens or takes them. -/
inductive Request where
  /-- To look at the next token. -/
  | peek
  /-- To look at the token behind the next one. -/
  | peekSecond
  /-- To look whether the next token is of a kind. -/
  | check (kind : TokenKind)
  /-- To look whether an attribute comes next. -/
  | atAttribute
  /-- To take the next token if it is of a kind. -/
  | eat (kind : TokenKind)
  /-- To take the next token, which must be of a kind. -/
  | expect (kind : TokenKind) (expectation : Expectation)
  /-- To take the next token. -/
  | consume

/-- What a call answers. -/
inductive Reply where
  /-- A token. -/
  | token (token : Token)
  /-- Whether it is so. -/
  | flag (value : Bool)

namespace Request

/-- The reader that answers a call. -/
def reader : Request → Reader Reply
  | .peek => .token <$> Reader.peek
  | .peekSecond => .token <$> Reader.peekSecond
  | .check kind => .flag <$> Reader.check kind
  | .atAttribute => .flag <$> Reader.atAttribute
  | .eat kind => .flag <$> Reader.eat kind
  | .expect kind expectation => .token <$> Reader.expect kind expectation
  | .consume => .token <$> Reader.consume

/-- Whether a call only looks at tokens. -/
def looks : Request → Bool
  | .peek | .peekSecond | .check _ | .atAttribute => true
  | .eat _ | .expect _ _ | .consume => false

/-- The tokens that a call has taken: the one that it answers or, where it refuses the token or only
answers that there was one, the one that the next state remembers. -/
def taken : Request → Except Fault Reply → State → List Token
  | .consume, .ok (.token token), _ => [token]
  | .expect _ _, .ok (.token token), _ => [token]
  | .expect _ _, .error (.grammar _), next => next.last.toList
  | .eat _, .ok (.flag true), next => next.last.toList
  | _, _, _ => []

end Request

/-- The fault of spelling that is raised, if the result is one. -/
def raisedBy {α : Type} : Except Fault α → List SpellingFault
  | .error (.spelling fault) => [fault]
  | .error (.grammar _) => []
  | .ok _ => []

/-- What has come of a sequence of calls. -/
structure Log where
  /-- The tokens that were taken. -/
  taken : List Token
  /-- The faults of spelling that were raised. -/
  raised : List SpellingFault
  /-- The state behind the calls. -/
  state : State

namespace State

/-- Serves calls one after the other, whether they fail or not. -/
def serve (state : State) : List Request → Log
  | [] => ⟨[], [], state⟩
  | request :: rest =>
      let result := (request.reader.run state).1
      let next := (request.reader.run state).2
      let log := next.serve rest
      ⟨request.taken result next ++ log.taken, raisedBy result ++ log.raised, log.state⟩

/-- The answer of calls to consume, made one after the other: the one at a place. -/
def consuming (state : State) : Nat → Except Fault Token
  | 0 => (Reader.consume.run state).1
  | place + 1 => consuming (Reader.consume.run state).2 place

/-- Tokens are consumed in one state as in the other, except for the faults that were raised between
them: such a fault is missing in the second state where it would have been raised in the first. -/
inductive Undisturbed (first last : State) : List SpellingFault → Prop where
  /-- Nothing was raised, and nothing has changed. -/
  | same (alike : ∀ place, last.consuming place = first.consuming place) : Undisturbed first last []
  /-- A fault was raised early. -/
  | raised {fault : SpellingFault} (early : Nat)
      (here : first.consuming early = .error (.spelling fault))
      (before : ∀ place < early, last.consuming place = first.consuming place)
      (behind : ∀ place, early ≤ place → last.consuming place = first.consuming (place + 1)) :
      Undisturbed first last [fault]

/-! ## Keeping account -/

/-- What the scanner will answer. -/
def offered (state : State) (place : Nat) : Scanned :=
  state.pending.getD place (.token (.finish state.finish))

/-- The next answers of the scanner, so many of them. -/
def offers (state : State) (count : Nat) : List Scanned :=
  (List.range count).map state.offered

/-- The account of a run that asks the scanner so many times, takes tokens and raises faults. -/
structure Serves (first : State) (count : Nat) (tokens : List Token) (faults : List SpellingFault)
    (last : State) : Prop where
  /-- The scanner goes on behind the answers that it was asked for. -/
  pending : last.pending = first.pending.drop count
  /-- The source ends where it did. -/
  finish : last.finish = first.finish
  /-- What is taken and what is kept are what was kept and the tokens among the answers. -/
  queue : tokens ++ last.ahead = first.ahead ++ (first.offers count).filterMap (·.token?)
  /-- What is raised are the faults among the answers. -/
  raised : faults = (first.offers count).filterMap (·.fault?)
  /-- No more than two tokens are kept, unless there were more. -/
  few : last.ahead.length ≤ max first.ahead.length 2
  /-- The state remembers the token that was taken last. -/
  taken : last.last = (tokens.getLast? <|> first.last)

variable {first middle last state : State} {count more : Nat} {tokens others : List Token}
  {faults later : List SpellingFault}

theorem Serves.refl (state : State) : state.Serves 0 [] [] state :=
  ⟨rfl, rfl, (List.append_nil _).symm, rfl, Nat.le_max_left _ _, rfl⟩

/-- The scanner goes on behind the answers that it was asked for. -/
theorem Serves.offered (serves : first.Serves count tokens faults last) (place : Nat) :
    last.offered place = first.offered (count + place) := by
  rw [State.offered, State.offered, serves.pending, serves.finish, List.getD_eq_getElem?_getD,
    List.getD_eq_getElem?_getD, List.getElem?_drop]

theorem Serves.offers_add (serves : first.Serves count tokens faults middle) (more : Nat) :
    first.offers (count + more) = first.offers count ++ middle.offers more := by
  rw [offers, List.range_add, List.map_append, List.map_map]
  exact congrArg _ (List.map_congr_left fun place _ => (serves.offered place).symm)

/-- The accounts of two runs, one after the other, add up. -/
theorem Serves.trans (before : first.Serves count tokens faults middle)
    (after : middle.Serves more others later last) :
    first.Serves (count + more) (tokens ++ others) (faults ++ later) last where
  pending := by rw [after.pending, before.pending, List.drop_drop]
  finish := after.finish.trans before.finish
  queue := by
    rw [before.offers_add, List.filterMap_append, ← List.append_assoc, ← before.queue,
      List.append_assoc, List.append_assoc, after.queue]
  raised := by rw [before.offers_add, List.filterMap_append, ← before.raised, ← after.raised]
  few := by
    have bound := before.few
    have next := after.few
    omega
  taken := by
    rw [after.taken, before.taken, List.getLast?_append]
    cases others.getLast? <;> rfl

/-- A token that was kept is taken without asking. -/
theorem serves_take {token : Token} {rest : List Token} (next : state.ahead = token :: rest) :
    state.Serves 0 [token] [] { state with ahead := rest, last := some token } where
  pending := rfl
  finish := rfl
  queue := (List.append_nil _).trans next |>.symm
  raised := rfl
  few := by
    rw [next]
    exact Nat.le_trans (Nat.le_succ _) (Nat.le_max_left _ _)
  taken := rfl

end State

/-! ## Calls that look -/

namespace Reader

variable {α β : Type}

/-- A run of the reader takes nothing. -/
def Looks (reader : Reader α) : Prop :=
  ∀ state : State, ∃ count,
    state.Serves count [] (raisedBy (reader.run state).1) (reader.run state).2

theorem looks_pure (value : α) : (pure value : Reader α).Looks :=
  fun state => ⟨0, .refl state⟩

theorem Looks.bind {reader : Reader α} {continuation : α → Reader β} (first : reader.Looks)
    (behind : ∀ value, (continuation value).Looks) : (reader >>= continuation).Looks := by
  intro state
  obtain ⟨count, serves⟩ := first state
  rw [run_bind]
  cases ran : reader.run state with
  | mk result next =>
      rw [ran] at serves
      cases result with
      | ok value =>
          obtain ⟨more, others⟩ := behind value next
          exact ⟨count + more, serves.trans others⟩
      | error fault =>
          refine ⟨count, ?_⟩
          cases fault with
          | spelling fault => exact serves
          | grammar error => exact serves

theorem Looks.map {reader : Reader α} (looks : reader.Looks) (f : α → β) : (f <$> reader).Looks :=
  looks.bind fun value => looks_pure (f value)

/-- The scanner is asked for one answer, which is kept or raised. -/
theorem serves_look {state : State} (room : state.ahead.length < 2) :
    state.Serves 1 [] (raisedBy (look.run state).1) (look.run state).2 := by
  obtain ⟨ahead, pending, finish, last, tables⟩ := state
  have one : ∀ token, (ahead ++ [token]).length ≤ max ahead.length 2 := by
    intro token
    rw [List.length_append]
    exact Nat.le_trans room (Nat.le_max_right _ _)
  cases pending with
  | nil => exact ⟨rfl, rfl, rfl, rfl, one _, rfl⟩
  | cons entry rest =>
      cases entry with
      | token token => exact ⟨rfl, rfl, rfl, rfl, one _, rfl⟩
      | fault fault =>
          exact ⟨rfl, rfl, (List.append_nil _).symm, rfl, Nat.le_max_left _ _, rfl⟩

theorem looks_peek : peek.Looks := by
  intro state
  cases ahead : state.ahead with
  | cons token rest =>
      rw [peek_run_of_ahead ahead]
      exact ⟨0, .refl state⟩
  | nil =>
      have same : peek.run state = look.run state := by simp only [peek, ahead]
      rw [same]
      exact ⟨1, serves_look (by rw [ahead]; decide)⟩

theorem looks_peekSecond : peekSecond.Looks := by
  refine looks_peek.bind fun _ state => ?_
  simp only
  split
  next => exact ⟨0, .refl state⟩
  next none =>
    have room : state.ahead.length < 2 := by
      cases front : state.ahead with
      | nil => decide
      | cons first rest =>
          cases rest with
          | nil => exact Nat.lt_succ_self 1
          | cons second rest => exact (none first second rest front).elim
    exact ⟨1, serves_look room⟩

theorem looks_check (kind : TokenKind) : (check kind).Looks :=
  looks_peek.bind fun token => looks_pure (decide (token.kind = kind))

theorem looks_atAttribute : atAttribute.Looks := by
  refine (looks_check .identifier).bind fun identifier => ?_
  cases identifier with
  | true => exact looks_peekSecond.bind fun token => looks_pure (decide (token.kind = .equals))
  | false => exact looks_pure false

/-! ## Calls that take -/

theorem run_map (f : α → β) (reader : Reader α) (state : State) :
    (f <$> reader).run state = ((reader.run state).1.map f, (reader.run state).2) := by
  show (reader >>= fun value => pure (f value)).run state = _
  rw [run_bind]
  cases reader.run state with
  | mk result next => cases result <;> rfl

theorem raisedBy_map (f : α → β) (result : Except Fault α) :
    raisedBy (result.map f) = raisedBy result := by
  cases result with
  | ok value => rfl
  | error fault => cases fault <;> rfl

/-- How consuming ends: it takes a token, or it raises a fault of spelling. -/
inductive Consumes (state : State) : Except Fault Token × State → Prop where
  /-- A token is taken. -/
  | taken {count : Nat} {token : Token} {next : State}
      (serves : state.Serves count [token] [] next) : Consumes state (.ok token, next)
  /-- A fault is raised. -/
  | raised {count : Nat} {fault : SpellingFault} {next : State}
      (serves : state.Serves count [] [fault] next) :
      Consumes state (.error (.spelling fault), next)

/-- What is consumed was kept or is asked for. -/
theorem consumes (state : State) : Consumes state (consume.run state) := by
  obtain ⟨count, serves⟩ := looks_peek state
  simp only [consume]
  cases looked : peek.run state with
  | mk result next =>
      rw [looked] at serves
      cases result with
      | error fault =>
          obtain ⟨found, rfl, -⟩ := raised_of_peek looked
          exact .raised serves
      | ok token =>
          obtain ⟨rest, ahead⟩ := peek_run_ok looked
          simp only [ahead, List.tail_cons]
          exact .taken (serves.trans (State.serves_take ahead))

end Reader

open Reader

/-- A call that only looks takes nothing. -/
theorem Request.looks_reader (request : Request) (looks : request.looks = true) :
    request.reader.Looks := by
  cases request with
  | peek => exact looks_peek.map Reply.token
  | peekSecond => exact looks_peekSecond.map Reply.token
  | check kind => exact (looks_check kind).map Reply.flag
  | atAttribute => exact looks_atAttribute.map Reply.flag
  | eat | expect | consume => cases looks

namespace State

variable {first last : State} {count : Nat} {faults : List SpellingFault}

/-- Every call keeps account of what it asks for. -/
theorem serves_request (state : State) (request : Request) : ∃ count,
    state.Serves count
      (request.taken (request.reader.run state).1 (request.reader.run state).2)
      (raisedBy (request.reader.run state).1) (request.reader.run state).2 := by
  cases request with
  | peek => exact Request.looks_reader .peek rfl state
  | peekSecond => exact Request.looks_reader .peekSecond rfl state
  | check kind => exact Request.looks_reader (.check kind) rfl state
  | atAttribute => exact Request.looks_reader .atAttribute rfl state
  | consume =>
      have consumed := consumes state
      rw [Request.reader, run_map, raisedBy_map]
      generalize consume.run state = outcome at consumed ⊢
      cases consumed with
      | taken serves => exact ⟨_, serves⟩
      | raised serves => exact ⟨_, serves⟩
  | expect kind expectation =>
      have consumed := consumes state
      rw [Request.reader, run_map, raisedBy_map, Reader.expect, run_bind]
      generalize consume.run state = outcome at consumed ⊢
      cases consumed with
      | raised serves => exact ⟨_, serves⟩
      | @taken count token next serves =>
          refine ⟨count, ?_⟩
          simp only
          split
          next => exact serves
          next =>
            show state.Serves count next.last.toList [] next
            rw [serves.taken]
            exact serves
  | eat kind =>
      rw [Request.reader, run_map, raisedBy_map, Reader.eat, run_bind]
      obtain ⟨count, serves⟩ := looks_check kind state
      cases checked : (check kind).run state with
      | mk result next =>
          rw [checked] at serves
          cases result with
          | error fault => exact ⟨count, serves⟩
          | ok isKind =>
              cases isKind with
              | false => exact ⟨count, serves⟩
              | true =>
                  have consumed := consumes next
                  simp only [if_true, run_bind]
                  generalize consume.run next = outcome at consumed ⊢
                  cases consumed with
                  | raised others => exact ⟨_, serves.trans others⟩
                  | @taken more token after others =>
                      refine ⟨count + more, ?_⟩
                      show state.Serves (count + more) after.last.toList [] after
                      rw [others.taken]
                      exact serves.trans others

/-- Calls one after the other keep account of what they ask for together. -/
theorem serves_serve (state : State) (requests : List Request) : ∃ count,
    state.Serves count (state.serve requests).taken (state.serve requests).raised
      (state.serve requests).state := by
  induction requests generalizing state with
  | nil => exact ⟨0, .refl state⟩
  | cons request rest ih =>
      obtain ⟨count, serves⟩ := state.serves_request request
      obtain ⟨more, others⟩ := ih (request.reader.run state).2
      exact ⟨count + more, serves.trans others⟩

/-! ## What is consumed -/

/-- What comes next, kept or not, one behind the other. -/
def coming (state : State) (place : Nat) : Scanned :=
  (state.ahead.map Scanned.token ++ state.pending).getD place (.token (.finish state.finish))

theorem consume_coming (state : State) :
    (consume.run state).1 = (state.coming 0).consumed ∧
      ∀ place, (consume.run state).2.coming place = state.coming (place + 1) := by
  obtain ⟨ahead, pending, finish, last, tables⟩ := state
  cases ahead with
  | cons token rest => exact ⟨rfl, fun _ => rfl⟩
  | nil =>
      cases pending with
      | nil => exact ⟨rfl, fun _ => rfl⟩
      | cons entry rest => cases entry <;> exact ⟨rfl, fun _ => rfl⟩

/-- Consuming goes through what comes next, in order. -/
theorem consuming_eq (state : State) (place : Nat) :
    state.consuming place = (state.coming place).consumed := by
  induction place generalizing state with
  | zero => exact state.consume_coming.1
  | succ place ih => rw [consuming, ih, state.consume_coming.2]

/-- What comes next is what was kept, and behind it what the scanner is asked for. -/
theorem getElem?_coming {state : State} {place count : Nat}
    (near : place < state.ahead.length + count) :
    (state.ahead.map Scanned.token ++ state.offers count)[place]? = some (state.coming place) := by
  rw [coming, List.getD_eq_getElem?_getD]
  rcases Nat.lt_or_ge place state.ahead.length with kept | behind
  · have inside : place < (state.ahead.map Scanned.token).length := by rwa [List.length_map]
    rw [List.getElem?_append_left inside, List.getElem?_append_left inside,
      List.getElem?_eq_getElem inside, Option.getD_some]
  · have outside : (state.ahead.map Scanned.token).length ≤ place := by rwa [List.length_map]
    rw [List.getElem?_append_right outside, List.getElem?_append_right outside, List.length_map,
      offers, List.getElem?_map, List.getElem?_range (by omega)]
    rfl

/-- Behind a run that takes nothing comes what comes first, as often as one looks. -/
theorem Serves.getElem?_coming (serves : first.Serves count [] faults last) (place further : Nat)
    (near : place < first.ahead.length + count + further) :
    (first.ahead.map Scanned.token ++ first.offers count ++ last.offers further)[place]? =
      some (first.coming place) := by
  rw [List.append_assoc, ← serves.offers_add]
  exact State.getElem?_coming (by omega)

/-- Without a fault, what comes next stays the same. -/
theorem Serves.undisturbed (serves : first.Serves count [] [] last) :
    Undisturbed first last [] := by
  refine .same fun place => ?_
  have queue : first.ahead.map Scanned.token ++ first.offers count = last.ahead.map .token := by
    rw [Scanned.eq_of_no_fault serves.raised.symm, ← List.map_append, ← serves.queue,
      List.nil_append]
  have before := serves.getElem?_coming place (place + 1) (by omega)
  rw [queue, State.getElem?_coming (by omega)] at before
  rw [consuming_eq, consuming_eq, Option.some.inj before]

/-- With a fault, what comes next is the same without it. -/
theorem Serves.undisturbed_raised {fault : SpellingFault}
    (serves : first.Serves count [] [fault] last) : Undisturbed first last [fault] := by
  obtain ⟨front, behind, split⟩ := Scanned.exists_split_of_fault serves.raised.symm
  -- The tokens in front of the fault, those that were kept before among them.
  obtain ⟨kept, keeps⟩ : ∃ kept, kept = (first.ahead ++ front).map Scanned.token := ⟨_, rfl⟩
  have queue : last.ahead.map Scanned.token = kept ++ behind.map .token := by
    rw [keeps, ← List.map_append, List.append_assoc]
    refine congrArg _ (serves.queue.trans (congrArg _ ?_))
    rw [split, List.filterMap_append, Scanned.filterMap_token?_map, List.filterMap_cons,
      Scanned.filterMap_token?_map]
    rfl
  have before : ∀ place further, place < further → (kept ++ .fault fault :: (behind.map .token ++
      last.offers further))[place]? = some (first.coming place) := by
    intro place further near
    rw [← serves.getElem?_coming place further (by omega), split, keeps]
    simp only [List.map_append, List.append_assoc, List.cons_append]
  have after : ∀ place further, place < further → (kept ++ (behind.map .token ++
      last.offers further))[place]? = some (last.coming place) := by
    intro place further near
    rw [← List.append_assoc, ← queue]
    exact State.getElem?_coming (by omega)
  refine .raised kept.length ?_ ?_ ?_
  · have here := before kept.length _ (Nat.lt_succ_self _)
    rw [List.getElem?_append_right (Nat.le_refl _), Nat.sub_self] at here
    rw [consuming_eq, ← Option.some.inj here]
    rfl
  · intro place inside
    have first := before place _ (Nat.lt_succ_self _)
    have last := after place _ (Nat.lt_succ_self _)
    rw [List.getElem?_append_left inside] at first last
    rw [consuming_eq, consuming_eq, Option.some.inj (first.symm.trans last)]
  · intro place outside
    have first := before (place + 1) _ (Nat.lt_succ_self _)
    have last := after place (place + 2) (Nat.lt_add_of_pos_right (by decide))
    rw [List.getElem?_append_right (Nat.le_succ_of_le outside), Nat.succ_sub outside,
      List.getElem?_cons_succ] at first
    rw [List.getElem?_append_right outside] at last
    rw [consuming_eq, consuming_eq, Option.some.inj (first.symm.trans last)]

/-- Looking leaves what is consumed behind it as it was, up to the fault that it raises. -/
theorem undisturbed_of_looks {request : Request} (looks : request.looks = true) (state : State) :
    Undisturbed state (request.reader.run state).2 (raisedBy (request.reader.run state).1) := by
  obtain ⟨count, serves⟩ := Request.looks_reader request looks state
  cases result : (request.reader.run state).1 with
  | ok reply =>
      rw [result] at serves
      exact serves.undisturbed
  | error fault =>
      rw [result] at serves
      cases fault with
      | spelling fault => exact serves.undisturbed_raised
      | grammar error => exact serves.undisturbed

theorem offered_start (source : String) (place : Nat) :
    (State.start (scan source)).offered place = (Document.front source).answer place :=
  ((Document.front source).answer_eq place).symm

theorem offers_start (source : String) (count : Nat) :
    (State.start (scan source)).offers count =
      (List.range count).map (Document.front source).answer :=
  List.map_congr_left fun place _ => offered_start source place

end State

/-! ## Sequences of calls -/

/-- What has come of calls is what the scanner of a source has answered when it was asked so many
times. -/
structure Log.Faithful (source : String) (asked : Nat) (log : Log) : Prop where
  /-- The tokens that were taken and those that are kept are the tokens among the answers. -/
  tokens : log.taken ++ log.state.ahead =
    ((List.range asked).map (Document.front source).answer).filterMap (·.token?)
  /-- Each fault among the answers was raised by one call. -/
  faults : log.raised = ((List.range asked).map (Document.front source).answer).filterMap (·.fault?)
  /-- The answers behind them are still to come. -/
  pending : ∀ place, log.state.offered place = (Document.front source).answer (asked + place)
  /-- No more than two tokens are kept. -/
  few : log.state.ahead.length ≤ 2
  /-- The state remembers the token that was taken last. -/
  taken : log.state.last = log.taken.getLast?
  /-- A call that only looks does not disturb what is consumed behind it. -/
  undisturbed : ∀ request : Request, request.looks = true →
    State.Undisturbed log.state (request.reader.run log.state).2
      (raisedBy (request.reader.run log.state).1)

/-- **Looking ahead loses, doubles and reorders nothing.** Behind any sequence of calls on a source,
whether they fail or not, the tokens that were taken, followed by the at most two that are kept, are
the tokens that the scanner has answered, in order; each of its faults was raised by one call; and a
call that only looks disturbs what is consumed behind it by nothing but a fault that it raises. -/
theorem lookAhead_faithful (source : String) (requests : List Request) :
    ∃ asked, ((State.start (scan source)).serve requests).Faithful source asked := by
  obtain ⟨asked, serves⟩ := (State.start (scan source)).serves_serve requests
  refine ⟨asked, ?_, ?_, ?_, serves.few, ?_, ?_⟩
  · rw [← State.offers_start]
    exact serves.queue
  · rw [← State.offers_start]
    exact serves.raised
  · intro place
    rw [← State.offered_start]
    exact serves.offered place
  · rw [serves.taken]
    cases ((State.start (scan source)).serve requests).taken.getLast? <;> rfl
  · intro request looks
    exact State.undisturbed_of_looks looks _

/-- Looking for an attribute in front of a character that starts no token: the fault is raised once,
by the first look behind it, and the identifier is kept. -/
example :
    let log := (State.start (scan "lanes $= 4")).serve [.atAttribute, .atAttribute, .consume, .peek]
    log.taken.map (·.lexeme) = ["lanes"] ∧ log.raised.map (·.error) = [.unexpected '$'] ∧
      log.state.ahead.map (·.lexeme) = ["="] := by
  decide +kernel

end Grammar
end InstructionSet
