import Mathlib.Data.List.Chain
import InstructionSet.Proofs.Grammar.Regions
import InstructionSet.Proofs.Grammar.Rounds
import InstructionSet.Proofs.Token.Order

/-!
# Issues are reported in order

An issue is reported at the token that was looked at, at the one that was taken last, or at a fault
of spelling behind both. Wherever it is, it is behind the colon at which reading had gone on before,
and not behind the boundary at which reading goes on afterwards (`lt_of_directive`,
`exists_start_le`). So between two issues there is a colon (`Divided`).

A state keeps the token taken last, what it has looked at and what it has not in the order of the
source, whatever a reader does (`State.Reaches.inOrder`). That carries both bounds from directive to
directive (`exists_ascendFrom`): no issue is reported twice and none out of order, and there are at
most as many as there are colons, and one in front of the first (`Document.parse_ascending`).
-/

namespace InstructionSet.Grammar

open InstructionSet.Text InstructionSet.Scanner

set_option autoImplicit false

/-! ## The order of what a state keeps -/

namespace State

variable {first last state : State}

/-- What is still to come, up to the end, whether it was looked at or not. -/
def rest (state : State) : List Scanned :=
  state.ahead.map .token ++ (state.pending ++ [.token (.finish state.finish)])

/-- What a state keeps is in the order of the source. -/
structure InOrder (state : State) : Prop where
  /-- What is still to come is. -/
  rest : state.rest.Pairwise Scanned.Precedes
  /-- The token that was taken last is in front of it. -/
  last : ∀ token ∈ state.last, ∀ entry ∈ state.rest, (Scanned.token token).Precedes entry

theorem inOrder_start (source : String) : (State.start (scan source)).InOrder :=
  ⟨ordered_scan source, fun _ member => by cases member⟩

/-- A move leaves what is still to come, except for what it takes or raises, and for the end, which
may be looked at again. -/
theorem Move.rest_cases (move : Move first last) :
    last.rest.Sublist first.rest ∨ last.rest = first.rest ++ [.token (.finish first.finish)] := by
  cases move with
  | look token rest next =>
      left
      simp [State.rest, next]
  | lookAtEnd next =>
      right
      simp [State.rest, next]
  | raise fault rest next =>
      left
      rw [State.rest, State.rest, next]
      exact (List.sublist_cons_self _ _).append_left _
  | take token rest next =>
      left
      rw [State.rest, State.rest, next]
      exact List.sublist_cons_self _ _
  | declare name => exact .inl (List.Sublist.refl _)

theorem finish_mem_rest (state : State) : .token (.finish state.finish) ∈ state.rest :=
  List.mem_append_right _ (List.mem_append_right _ List.mem_cons_self)

theorem Move.rest_subset (move : Move first last) : last.rest ⊆ first.rest := by
  rcases move.rest_cases with fewer | again
  · exact fewer.subset
  · rw [again]
    exact List.append_subset.2 ⟨List.Subset.refl _,
      List.cons_subset.2 ⟨first.finish_mem_rest, List.nil_subset _⟩⟩

theorem Reaches.rest_subset (moves : Reaches first last) : last.rest ⊆ first.rest := by
  induction moves with
  | refl => exact List.Subset.refl _
  | tail _ move ih => exact List.Subset.trans move.rest_subset ih

/-- The end of the source is not in front of anything else. -/
theorem InOrder.precedes_finish (ordered : state.InOrder) {entry : Scanned}
    (member : entry ∈ state.rest) : entry.Precedes (.token (.finish state.finish)) := by
  have rest := ordered.rest
  rw [State.rest, ← List.append_assoc] at rest member
  rcases List.mem_append.1 member with before | atEnd
  · exact (List.pairwise_append.1 rest).2.2 entry before _ List.mem_cons_self
  · cases List.mem_singleton.1 atEnd
    exact ⟨le_refl _, fun colon => by cases colon⟩

theorem Move.inOrder (move : Move first last) (ordered : first.InOrder) : last.InOrder where
  rest := by
    rcases move.rest_cases with fewer | again
    · exact ordered.rest.sublist fewer
    · rw [again]
      refine List.pairwise_append.2 ⟨ordered.rest, List.pairwise_singleton _ _, ?_⟩
      intro entry member other same
      cases List.mem_singleton.1 same
      exact ordered.precedes_finish member
  last := by
    have rest : last.rest ⊆ first.rest := move.rest_subset
    cases move with
    | look | lookAtEnd | raise | declare =>
        exact fun found taken entry here => ordered.last found taken entry (rest here)
    | take token others next =>
        have front := ordered.rest
        rw [State.rest, next] at front
        intro found taken
        cases taken
        exact (List.pairwise_cons.1 front).1

theorem Reaches.inOrder (moves : Reaches first last) (ordered : first.InOrder) : last.InOrder := by
  induction moves with
  | refl => exact ordered
  | tail _ move ih => exact move.inOrder ih

/-- What a state keeps has been kept before, or has been still to come. -/
theorem Reaches.kept (moves : Reaches first last) :
    ∀ token ∈ last.last, token ∈ first.last ∨ .token token ∈ first.rest := by
  induction moves with
  | refl => exact fun _ taken => .inl taken
  | @tail middle last before move ih =>
      cases move with
      | look | lookAtEnd | raise | declare => exact ih
      | take token others next =>
          intro found taken
          cases taken
          refine .inr (before.rest_subset ?_)
          rw [State.rest, next]
          exact List.mem_cons_self

/-! ## Going on at a boundary -/

theorem isBoundary_of_passAhead {taken : Option Token} {tokens behind : List Token} {mark : Token}
    (passed : (passAhead taken tokens).2 = mark :: behind) : isBoundary mark = true := by
  induction tokens generalizing taken with
  | nil => cases passed
  | cons token others ih =>
      rw [passAhead] at passed
      split at passed
      next reached =>
        cases passed
        exact reached
      next => exact ih passed

theorem isBoundary_of_passPending {taken found : Option Token} {entries behind : List Scanned}
    {mark : Token} (passed : passPending taken entries = (found, some (mark, behind))) :
    isBoundary mark = true := by
  induction entries generalizing taken with
  | nil => cases passed
  | cons entry others ih =>
      cases entry with
      | fault fault => exact ih passed
      | token token =>
          rw [passPending] at passed
          split at passed
          next reached =>
            cases passed
            exact reached
          next => exact ih passed

/-- A state in front of a boundary that was looked at. -/
structure AtMark (state : State) (mark : Token) : Prop where
  /-- It is the next token. -/
  ahead : ∃ behind, state.ahead = mark :: behind
  /-- It is a boundary. -/
  boundary : isBoundary mark = true

/-- Reading goes on at a boundary. -/
theorem exists_mark (state : State) : ∃ mark, state.synchronize.AtMark mark := by
  unfold synchronize
  split
  next taken mark behind passed =>
    exact ⟨mark, ⟨behind, rfl⟩, isBoundary_of_passAhead (congrArg Prod.snd passed)⟩
  next taken passed =>
    split
    next found mark behind passed => exact ⟨mark, ⟨[], rfl⟩, isBoundary_of_passPending passed⟩
    next found passed => exact ⟨_, ⟨[], rfl⟩, rfl⟩

theorem AtMark.peek_run {mark : Token} (atMark : state.AtMark mark) :
    Reader.peek.run state = (.ok mark, state) := by
  obtain ⟨behind, ahead⟩ := atMark.ahead
  exact Reader.peek_run_of_ahead ahead

theorem AtMark.colon {mark : Token} (atMark : state.AtMark mark) (inside : mark.kind ≠ .finish) :
    mark.kind = .colon := by
  simpa [isBoundary, inside] using atMark.boundary

theorem AtMark.mem_rest {mark : Token} (atMark : state.AtMark mark) :
    .token mark ∈ state.rest := by
  obtain ⟨behind, ahead⟩ := atMark.ahead
  rw [State.rest, ahead]
  exact List.mem_cons_self

theorem upcoming_sublist_rest (state : State) : state.upcoming.Sublist state.rest :=
  (List.filter_sublist.map _).append (List.sublist_append_left _ _)

/-- A boundary that is not the end is upcoming. -/
theorem AtMark.upcoming {mark : Token} (atMark : state.AtMark mark) (orderly : state.Orderly) :
    .token mark ∈ state.upcoming ∨ mark = .finish state.finish := by
  obtain ⟨behind, ahead⟩ := atMark.ahead
  rcases Reader.upcoming_of_ahead orderly ahead with ⟨-, whole⟩ | ⟨same, -⟩
  · rw [whole]
    exact .inl List.mem_cons_self
  · exact .inr same

/-- A fault that is raised is not behind the boundary at which reading goes on. -/
theorem Raises.le {next : State} {fault : SpellingFault} {mark : Token}
    (raises : state.Raises fault next) (orderly : state.Orderly) (ordered : state.InOrder)
    (moves : state.Reaches next) (atMark : next.synchronize.AtMark mark) :
    fault.position ≤ mark.position := by
  have listed : .fault fault ∈ state.rest := state.upcoming_sublist_rest.subset raises.listed
  have onward := next.reaches_synchronize
  have nextOrderly := moves.orderly orderly
  obtain ⟨passed, kept, behind, upcoming, still, inside⟩ := raises
  rcases atMark.upcoming (onward.orderly nextOrderly) with here | atEnd
  · obtain ⟨skipped, whole, -⟩ := upcoming_synchronize nextOrderly
    have later : .token mark ∈ kept.map .token ++ behind := by
      rw [← still, whole]
      exact List.mem_append_right _ here
    have pairs := ordered.rest.sublist state.upcoming_sublist_rest
    rw [upcoming] at pairs
    rcases List.mem_append.1 later with among | among
    · -- What was looked at in front of the fault is no boundary.
      obtain ⟨token, looked, same⟩ := List.mem_map.1 among
      cases same
      cases atMark.boundary.symm.trans (inside mark looked)
    · exact ((List.pairwise_cons.1 (List.pairwise_append.1 pairs).2.1).1 _ among).le
  · rw [atEnd, onward.finish_eq, moves.finish_eq]
    exact (ordered.precedes_finish listed).le

/-- Where a token has been looked at or taken, it is reported, and is not behind anything that is
still to come. -/
theorem exists_reported (ordered : state.InOrder) (touched : state.Touched) :
    ∃ token, state.region? = some token.region ∧
      (token ∈ state.last ∨ .token token ∈ state.rest) ∧
        ∀ entry ∈ state.rest, token.position ≤ entry.position := by
  have rest := ordered.rest
  unfold region?
  cases ahead : state.ahead with
  | cons token behind =>
      rw [State.rest, ahead] at rest ⊢
      refine ⟨token, rfl, .inr List.mem_cons_self, List.forall_mem_cons.2 ⟨le_refl _, ?_⟩⟩
      exact fun entry member => ((List.pairwise_cons.1 rest).1 entry member).le
  | nil =>
      cases taken : state.last with
      | some token =>
          exact ⟨token, rfl, .inl rfl, fun entry member =>
            (ordered.last token taken entry member).le⟩
      | none => exact absurd touched (by simp [Touched, ahead, taken])

end State

/-! ## Where issues are reported -/

/-- The position at which an issue is reported. -/
def Issue.start? (issue : Issue) : Option Position :=
  match issue.fault with
  | .spelling fault => some fault.position
  | .grammar _ => issue.region.map (·.start)

theorem Issue.start_diagnostic (path : String) (issue : Issue) :
    (issue.diagnostic path).span.map (·.start) = issue.start? := by
  obtain ⟨fault, region⟩ := issue
  cases fault with
  | spelling fault => rfl
  | grammar error => cases region <;> rfl

variable {state next : State} {mark : Token}

/-- An issue is reported, and not behind the boundary at which reading goes on. -/
theorem exists_start_le (fault : Fault) (orderly : state.Orderly) (ordered : state.InOrder)
    (moves : state.Reaches next) (touched : ∀ error, fault = .grammar error → next.Touched)
    (raises : ∀ found, fault = .spelling found → state.Raises found next)
    (atMark : next.synchronize.AtMark mark) :
    ∃ start, Issue.start? ⟨fault, next.region?⟩ = some start ∧ start ≤ mark.position := by
  cases fault with
  | spelling fault =>
      exact ⟨fault.position, rfl, (raises fault rfl).le orderly ordered moves atMark⟩
  | grammar error =>
      obtain ⟨token, region, -, before⟩ :=
        State.exists_reported (moves.inOrder ordered) (touched error rfl)
      rw [region]
      exact ⟨token.position, rfl, before _ (next.reaches_synchronize.rest_subset atMark.mem_rest)⟩

namespace Reader

/-- The token that is taken was still to come, and is remembered. -/
theorem rest_of_consume {token : Token} (ran : consume.run state = (.ok token, next)) :
    next.last = some token ∧ .token token ∈ state.rest ∧ next.rest ⊆ state.rest := by
  have taken := reaches_of_run ran
  simp only [consume] at ran
  split at ran
  next front middle looked =>
    cases ran
    have looks := reaches_of_run looked
    obtain ⟨behind, ahead⟩ := peek_run_ok looked
    refine ⟨rfl, looks.rest_subset ?_, taken.rest_subset⟩
    rw [State.rest, ahead]
    exact List.mem_cons_self
  next => cases ran

theorem spelling_of_consume {fault : Fault} (ran : consume.run state = (.error fault, next)) :
    ∃ found, fault = .spelling found := by
  simp only [consume] at ran
  split at ran
  next => cases ran
  next raised middle looked =>
    cases ran
    obtain ⟨found, same, -⟩ := raised_of_peek looked
    exact ⟨found, same⟩

/-- What is refused behind the mark of a directive has taken a token there. -/
theorem exists_taken_of_behindMark {error : SyntaxError}
    (ran : behindMark.run state = (.error (.grammar error), next)) :
    ∃ token after, consume.run state = (.ok token, after) ∧ after.Reaches next := by
  rw [behindMark, run_bind, identifier, run_bind] at ran
  cases taken : consume.run state with
  | mk result after =>
      rw [taken] at ran
      cases result with
      | error fault =>
          obtain ⟨found, rfl⟩ := spelling_of_consume taken
          cases ran
      | ok token =>
          refine ⟨token, after, rfl, ?_⟩
          simp only at ran
          by_cases isName : token.kind = .identifier
          · rw [if_pos isName, run_pure] at ran
            exact reaches_of_run ran
          · rw [if_neg isName] at ran
            cases ran
            exact .refl _

/-- What is refused behind a colon is reported behind it. -/
theorem lt_of_behindMark {error : SyntaxError} (ordered : state.InOrder)
    (last : state.last = some mark) (colon : mark.kind = .colon)
    (ran : behindMark.run state = (.error (.grammar error), next)) :
    ∃ token : Token, next.region? = some token.region ∧ mark.position < token.position := by
  obtain ⟨token, after, taken, moves⟩ := exists_taken_of_behindMark ran
  obtain ⟨remembered, listed, fewer⟩ := rest_of_consume taken
  have takes := reaches_of_run taken
  have touched : after.Touched := .inr (by simp [remembered])
  obtain ⟨reported, region, whence, -⟩ :=
    State.exists_reported ((takes.trans moves).inOrder ordered) (moves.touched touched)
  -- Whatever is reported was still to come behind the colon.
  have behind : .token reported ∈ state.rest := by
    rcases whence with here | later
    · rcases moves.kept reported here with same | came
      · rw [remembered] at same
        cases same
        exact listed
      · exact fewer came
    · exact fewer (moves.rest_subset later)
  exact ⟨reported, region, (ordered.last mark last _ behind).lt (decide_eq_true colon)⟩

end Reader

/-- A directive at a colon is read behind it. -/
theorem State.AtMark.exists_behindMark {result : Except Fault Directive}
    (atMark : state.AtMark mark) (colon : mark.kind = .colon)
    (read : Reader.directive.run state = (result, next)) :
    ∃ middle, state.Reaches middle ∧ middle.last = some mark ∧
      state.upcoming = .token mark :: middle.upcoming ∧
        Reader.behindMark.run middle = (result, next) := by
  obtain ⟨behind, ahead⟩ := atMark.ahead
  rw [Reader.directive_run_of_consume (Reader.consume_run_of_ahead ahead), if_pos colon] at read
  refine ⟨_, (State.Move.take state mark behind ahead).reaches, rfl, ?_, read⟩
  simp [State.upcoming, ahead, colon]

/-- What is still to come behind a directive is behind its mark. -/
theorem State.AtMark.lt {result : Except Fault Directive} (atMark : state.AtMark mark)
    (ordered : state.InOrder) (colon : mark.kind = .colon)
    (read : Reader.directive.run state = (result, next)) {entry : Scanned}
    (member : entry ∈ next.rest) : mark.position < entry.position := by
  obtain ⟨middle, takes, last, -, read⟩ := atMark.exists_behindMark colon read
  have listed := (Reader.reaches_of_run read).rest_subset member
  exact ((takes.inOrder ordered).last mark last entry listed).lt (decide_eq_true colon)

/-- A directive that is at fault is reported behind its mark. -/
theorem lt_of_directive {fault : Fault} {start : Position} (orderly : state.Orderly)
    (ordered : state.InOrder) (atMark : state.AtMark mark) (colon : mark.kind = .colon)
    (read : Reader.directive.run state = (.error fault, next))
    (reported : Issue.start? ⟨fault, next.region?⟩ = some start) : mark.position < start := by
  cases fault with
  | spelling fault =>
      cases reported
      obtain ⟨behind, ahead⟩ := atMark.ahead
      have listed := state.upcoming_sublist_rest.subset (Reader.listed_of_directive orderly read)
      have rest := ordered.rest
      rw [State.rest, ahead] at listed rest
      rcases List.mem_cons.1 listed with same | later
      · cases same
      · exact ((List.pairwise_cons.1 rest).1 _ later).lt (decide_eq_true colon)
  | grammar error =>
      obtain ⟨middle, takes, last, -, read⟩ := atMark.exists_behindMark colon read
      obtain ⟨token, region, past⟩ :=
        Reader.lt_of_behindMark (takes.inOrder ordered) last colon read
      rw [region] at reported
      cases reported
      exact past

/-! ## Behind a directive -/

namespace Reader

/-- A loop that answers has ended in a round that says so. -/
theorem Repeats.exists_done {α β : Type} {round : α → Reader (Round α β)} {count : Nat} {value : α}
    {outcome : Except Fault β × State} (repeats : Repeats round count value state outcome)
    {result : β} (ends : outcome = (.ok result, next)) :
    ∃ found middle, (round found).run middle = (.ok (.done result), next) := by
  induction repeats with
  | done ran =>
      cases ends
      exact ⟨_, _, ran⟩
  | fault => cases ends
  | again _ _ ih => exact ih ends

/-- Where nothing is taken any more inside a directive, a boundary has been looked at. -/
theorem exists_mark_of_insideDirective? (ran : insideDirective?.run state = (.ok none, next)) :
    ∃ mark, next.AtMark mark := by
  obtain ⟨token, looked, peeked, answered⟩ := run_bind_ok ran
  split at answered
  next atBoundary =>
    cases answered
    refine ⟨token, peek_run_ok peeked, ?_⟩
    rcases atBoundary with finish | colon
    · simp [isBoundary, finish]
    · simp [isBoundary, colon]
  next =>
    obtain ⟨taken, after, -, impossible⟩ := run_bind_ok answered
    cases impossible

theorem exists_mark_of_boundary {name : String} {ended : Unit}
    (ran : (boundary name).run state = (.ok ended, next)) : ∃ mark, next.AtMark mark := by
  obtain ⟨lexemes, after, looped, answered⟩ := run_bind_ok ran
  obtain ⟨count, -, repeats⟩ := exists_repeats progresses_nextTrailing [] state
  obtain ⟨found, middle, last⟩ := repeats.exists_done looped
  obtain ⟨token?, behind, inside, round⟩ := run_bind_ok last
  cases token? with
  | some token => cases round
  | none =>
      cases round
      split at answered
      next =>
        cases answered
        exact exists_mark_of_insideDirective? inside
      next => cases answered

/-- Behind a directive, the boundary has been looked at. -/
theorem exists_mark_of_directive {found : Directive}
    (ran : directive.run state = (.ok found, next)) : ∃ mark, next.AtMark mark := by
  obtain ⟨_, behindColon, -, ran⟩ := run_bind_ok ran
  obtain ⟨name, behindName, -, ran⟩ := run_bind_ok ran
  obtain ⟨_, behindBody, -, ran⟩ := run_bind_ok ran
  obtain ⟨_, behind, ended, ran⟩ := run_bind_ok ran
  cases ran
  exact exists_mark_of_boundary ended

end Reader

/-! ## The colons of what is upcoming -/

namespace State

variable {first last : State}

theorem Move.upcoming_sublist (move : Move first last) :
    last.upcoming.Sublist first.upcoming := by
  cases move with
  | look token others next =>
      simp only [upcoming, next, List.filter_append, List.map_append, List.append_assoc]
      refine List.Sublist.append_left ?_ _
      exact (List.filter_sublist.map _).append_right _
  | lookAtEnd next => simp [upcoming, Token.finish]
  | raise fault others next =>
      rw [upcoming, upcoming, next]
      exact (List.sublist_cons_self _ _).append_left _
  | take token others next =>
      rw [upcoming, upcoming, next]
      exact (((List.sublist_cons_self _ _).filter _).map _).append_right _
  | declare name => exact List.Sublist.refl _

theorem Reaches.upcoming_sublist (moves : Reaches first last) :
    last.upcoming.Sublist first.upcoming := by
  induction moves with
  | refl => exact List.Sublist.refl _
  | tail _ move ih => exact move.upcoming_sublist.trans ih

/-- The number of colons that are not taken yet. -/
def colons (state : State) : Nat :=
  state.upcoming.countP (·.isColon)

theorem Reaches.colons_le (moves : Reaches first last) : last.colons ≤ first.colons :=
  moves.upcoming_sublist.countP_le

/-- Reading a directive takes its mark. -/
theorem AtMark.colons_lt {result : Except Fault Directive} (atMark : state.AtMark mark)
    (colon : mark.kind = .colon) (read : Reader.directive.run state = (result, next)) :
    next.colons < state.colons := by
  obtain ⟨middle, -, -, taken, read⟩ := atMark.exists_behindMark colon read
  refine Nat.lt_of_le_of_lt (Reader.reaches_of_run read).colons_le ?_
  have isColon : (Scanned.token mark).isColon = true := decide_eq_true colon
  rw [colons, colons, taken, List.countP_cons_of_pos isColon]
  exact Nat.lt_succ_self _

end State

/-! ## One issue behind the other -/

/-- A colon stands between two positions, be it at the first of them. -/
def Divided (entries : List Scanned) (first second : Position) : Prop :=
  ∃ entry ∈ entries, entry.isColon = true ∧ first ≤ entry.position ∧ entry.position < second

theorem Divided.lt {entries : List Scanned} {first second : Position}
    (divided : Divided entries first second) : first < second := by
  obtain ⟨entry, -, -, before, behind⟩ := divided
  exact lt_of_le_of_lt before behind

theorem Divided.mono {entries more : List Scanned} {first second : Position}
    (divided : Divided entries first second) (within : entries ⊆ more) :
    Divided more first second := by
  obtain ⟨entry, member, between⟩ := divided
  exact ⟨entry, within member, between⟩

/-- Issues are reported at positions one behind the other. -/
structure Ascend (entries : List Scanned) (count : Nat) (issues : List Issue)
    (starts : List Position) : Prop where
  /-- The positions are those of the issues. -/
  start : issues.map (·.start?) = starts.map some
  /-- There is a colon between any two of them. -/
  divided : starts.IsChain (Divided entries)
  /-- There are no more of them than so many. -/
  few : starts.length ≤ count

/-- From a boundary on, issues are reported one behind the other, and no more of them than there
are colons. -/
structure AscendFrom (mark : Token) (state : State) (starts : List Position) : Prop extends
    Ascend state.upcoming state.colons (issuesOf (outcomes state)) starts where
  /-- The first of them is behind the boundary, which is a colon. -/
  behind : ∀ start ∈ starts.head?, mark.kind = .colon ∧ mark.position < start

/-- An issue that is not behind the boundary at which reading goes on is in front of the others. -/
theorem AscendFrom.report {last : State} {starts : List Position} {issue : Issue} {start : Position}
    {count : Nat} (later : AscendFrom mark last.synchronize starts) (orderly : last.Orderly)
    (atMark : last.synchronize.AtMark mark) (reported : issue.start? = some start)
    (before : start ≤ mark.position) (moves : state.Reaches last) (few : last.colons < count) :
    Ascend state.upcoming count (issue :: issuesOf (outcomes last.synchronize))
      (start :: starts) where
  start := by rw [List.map_cons, List.map_cons, reported, later.start]
  divided := by
    have onward := last.reaches_synchronize
    have within := (moves.trans onward).upcoming_sublist.subset
    refine List.isChain_cons.2 ⟨fun second first => ?_, ?_⟩
    · obtain ⟨colon, past⟩ := later.behind second first
      rcases atMark.upcoming (onward.orderly orderly) with here | atEnd
      · exact ⟨.token mark, within here, decide_eq_true colon, before, past⟩
      · rw [atEnd] at colon
        cases colon
    · exact later.divided.imp fun _ _ divided => divided.mono within
  few := by
    have fewer := last.reaches_synchronize.colons_le
    have others := later.few
    rw [List.length_cons]
    omega

/-- An issue is reported in front of the others, if these are reported one behind the other from the
boundary on at which reading goes on. -/
theorem exists_report (fault : Fault) {last : State} {count : Nat} (orderly : state.Orderly)
    (ordered : state.InOrder) (moves : state.Reaches last)
    (touched : ∀ error, fault = .grammar error → last.Touched)
    (raises : ∀ found, fault = .spelling found → state.Raises found last)
    (few : last.colons < count)
    (later : ∀ mark, last.synchronize.AtMark mark →
      ∃ starts, AscendFrom mark last.synchronize starts) :
    ∃ start starts, Issue.start? ⟨fault, last.region?⟩ = some start ∧
      Ascend state.upcoming count
        (⟨fault, last.region?⟩ :: issuesOf (outcomes last.synchronize)) (start :: starts) := by
  obtain ⟨mark, atMark⟩ := last.exists_mark
  obtain ⟨starts, others⟩ := later mark atMark
  obtain ⟨start, reported, before⟩ :=
    exists_start_le fault orderly ordered moves touched raises atMark
  exact ⟨start, starts, reported,
    others.report (moves.orderly orderly) atMark reported before moves few⟩

/-- From a boundary on, issues are reported in order. -/
theorem exists_ascendFrom (orderly : state.Orderly) (ordered : state.InOrder)
    (atMark : state.AtMark mark) : ∃ starts, AscendFrom mark state starts := by
  induction state using outcomes.induct generalizing mark with
  | case1 state fault next peeked ih =>
      rw [atMark.peek_run] at peeked
      cases peeked
  | case2 state token next peeked atEnd =>
      refine ⟨[], ⟨?_, .nil, Nat.zero_le _⟩, fun _ member => by cases member⟩
      rw [outcomes_of_finish peeked atEnd]
      rfl
  | case3 state token next peeked inside directive last read ih =>
      have looked := atMark.peek_run
      rw [looked] at peeked
      cases peeked
      have colon := atMark.colon inside
      have moves := Reader.reaches_of_run read
      obtain ⟨further, atFurther⟩ := Reader.exists_mark_of_directive read
      obtain ⟨starts, ascend⟩ := ih (moves.orderly orderly) (moves.inOrder ordered) atFurther
      have same : issuesOf (outcomes state) = issuesOf (outcomes last) := by
        rw [outcomes_of_directive looked inside read, issuesOf_cons_ok]
      have within := moves.upcoming_sublist.subset
      refine ⟨starts, ⟨same ▸ ascend.start, ?_, Nat.le_trans ascend.few moves.colons_le⟩, ?_⟩
      · exact ascend.divided.imp fun _ _ divided => divided.mono within
      · intro start first
        have past := atMark.lt ordered colon read atFurther.mem_rest
        exact ⟨colon, lt_trans past (ascend.behind start first).2⟩
  | case4 state token next peeked inside fault last read ih =>
      have looked := atMark.peek_run
      rw [looked] at peeked
      cases peeked
      have colon := atMark.colon inside
      have moves := Reader.reaches_of_run read
      have onward := moves.trans last.reaches_synchronize
      have touched : state.Touched := by
        obtain ⟨behind, ahead⟩ := atMark.ahead
        exact .inl (by simp [ahead])
      obtain ⟨start, starts, reported, ascend⟩ := exists_report fault orderly ordered moves
        (fun _ _ => moves.touched touched)
        (fun found same => Reader.raises_of_directive orderly (same ▸ read))
        (atMark.colons_lt colon read)
        fun mark => ih (onward.orderly orderly) (onward.inOrder ordered)
      refine ⟨start :: starts, ?_, fun first same => ?_⟩
      · rw [outcomes_of_refused looked inside read, issuesOf_cons_error]
        exact ascend
      · cases same
        exact ⟨colon, lt_of_directive orderly ordered atMark colon read reported⟩

/-! ## Sources -/

theorem outcomes_of_looked {token : Token} (looked : Reader.peek.run state = (.ok token, next)) :
    outcomes state = outcomes next := by
  obtain ⟨behind, ahead⟩ := Reader.peek_run_ok looked
  have again := Reader.peek_run_of_ahead ahead
  by_cases atEnd : token.kind = .finish
  · rw [outcomes_of_finish looked atEnd, outcomes_of_finish again atEnd]
  · cases read : Reader.directive.run next with
    | mk result last =>
        cases result with
        | ok found =>
            rw [outcomes_of_directive looked atEnd read, outcomes_of_directive again atEnd read]
        | error fault =>
            rw [outcomes_of_refused looked atEnd read, outcomes_of_refused again atEnd read]

/-- What stands in front of the first colon. -/
def preface (entries : List Scanned) : List Scanned :=
  entries.takeWhile fun entry => !entry.isColon

/-- One issue for each colon, and one for what stands in front of the first. -/
def mostIssues (entries : List Scanned) : Nat :=
  entries.countP (·.isColon) + if preface entries = [] then 0 else 1

theorem colons_lt_mostIssues {entry : Scanned} {entries : List Scanned}
    (upcoming : state.upcoming = entry :: entries) (other : entry.isColon = false)
    (moves : state.Reaches next) : next.colons < mostIssues state.upcoming := by
  have opens : preface state.upcoming ≠ [] := by simp [preface, upcoming, other]
  rw [mostIssues, if_neg opens]
  exact Nat.lt_succ_of_le moves.colons_le

/-- The issues of a source are reported in order. -/
theorem exists_ascend (orderly : state.Orderly) (ordered : state.InOrder) :
    ∃ starts, Ascend state.upcoming (mostIssues state.upcoming) (issuesOf (outcomes state))
      starts := by
  cases looked : Reader.peek.run state with
  | mk result next =>
      have looks := Reader.reaches_of_run looked
      cases result with
      | error fault =>
          -- The source starts with a fault of spelling.
          obtain ⟨found, rfl, upcoming⟩ := Reader.raised_of_peek looked
          have onward := looks.trans next.reaches_synchronize
          obtain ⟨start, starts, -, ascend⟩ := exists_report (.spelling found) orderly ordered looks
            (fun _ impossible => by cases impossible)
            (fun other same => by
              cases same
              exact Reader.raises_of_peek looked)
            (colons_lt_mostIssues upcoming rfl looks)
            fun mark => exists_ascendFrom (onward.orderly orderly) (onward.inOrder ordered)
          rw [outcomes_of_fault looked, issuesOf_cons_error]
          exact ⟨_, ascend⟩
      | ok token =>
          obtain ⟨passes, front⟩ := Reader.front_of_peek orderly looked
          obtain ⟨behind, ahead⟩ := Reader.peek_run_ok looked
          by_cases atEnd : token.kind = .finish
          · refine ⟨[], ?_, .nil, Nat.zero_le _⟩
            rw [outcomes_of_finish looked atEnd]
            rfl
          by_cases colon : token.kind = .colon
          · have same : state.upcoming = next.upcoming := passes.upcoming
            obtain ⟨starts, ascend⟩ := exists_ascendFrom passes.orderly (looks.inOrder ordered)
              ⟨⟨behind, ahead⟩, by simp [isBoundary, colon]⟩
            rw [outcomes_of_looked looked, same]
            exact ⟨starts, ascend.start, ascend.divided,
              Nat.le_trans ascend.few (Nat.le_add_right _ _)⟩
          · -- The source starts with a token that is no colon, which is refused and reported.
            have read := Reader.directive_run_of_consume (Reader.consume_run_of_ahead ahead)
            rw [if_neg colon] at read
            have moves := looks.trans (Reader.reaches_of_run read)
            have onward := moves.trans (State.reaches_synchronize _)
            obtain ⟨entries, upcoming⟩ := Reader.upcoming_of_front atEnd front
            obtain ⟨start, starts, -, ascend⟩ :=
              exists_report (.grammar (.expected .directiveMark)) orderly ordered moves
                (fun _ _ => .inr (Option.some_ne_none token))
                (fun _ impossible => by cases impossible)
                (colons_lt_mostIssues upcoming (decide_eq_false colon) moves)
                fun mark => exists_ascendFrom (onward.orderly orderly) (onward.inOrder ordered)
            rw [outcomes_of_refused looked atEnd read, issuesOf_cons_error]
            exact ⟨_, ascend⟩

end InstructionSet.Grammar

namespace InstructionSet.Document

open InstructionSet.Text InstructionSet.Scanner InstructionSet.Grammar

set_option autoImplicit false

/-- **Issues are reported in the order of the source.** When a source is no document, each of its
diagnostics points to a position, and these ascend by line and column. Between any two of them there
is a colon, be it at the first of them; and there are no more diagnostics than colons, and one for
what stands in front of the first colon. -/
theorem parse_ascending {path source : String} {failure : Failure}
    (failed : parse path source = .error failure) :
    ∃ starts : List Position,
      failure.diagnostics.map (fun diagnostic => diagnostic.span.map (·.start)) =
          starts.map some ∧
        starts.Pairwise (· < ·) ∧ starts.IsChain (Divided (scan source).entries) ∧
          failure.diagnostics.length ≤ (scan source).entries.countP (·.isColon) +
            if preface (scan source).entries = [] then 0 else 1 := by
  have orderly := State.orderly_start (endless_scan source)
  obtain ⟨starts, ascend⟩ := exists_ascend orderly (State.inOrder_start source)
  have reported : failure.diagnostics =
      (issuesOf (outcomes (State.start (scan source)))).map (·.diagnostic path) := by
    obtain ⟨-, rfl⟩ := Phase.accept_eq_error_iff.1 failed
    rfl
  have positions : failure.diagnostics.map (fun diagnostic => diagnostic.span.map (·.start)) =
      starts.map some := by
    rw [reported, List.map_map, ← ascend.start]
    exact List.map_congr_left fun issue _ => issue.start_diagnostic path
  refine ⟨starts, positions, ?_, ascend.divided, ?_⟩
  · exact List.isChain_iff_pairwise.1 (ascend.divided.imp fun _ _ divided => divided.lt)
  · have same := congrArg List.length positions
    rw [List.length_map, List.length_map] at same
    rw [same]
    exact ascend.few

/-- A character that starts no token, and three directives of which two are enumerations without a
block. -/
def misspelled : String := "?\n:enum A\n:ins N\n:enum B"

/-- What is reported of them: the first enumeration at the colon that it takes for its block, and
the second one at the end of the source. -/
def misspelledIssues : List Issue :=
  [⟨.spelling ⟨.unexpected '?', ⟨1, 1⟩⟩, none⟩,
    ⟨.grammar (.expected .enumerationBlock), some ⟨⟨3, 1⟩, ⟨3, 2⟩⟩⟩,
    ⟨.grammar (.expected .enumerationBlock), some (.point ⟨4, 8⟩)⟩]

theorem parse_ascending_misspelled :
    ∃ failure, parse "" misspelled = .error failure ∧
      failure.diagnostics.map (fun diagnostic => diagnostic.span.map (·.start)) =
          [some ⟨1, 1⟩, some ⟨3, 1⟩, some ⟨4, 8⟩] ∧
        ([⟨1, 1⟩, ⟨3, 1⟩, ⟨4, 8⟩] : List Position).Pairwise (· < ·) ∧
          failure.diagnostics.length ≤ 4 := by
  have failed : parse "" misspelled =
      .error (.reported .parser (misspelledIssues.map (·.diagnostic ""))) := by decide +kernel
  have most : (scan misspelled).entries.countP (·.isColon) +
      (if preface (scan misspelled).entries = [] then 0 else 1) = 4 := by decide +kernel
  obtain ⟨starts, positions, ascending, -, few⟩ := parse_ascending failed
  rw [most] at few
  have same : starts = [⟨1, 1⟩, ⟨3, 1⟩, ⟨4, 8⟩] :=
    List.map_injective_iff.2 (fun _ _ => Option.some.inj) positions.symm
  rw [same] at ascending
  exact ⟨_, failed, rfl, ascending, few⟩

end InstructionSet.Document
