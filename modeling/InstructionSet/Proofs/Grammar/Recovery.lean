import InstructionSet.Proofs.Grammar.Endings
import InstructionSet.Proofs.Grammar.Segments

/-!
# Going on behind a fault

A directive that is at fault is reported, and reading goes on at the next colon. A reader that
refuses a token has taken it, and when this token is the colon of the next segment (`Overruns`),
reading goes on one segment too late: the next segment is skipped, whatever is wrong with it. So
fewer issues may be reported than there are segments at fault (`Document.parse_unopened`).

Nothing else is lost. A segment can only be skipped behind one that is reported and that overruns
(`recovers_outcomes`), so at least every second fault is reported, and every fault of a segment that
is not behind such a one (`Document.parse_reports`).
-/

namespace InstructionSet.Grammar

open InstructionSet.Text InstructionSet.Scanner

set_option autoImplicit false

/-! ## What is skipped -/

/-- In front of some colon, reading the segment as a directive takes the colon too. -/
def Overruns (segment : List Token) : Prop :=
  ∃ (state : State) (colon : Token) (behind : List Token), colon.kind = .colon ∧
    state.Holds (segment ++ colon :: behind) ∧ (Reader.directive.run state).2.Holds behind

theorem State.Holds.unique {state : State} {first second : List Token} (one : state.Holds first)
    (other : state.Holds second) : first = second :=
  tokens_inj (one.upcoming.symm.trans other.upcoming)

/-- A lookup table whose name was met before is refused at its name. -/
theorem lookupTable_repeated {state : State} {mark keyword name : Token} {tokens : List Token}
    (isMark : mark.kind = .colon) (isKeyword : keyword.kind = .identifier)
    (isLut : keyword.lexeme = "lut") (named : isName name) (met : name.lexeme ∈ state.tables)
    (holds : state.Holds (mark :: keyword :: name :: tokens)) :
    (Reader.directive.run state).2.Holds tokens := by
  obtain ⟨first, ranMark, passesMark⟩ := Reader.expect_run holds isMark .directiveMark
  have holdsKeyword := passesMark.holds holds
  obtain ⟨second, ranKeyword, passesKeyword⟩ :=
    Reader.identifier_run holdsKeyword isKeyword .directive
  have holdsName := passesKeyword.holds holdsKeyword
  obtain ⟨third, ranName, passesName⟩ := Reader.name_run holdsName named .lookupTable
  have still : name.lexeme ∈ third.tables := by
    rw [passesName.tables, passesKeyword.tables, passesMark.tables]
    exact met
  have repeated : (Reader.declareTable name.lexeme).run third = (.ok false, third) := by
    simp only [Reader.declareTable, if_pos still]
  have ran : Reader.directive.run state =
      (.error (.grammar (.lookupTableRepeated name.lexeme)), third) := by
    rw [Reader.directive, Reader.run_bind_of_ok ranMark, Reader.run_bind_of_ok ranKeyword, isLut,
      Reader.directiveNamed, Reader.run_bind, Reader.lookupTable, Reader.run_bind_of_ok ranName,
      Reader.run_bind_of_ok repeated]
    rfl
  rw [ran]
  exact passesName.holds holdsName

/-- What can be read does not overrun, not even where its lookup table has been met before. -/
theorem DirectivePhrase.not_overruns {directive : Directive} {segment : List Token}
    (phrase : DirectivePhrase directive segment) : ¬ Overruns segment := by
  rintro ⟨state, colon, behind, isColon, holds, leaves⟩
  by_cases areNew : ∀ name ∈ tableNames directive, name ∉ state.tables
  · have ended : frontKind (colon :: behind) = .colon ∨ frontKind (colon :: behind) = .finish :=
      .inl isColon
    obtain ⟨next, ran, passes⟩ := Reader.directive_run phrase areNew ended holds
    rw [ran] at leaves
    exact List.cons_ne_self _ _ ((passes.holds (holds.noting _)).unique leaves)
  · cases phrase with
    | @directive tokens mark keyword isMark isKeyword named =>
        generalize isLut : keyword.lexeme = word at named
        cases named with
        | @lookupTable values constants name brace named isOpen phrase =>
            have met : name.lexeme ∈ state.tables := by
              simpa [tableNames, Directive.lookupTable?] using areNew
            have here : (Reader.directive.run state).2.Holds
                (brace :: (constants ++ colon :: behind)) :=
              lookupTable_repeated isMark isKeyword isLut named met holds
            have shorter := congrArg List.length (here.unique leaves)
            simp only [List.length_cons, List.length_append] at shorter
            omega
        | enumeration => exact areNew fun _ member => by cases member
        | bare => exact areNew fun _ member => by cases member
        | instruction => exact areNew fun _ member => by cases member
        | group => exact areNew fun _ member => by cases member

/-- How segments are read one after the other, with the number of those that are reported. -/
inductive Recovers : List (List Token) → Nat → Prop where
  /-- Nothing is left to read. -/
  | done : Recovers [] 0
  /-- The first segment is read. -/
  | read {segments : List (List Token)} {count : Nat} {directive : Directive}
      (segment : List Token) (phrase : DirectivePhrase directive segment)
      (behind : Recovers segments count) : Recovers (segment :: segments) count
  /-- The first segment is reported. -/
  | reported {segments : List (List Token)} {count : Nat} (segment : List Token)
      (behind : Recovers segments count) : Recovers (segment :: segments) (count + 1)
  /-- The first segment is reported and overruns, and the one behind it is skipped. -/
  | skipped {segments : List (List Token)} {count : Nat} (segment hidden : List Token)
      (overruns : Overruns segment) (behind : Recovers segments count) :
      Recovers (segment :: hidden :: segments) (count + 1)

/-! ## Segments of what is left to read -/

theorem segments_phrase {directive : Directive} {phrase rest : List Token}
    (reads : DirectivePhrase directive phrase)
    (boundary : ∀ token later, rest = token :: later → token.kind = .colon) :
    segments (phrase ++ rest) = phrase :: segments rest := by
  obtain ⟨mark, inner, rfl, isMark, inside⟩ := reads.inside
  have nothing : leading rest = [] := by
    cases rest with
    | nil => rfl
    | cons token later => simp [leading, boundary token later rfl]
  rw [List.cons_append, segments, if_pos isMark, leading_append rest inside.apart, nothing,
    List.append_nil, segments_append rest inside.apart]

theorem State.Holds.rest {state last : State} {tokens taken : List Token}
    (holds : state.Holds tokens) (orderly : last.Orderly)
    (upcoming : state.upcoming = taken.map .token ++ last.upcoming) :
    ∃ rest, tokens = taken ++ rest ∧ last.Holds rest := by
  rw [holds.upcoming] at upcoming
  obtain ⟨first, rest, rfl, same, behind⟩ := List.map_eq_append_iff.1 upcoming
  obtain rfl := tokens_inj same
  exact ⟨rest, rfl, orderly, behind.symm⟩

/-- Going on behind a fault leaves the segments of what is left to read. -/
theorem State.Holds.synchronize {state : State} {tokens : List Token} (holds : state.Holds tokens) :
    ∃ rest, state.synchronize.Holds rest ∧ segments rest = segments tokens := by
  obtain ⟨skipped, upcoming, others⟩ := upcoming_synchronize holds.orderly
  rw [holds.upcoming] at upcoming
  obtain ⟨first, rest, rfl, rfl, behind⟩ := List.map_eq_append_iff.1 upcoming
  refine ⟨rest, ⟨state.reaches_synchronize.orderly holds.orderly, behind.symm⟩, ?_⟩
  have inside : Inside first := fun token member => others token (List.mem_map_of_mem member)
  exact (segments_append rest inside.apart).symm

/-! ## Reading on -/

/-- A directive that is at fault takes tokens of its segment only, or the colon behind it too. -/
theorem segments_of_refused {state middle last : State} {mark : Token} {tokens : List Token}
    {error : SyntaxError} (isMark : mark.kind = .colon) (holds : state.Holds (mark :: tokens))
    (passes : state.Passes [mark] middle)
    (same : Reader.directive.run state = Reader.behindMark.run middle)
    (ran : Reader.behindMark.run middle = (.error (.grammar error), last)) :
    ∃ rest, last.Holds rest ∧
      ((∃ segment, segments (mark :: tokens) = segment :: segments rest) ∨
        ∃ segment hidden, Overruns segment ∧
          segments (mark :: tokens) = segment :: hidden :: segments rest) := by
  have holdsMiddle : middle.Holds tokens := passes.holds holds
  have ends := Reader.careful_behindMark middle passes.orderly
  have orderly := Reader.orderly_of_run ran passes.orderly
  rw [ran] at ends
  cases ends with
  | refused taken upcoming apart =>
      obtain ⟨rest, rfl, holdsRest⟩ := holdsMiddle.rest orderly upcoming
      refine ⟨rest, holdsRest, ?_⟩
      rw [segments, if_pos isMark]
      rcases List.eq_nil_or_concat taken with rfl | ⟨front, final, rfl⟩
      · exact .inl ⟨_, rfl⟩
      rw [List.concat_eq_append, List.dropLast_concat] at apart
      rw [List.concat_eq_append, List.append_assoc, List.singleton_append] at holds ⊢
      rw [segments_append _ apart, leading_append _ apart]
      by_cases colon : final.kind = .colon
      · -- The token that was refused is the mark of the segment behind.
        have front : leading (final :: rest) = [] := by simp [leading, colon]
        rw [segments, if_pos colon, front, List.append_nil]
        refine .inr ⟨_, _, ⟨state, final, rest, colon, holds, ?_⟩, rfl⟩
        rw [same, ran]
        exact holdsRest
      · rw [segments, if_neg colon]
        exact .inl ⟨_, rfl⟩

/-- On tokens, a directive is at fault for what they are and not for how they are spelled. -/
theorem State.Holds.fault_grammar {state last : State} {tokens : List Token} {fault : Fault}
    (holds : state.Holds tokens) (read : Reader.directive.run state = (.error fault, last)) :
    ∃ error, fault = .grammar error := by
  cases fault with
  | grammar error => exact ⟨error, rfl⟩
  | spelling fault =>
      have listed := Reader.listed_of_directive holds.orderly read
      rw [holds.upcoming] at listed
      obtain ⟨_, -, impossible⟩ := List.mem_map.1 listed
      cases impossible

/-- Behind a directive at fault, what is left is read as the segments behind, and one more is
reported. -/
theorem recovers_of_fault {state last : State} {token : Token} {behind : List Token}
    {error : SyntaxError} (holds : state.Holds (token :: behind))
    (read : Reader.directive.run state = (.error (.grammar error), last)) :
    ∃ rest, last.Holds rest ∧ ∀ count, Recovers (segments rest) count →
      ∃ total, Recovers (segments (token :: behind)) total ∧ total ≤ count + 1 := by
  obtain ⟨middle, taken, passes⟩ := Reader.consume_run_of_holds holds
  have run := Reader.directive_run_of_consume taken
  by_cases isMark : token.kind = .colon
  · rw [if_pos isMark] at run
    obtain ⟨rest, holdsRest, split⟩ := segments_of_refused isMark holds passes run (run ▸ read)
    refine ⟨rest, holdsRest, ?_⟩
    intro count recovers
    refine ⟨count + 1, ?_, Nat.le_refl _⟩
    rcases split with ⟨segment, whole⟩ | ⟨segment, hidden, overruns, whole⟩
    · rw [whole]
      exact .reported segment recovers
    · rw [whole]
      exact .skipped segment hidden overruns recovers
  · -- The source starts with something else than a directive.
    rw [if_neg isMark] at run
    rw [run] at read
    cases read
    refine ⟨behind, passes.holds holds, ?_⟩
    intro count recovers
    rw [segments, if_neg isMark]
    exact ⟨count, recovers, Nat.le_succ count⟩

/-- Reading on reports every segment that is not a directive, unless it is skipped. -/
theorem recovers_outcomes {state : State} {tokens : List Token} (holds : state.Holds tokens) :
    ∃ count, Recovers (segments tokens) count ∧ count ≤ (issuesOf (outcomes state)).length := by
  fun_induction outcomes state generalizing tokens with
  | case1 state fault next peeked ih =>
      obtain ⟨token, found, looked, -⟩ := Reader.peek_run_of_holds holds
      rw [looked] at peeked
      cases peeked
  | case2 state token next peeked atEnd =>
      obtain ⟨front, found, looked, -, -, first⟩ := Reader.peek_run_of_holds holds
      cases tokens with
      | nil => exact ⟨0, .done, Nat.zero_le _⟩
      | cons mark behind =>
          rw [looked] at peeked
          cases peeked
          obtain rfl := first mark behind rfl
          refine absurd atEnd (holds.orderly.kind_ne ?_)
          rw [holds.upcoming]
          exact List.mem_cons_self
  | case3 state token next peeked inside directive last read ih =>
      have looked := (Reader.front_of_peek holds.orderly peeked).1
      obtain ⟨phrase, reads, passes, -, boundary⟩ := Reader.directive_sound looked.orderly read
      obtain ⟨rest, rfl, holdsRest⟩ :=
        (holds.of_passes_nil looked).rest passes.orderly passes.upcoming
      obtain ⟨count, recovers, reported⟩ := ih holdsRest
      refine ⟨count, ?_, reported⟩
      rw [segments_phrase reads ?_]
      · exact .read phrase reads recovers
      · rintro front later rfl
        have atBoundary := boundary holdsRest.upcoming
        have notFinish : front.kind ≠ .finish := by
          refine holdsRest.orderly.kind_ne ?_
          rw [holdsRest.upcoming]
          exact List.mem_cons_self
        simpa [isBoundary, notFinish] using atBoundary
  | case4 state token next peeked inside fault last read ih =>
      have looked := (Reader.front_of_peek holds.orderly peeked).1
      have holdsNext := holds.of_passes_nil looked
      obtain ⟨error, rfl⟩ := holdsNext.fault_grammar read
      obtain ⟨front, found, again, -, same, -⟩ := Reader.peek_run_of_holds holds
      rw [again] at peeked
      cases peeked
      cases tokens with
      | nil => exact absurd same inside
      | cons mark behind =>
          obtain ⟨rest, holdsRest, onward⟩ := recovers_of_fault holdsNext read
          obtain ⟨later, holdsLater, sameSegments⟩ := holdsRest.synchronize
          obtain ⟨count, recovers, reported⟩ := ih holdsLater
          obtain ⟨total, all, atMost⟩ := onward count (sameSegments ▸ recovers)
          refine ⟨total, all, Nat.le_trans atMost ?_⟩
          rw [issuesOf_cons_error, List.length_cons]
          exact Nat.succ_le_succ reported

/-! ## How much is reported -/

/-- Whether a segment is no document by itself. -/
def isFaulty (path : String) (finish : Position) (segment : List Token) : Bool :=
  (alone path finish segment).toOption.isNone

variable {path : String} {finish : Position} {found : List (List Token)} {count : Nat}

theorem DirectivePhrase.isFaulty_eq_false {directive : Directive} {segment : List Token}
    (phrase : DirectivePhrase directive segment) : isFaulty path finish segment = false := by
  rw [isFaulty, alone_of_phrase phrase]
  rfl

/-- At least every second fault is reported. -/
theorem Recovers.countP_le (recovers : Recovers found count) :
    found.countP (isFaulty path finish) ≤ 2 * count := by
  induction recovers with
  | done => exact Nat.le_refl 0
  | read segment phrase _ ih =>
      rw [List.countP_cons_of_neg (by simp [phrase.isFaulty_eq_false])]
      exact ih
  | reported segment _ ih =>
      rw [List.countP_cons]
      split <;> omega
  | skipped segment hidden _ _ ih =>
      rw [List.countP_cons, List.countP_cons]
      split <;> split <;> omega

/-- A segment that overruns is at fault. -/
theorem isFaulty_of_overruns {tokens segment : List Token}
    (inside : ∀ token ∈ tokens, token.kind ≠ .finish) (member : segment ∈ segments tokens)
    (overruns : Overruns segment) : isFaulty path finish segment = true := by
  cases read : alone path finish segment with
  | error failure => simp [isFaulty, read, Except.toOption]
  | ok document =>
      obtain ⟨directive, phrase⟩ := exists_phrase_of_alone inside member read
      exact absurd overruns phrase.not_overruns

/-- Every fault is reported when none stands behind a segment that overruns. -/
theorem Recovers.countP_le_of_isChain (recovers : Recovers found count)
    (apart : found.IsChain fun first second =>
      Overruns first → isFaulty path finish second = false) :
    found.countP (isFaulty path finish) ≤ count := by
  induction recovers with
  | done => exact Nat.le_refl 0
  | read segment phrase _ ih =>
      rw [List.countP_cons_of_neg (by simp [phrase.isFaulty_eq_false])]
      exact ih apart.of_cons
  | reported segment _ ih =>
      have behind := ih apart.of_cons
      rw [List.countP_cons]
      split <;> omega
  | skipped segment hidden overruns _ ih =>
      have behind := ih apart.of_cons.of_cons
      have sound : isFaulty path finish hidden = false :=
        (List.isChain_cons_cons.1 apart).1 overruns
      rw [List.countP_cons, List.countP_cons_of_neg (by simp [sound])]
      split <;> omega

end InstructionSet.Grammar

namespace InstructionSet.Document

open InstructionSet.Text InstructionSet.Scanner InstructionSet.Grammar

set_option autoImplicit false

/-- Two enumerations without a block. -/
def unopened : String := ":enum A\n:enum B"

/-- What they are scanned to. -/
def unopenedTokens : List Token :=
  [⟨.colon, ":", ⟨1, 1⟩⟩, ⟨.identifier, "enum", ⟨1, 2⟩⟩, ⟨.identifier, "A", ⟨1, 7⟩⟩,
    ⟨.colon, ":", ⟨2, 1⟩⟩, ⟨.identifier, "enum", ⟨2, 2⟩⟩, ⟨.identifier, "B", ⟨2, 7⟩⟩]

/-- The fault of the second enumeration is not reported: the colon in front of it was refused as the
block of the first one. -/
theorem parse_unopened :
    ∃ diagnostic, (scan unopened).entries = unopenedTokens.map .token ∧
      parse "" unopened = .error (.reported .parser [diagnostic]) ∧
      (segments unopenedTokens).countP (isFaulty "" .origin) = 2 := by
  let region : Region := ⟨⟨2, 1⟩, ⟨2, 2⟩⟩
  let issue : Issue := ⟨.grammar (.expected .enumerationBlock), some region⟩
  refine ⟨issue.diagnostic "", ?_, ?_, ?_⟩ <;> decide +kernel

/-- **Faults are reported, except behind a segment that overruns.** When a source without faults of
spelling is no document, at least half as many issues are reported as there are segments at fault;
and at least as many, when none of these is behind a segment that overruns. A segment that overruns
is at fault itself. -/
theorem parse_reports {path source : String} {finish : Position} {tokens : List Token}
    {failure : Failure} (entries : (scan source).entries = tokens.map .token)
    (failed : parse path source = .error failure) :
    (segments tokens).countP (isFaulty path finish) ≤ 2 * failure.diagnostics.length ∧
      ((segments tokens).IsChain (fun first second =>
          Overruns first → isFaulty path finish second = false) →
        (segments tokens).countP (isFaulty path finish) ≤ failure.diagnostics.length) ∧
      ∀ segment ∈ segments tokens, Overruns segment → isFaulty path finish segment = true := by
  have holds : (State.start (scan source)).Holds tokens :=
    ⟨State.orderly_start (endless_scan source), entries⟩
  obtain ⟨count, recovers, reported⟩ := recovers_outcomes holds
  have diagnostics : failure.diagnostics.length =
      (issuesOf (outcomes (State.start (scan source)))).length := by
    obtain ⟨-, rfl⟩ := Phase.accept_eq_error_iff.1 failed
    exact List.length_map _
  rw [diagnostics]
  refine ⟨Nat.le_trans recovers.countP_le (Nat.mul_le_mul_left 2 reported), ?_, ?_⟩
  · exact fun apart => Nat.le_trans (recovers.countP_le_of_isChain apart) reported
  · exact fun segment member => isFaulty_of_overruns (inside_of_scan entries) member

/-- Two enumerations without a block, with an instruction between them. -/
def separated : String := ":enum A\n:ins N\n:enum B"

/-- What they are scanned to. -/
def separatedTokens : List Token :=
  [⟨.colon, ":", ⟨1, 1⟩⟩, ⟨.identifier, "enum", ⟨1, 2⟩⟩, ⟨.identifier, "A", ⟨1, 7⟩⟩,
    ⟨.colon, ":", ⟨2, 1⟩⟩, ⟨.identifier, "ins", ⟨2, 2⟩⟩, ⟨.identifier, "N", ⟨2, 6⟩⟩,
    ⟨.colon, ":", ⟨3, 1⟩⟩, ⟨.identifier, "enum", ⟨3, 2⟩⟩, ⟨.identifier, "B", ⟨3, 7⟩⟩]

theorem parse_reports_separated :
    ∃ failure, parse "" separated = .error failure ∧ 2 ≤ failure.diagnostics.length := by
  have entries : (scan separated).entries = separatedTokens.map .token := by
    decide +kernel
  have faulty : (segments separatedTokens).map (isFaulty "" .origin) = [true, false, true] := by
    decide +kernel
  cases read : parse "" separated with
  | ok document =>
      have none : (parse "" separated).toOption.isNone = true := by decide +kernel
      rw [read] at none
      cases none
  | error failure =>
      obtain ⟨-, apart, overrun⟩ := @parse_reports "" separated .origin _ _ entries read
      refine ⟨failure, rfl, ?_⟩
      generalize segments separatedTokens = found at faulty apart overrun
      obtain ⟨first, second, third, rfl⟩ : ∃ first second third, found = [first, second, third] :=
        List.length_eq_three.1 (by simpa using congrArg List.length faulty)
      simp only [List.map_cons, List.map_nil, List.cons.injEq, and_true] at faulty
      obtain ⟨isFirst, isSecond, isThird⟩ := faulty
      have sound : ¬ Overruns second := by
        intro overruns
        have isFaulty := overrun second (by simp) overruns
        simp [isSecond] at isFaulty
      have neighbours : [first, second, third].IsChain fun one next =>
          Overruns one → isFaulty "" .origin next = false := by
        simp [isSecond, sound]
      simpa [List.countP_cons, isFirst, isSecond, isThird] using apart neighbours

end InstructionSet.Document
