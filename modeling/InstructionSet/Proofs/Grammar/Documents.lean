import Mathlib.Data.List.Forall2
import InstructionSet.Proofs.Grammar.Completeness

/-!
# Documents are sequences of directives

A source is read without an issue exactly when its tokens are the phrases of directives, one behind
the other, and no two lookup tables have one name (`document_eq_ok_iff`). A fault of spelling
anywhere in the source is no token, so there is no such sequence; whatever reading does to go on
behind a fault, it has left an issue by then.
-/

namespace InstructionSet.Grammar

open InstructionSet.Text InstructionSet.Scanner

set_option autoImplicit false

/-! ## The start of a source -/

/-- Whether the mark of the end is no entry of a stream. -/
def Endless (stream : Stream) : Prop :=
  ∀ token, Scanned.token token ∈ stream.entries → token.kind ≠ .finish

theorem endless_map {tokens : List Token} (inside : ∀ token ∈ tokens, token.kind ≠ .finish)
    (finish : Position) : Endless ⟨tokens.map .token, finish⟩ := by
  intro token member
  obtain ⟨found, listed, same⟩ := List.mem_map.1 member
  cases same
  exact inside token listed

/-- Entries without a fault are entries of their tokens only. -/
theorem tokens_inj {first second : List Token}
    (same : first.map Scanned.token = second.map .token) : first = second :=
  List.map_injective_iff.2 (fun _ _ => Scanned.token.inj) same

theorem State.orderly_start {stream : Stream} (endless : Endless stream) :
    (State.start stream).Orderly :=
  ⟨⟨[], 0, rfl, fun _ member => (by cases member), .inl rfl⟩, endless⟩

theorem State.Orderly.kind_ne {state : State} (orderly : state.Orderly) {token : Token}
    (member : .token token ∈ state.upcoming) : token.kind ≠ .finish := by
  rcases List.mem_append.1 member with ahead | pending
  · obtain ⟨found, kept, same⟩ := List.mem_map.1 ahead
    cases same
    exact of_decide_eq_true (List.mem_filter.1 kept).2
  · exact orderly.pending token pending

/-! ## Sequences of phrases -/

/-- Phrases of directives, one behind the other, that declare no lookup table twice and none of
those that were met before. -/
structure Phrases (met : List String) (directives : List Directive) (phrases : List (List Token)) :
    Prop where
  read : List.Forall₂ DirectivePhrase directives phrases
  distinct : (directives.flatMap tableNames).Nodup
  areNew : ∀ name ∈ directives.flatMap tableNames, name ∉ met

theorem phrases_nil (met : List String) : Phrases met [] [] :=
  ⟨.nil, List.nodup_nil, fun _ member => by cases member⟩

theorem phrases_cons_iff {met : List String} {directive : Directive}
    {directives : List Directive} {phrase : List Token} {phrases : List (List Token)} :
    Phrases met (directive :: directives) (phrase :: phrases) ↔
      DirectivePhrase directive phrase ∧ (tableNames directive).Nodup ∧
        (∀ name ∈ tableNames directive, name ∉ met) ∧
          Phrases (tableNames directive ++ met) directives phrases := by
  constructor
  · intro whole
    obtain ⟨first, rest⟩ := List.forall₂_cons.1 whole.read
    have distinct := whole.distinct
    rw [List.flatMap_cons] at distinct
    obtain ⟨single, others, apart⟩ := List.nodup_append.1 distinct
    have areNew := whole.areNew
    rw [List.flatMap_cons] at areNew
    refine ⟨first, single, fun name member => areNew name (List.mem_append_left _ member), rest,
      others, fun name member met => ?_⟩
    rcases List.mem_append.1 met with here | before
    · exact apart name here name member rfl
    · exact areNew name (List.mem_append_right _ member) before
  · rintro ⟨first, single, areNew, rest⟩
    refine ⟨.cons first rest.read, ?_, ?_⟩
    · rw [List.flatMap_cons]
      refine List.nodup_append.2 ⟨single, rest.distinct, ?_⟩
      intro name here other later same
      exact rest.areNew other later (List.mem_append_left _ (same ▸ here))
    · rw [List.flatMap_cons]
      intro name member
      rcases List.mem_append.1 member with here | later
      · exact areNew name here
      · exact fun before => rest.areNew name later (List.mem_append_right _ before)

theorem nodup_tableNames (directive : Directive) : (tableNames directive).Nodup := by
  unfold tableNames
  cases directive.lookupTable? <;> simp

theorem frontKind_flatten {met : List String} {directives : List Directive}
    {phrases : List (List Token)} (read : Phrases met directives phrases) :
    frontKind phrases.flatten = .colon ∨ frontKind phrases.flatten = .finish := by
  cases read.read with
  | nil => exact .inr rfl
  | cons first rest =>
      obtain ⟨mark, later, rfl, isMark, -⟩ := first.inside
      exact .inl isMark

/-! ## Outcomes -/

theorem issuesOf_cons_error (issue : Issue) (later : List Outcome) :
    issuesOf (.error issue :: later) = issue :: issuesOf later := rfl

theorem issuesOf_cons_ok (directive : Directive) (later : List Outcome) :
    issuesOf (.ok directive :: later) = issuesOf later := rfl

theorem directivesOf_cons_ok (directive : Directive) (later : List Outcome) :
    directivesOf (.ok directive :: later) = directive :: directivesOf later := rfl

section Outcomes

variable {state next last : State} {token : Token}

theorem outcomes_of_fault {fault : Fault} (peeked : Reader.peek.run state = (.error fault, next)) :
    outcomes state = .error ⟨fault, next.region?⟩ :: outcomes next.synchronize := by
  rw [outcomes]
  split
  next same => rw [peeked] at same; cases same; rfl
  next same => rw [peeked] at same; cases same

theorem outcomes_of_finish (peeked : Reader.peek.run state = (.ok token, next))
    (atEnd : token.kind = .finish) : outcomes state = [] := by
  rw [outcomes]
  split
  next same => rw [peeked] at same; cases same
  next same => rw [peeked] at same; cases same; exact dif_pos atEnd

theorem outcomes_of_directive (peeked : Reader.peek.run state = (.ok token, next))
    (inside : token.kind ≠ .finish) {directive : Directive}
    (read : Reader.directive.run next = (.ok directive, last)) :
    outcomes state = .ok directive :: outcomes last := by
  rw [outcomes]
  split
  next same => rw [peeked] at same; cases same
  next same =>
    rw [peeked] at same
    cases same
    rw [dif_neg inside]
    split
    next same => rw [read] at same; cases same; rfl
    next same => rw [read] at same; cases same

theorem outcomes_of_refused (peeked : Reader.peek.run state = (.ok token, next))
    (inside : token.kind ≠ .finish) {fault : Fault}
    (read : Reader.directive.run next = (.error fault, last)) :
    outcomes state = .error ⟨fault, last.region?⟩ :: outcomes last.synchronize := by
  rw [outcomes]
  split
  next same => rw [peeked] at same; cases same
  next same =>
    rw [peeked] at same
    cases same
    rw [dif_neg inside]
    split
    next same => rw [read] at same; cases same
    next same => rw [read] at same; cases same; rfl

end Outcomes

/-- Without an issue, everything that was upcoming is the phrases of the directives. -/
theorem outcomes_sound {state : State} (orderly : state.Orderly) :
    issuesOf (outcomes state) = [] →
      ∃ phrases, state.upcoming = phrases.flatten.map .token ∧
        Phrases state.tables (directivesOf (outcomes state)) phrases := by
  fun_induction outcomes state with
  | case1 state fault next peeked ih =>
      intro clean
      rw [issuesOf_cons_error] at clean
      cases clean
  | case2 state token next peeked atEnd =>
      intro clean
      obtain ⟨-, front⟩ := Reader.front_of_peek orderly peeked
      refine ⟨[], ?_, phrases_nil _⟩
      cases upcoming : state.upcoming with
      | nil => rfl
      | cons first rest =>
          rw [upcoming] at front
          cases first with
          | fault fault => cases front
          | token first =>
              obtain rfl := Except.ok.inj front
              exact absurd atEnd (orderly.kind_ne (upcoming ▸ List.mem_cons_self))
  | case3 state token next peeked inside directive last read ih =>
      intro clean
      rw [issuesOf_cons_ok] at clean
      have looked := (Reader.front_of_peek orderly peeked).1
      obtain ⟨tokens, phrase, passes, areNew, -⟩ := Reader.directive_sound looked.orderly read
      obtain ⟨phrases, upcoming, rest⟩ := ih passes.orderly clean
      refine ⟨tokens :: phrases, ?_, ?_⟩
      · have whole := ((looked.noting _).trans passes).upcoming
        rw [List.nil_append, upcoming, ← List.map_append] at whole
        exact whole
      · rw [directivesOf_cons_ok]
        have tables : last.tables = tableNames directive ++ state.tables := by
          rw [passes.tables, ← looked.tables]
          rfl
        rw [tables] at rest
        rw [looked.tables] at areNew
        exact phrases_cons_iff.2 ⟨phrase, nodup_tableNames directive, areNew, rest⟩
  | case4 state token next peeked inside fault last read ih =>
      intro clean
      rw [issuesOf_cons_error] at clean
      cases clean

/-- In front of the phrases of directives, the outcomes are these directives. -/
theorem outcomes_complete {directives : List Directive} {phrases : List (List Token)}
    {state : State} (read : Phrases state.tables directives phrases)
    (holds : state.Holds phrases.flatten) : outcomes state = directives.map .ok := by
  induction directives generalizing state phrases with
  | nil =>
      cases List.forall₂_nil_left_iff.1 read.read
      obtain ⟨token, next, peeked, -, same, -⟩ := Reader.peek_run_of_holds holds
      exact outcomes_of_finish peeked same
  | cons directive directives ih =>
      cases phrases with
      | nil => cases read.read
      | cons tokens phrases =>
          obtain ⟨phrase, -, areNew, rest⟩ := phrases_cons_iff.1 read
          obtain ⟨mark, later, rfl, isMark, -⟩ := phrase.inside
          obtain ⟨token, next, peeked, looked, -, same⟩ := Reader.peek_run_of_holds holds
          obtain rfl := same mark _ rfl
          have holdsNext := holds.of_passes_nil looked
          rw [← looked.tables] at areNew
          obtain ⟨last, ran, passes⟩ :=
            Reader.directive_run phrase areNew (frontKind_flatten rest) holdsNext
          have tables : last.tables = tableNames directive ++ state.tables := by
            rw [passes.tables, ← looked.tables]
            rfl
          have holdsRest : last.Holds phrases.flatten := passes.holds (holdsNext.noting _)
          rw [outcomes_of_directive peeked (by simp [isMark]) ran, ih (tables ▸ rest) holdsRest]
          rfl

/-! ## Documents -/

theorem issuesOf_map_ok (directives : List Directive) :
    issuesOf (directives.map .ok) = [] := by
  induction directives with
  | nil => rfl
  | cons directive directives ih => exact ih

theorem directivesOf_map_ok (directives : List Directive) :
    directivesOf (directives.map .ok) = directives := by
  induction directives with
  | nil => rfl
  | cons directive directives ih => exact congrArg (directive :: ·) ih

theorem flatMap_tableNames (document : Document) :
    document.directives.flatMap tableNames = document.lookupTables.map (·.name) := by
  unfold Document.lookupTables
  induction document.directives with
  | nil => rfl
  | cons directive directives ih =>
      rw [List.flatMap_cons, ih, List.filterMap_cons]
      unfold tableNames
      cases directive.lookupTable? <;> rfl

/-- A stream is a document exactly when its entries are the phrases of the document's directives,
and no two lookup tables of the document have one name. -/
theorem document_eq_ok_iff {path : String} {stream : Stream} {found : Document}
    (endless : Endless stream) :
    document path stream = .ok found ↔ found.path = path ∧
      (∃ phrases, stream.entries = phrases.flatten.map .token ∧
        List.Forall₂ DirectivePhrase found.directives phrases) ∧
      (found.lookupTables.map (·.name)).Nodup := by
  have orderly := State.orderly_start endless
  rw [← flatMap_tableNames]
  simp only [document, Phase.accept_eq_ok_iff, List.map_eq_nil_iff]
  constructor
  · rintro ⟨clean, rfl⟩
    obtain ⟨phrases, upcoming, read⟩ := outcomes_sound orderly clean
    exact ⟨rfl, ⟨phrases, upcoming, read.read⟩, read.distinct⟩
  · rintro ⟨rfl, ⟨phrases, entries, read⟩, distinct⟩
    have holds : (State.start stream).Holds phrases.flatten := ⟨orderly, entries⟩
    have all : Phrases (State.start stream).tables found.directives phrases :=
      ⟨read, distinct, fun _ _ member => by cases member⟩
    rw [outcomes_complete all holds]
    exact ⟨issuesOf_map_ok _, by rw [directivesOf_map_ok]⟩

end InstructionSet.Grammar
