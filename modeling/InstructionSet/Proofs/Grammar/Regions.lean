import InstructionSet.Proofs.Expansion.Independence
import InstructionSet.Proofs.Grammar.Endings
import InstructionSet.Proofs.Grammar.Segments
import InstructionSet.Proofs.Token.Positions

/-!
# Where issues and declarations are

A reader keeps nothing but what the source was scanned to, so the tokens of its states stand at
places of the source, whatever it does (`State.Reaches.placed`). From the first look on it has a
token to point at. That is why every issue has a region (`placed_issues`).

In a document the region of a declaration runs from one token of its directive to a later one
(`placed_of_parse`).
-/

namespace InstructionSet

open InstructionSet.Text InstructionSet.Scanner

set_option autoImplicit false

variable {text : List Char}

/-- The region starts at a place of the text and does not end in front of it. -/
structure Text.Region.Lies (text : List Char) (region : Region) : Prop where
  /-- The start is a place. -/
  start : region.start.IsPlace text
  /-- The end is no earlier. -/
  ordered : region.start ≤ region.stop

theorem Text.Region.lies_point {position : Position} (place : position.IsPlace text) :
    (Region.point position).Lies text :=
  ⟨place, le_refl position⟩

theorem Token.lies_region {token : Token} (place : token.position.IsPlace text) :
    token.region.Lies text :=
  ⟨place, token.position_le_stop⟩

namespace Grammar

/-! ## The tokens of a state -/

/-- Everything that a state keeps stands at places of a text. -/
structure State.Placed (text : List Char) (state : State) : Prop where
  /-- What was looked at does. -/
  ahead : ∀ token ∈ state.ahead, token.position.IsPlace text
  /-- What was not looked at does. -/
  pending : ∀ entry ∈ state.pending, entry.position.IsPlace text
  /-- The end does. -/
  finish : state.finish.IsPlace text
  /-- The token that was taken last does. -/
  last : ∀ token ∈ state.last, token.position.IsPlace text

/-- A token has been looked at or taken. -/
def State.Touched (state : State) : Prop :=
  state.ahead ≠ [] ∨ state.last ≠ none

namespace State

variable {first last state : State}

theorem placed_start {stream : Stream} (placed : stream.Placed text) :
    (State.start stream).Placed text where
  ahead := fun _ member => absurd member List.not_mem_nil
  pending := placed.entries
  finish := placed.finish
  last := fun _ member => by cases member

theorem Move.placed (move : Move first last) (placed : first.Placed text) : last.Placed text := by
  cases move with
  | look token rest next =>
      have entries := placed.pending
      rw [next] at entries
      obtain ⟨here, later⟩ := List.forall_mem_cons.1 entries
      refine ⟨?_, later, placed.finish, placed.last⟩
      exact List.forall_mem_append.2 ⟨placed.ahead, List.forall_mem_singleton.2 here⟩
  | lookAtEnd next =>
      refine ⟨?_, placed.pending, placed.finish, placed.last⟩
      exact List.forall_mem_append.2 ⟨placed.ahead, List.forall_mem_singleton.2 placed.finish⟩
  | raise fault rest next =>
      have entries := placed.pending
      rw [next] at entries
      exact ⟨placed.ahead, (List.forall_mem_cons.1 entries).2, placed.finish, placed.last⟩
  | take token rest next =>
      have tokens := placed.ahead
      rw [next] at tokens
      obtain ⟨here, later⟩ := List.forall_mem_cons.1 tokens
      refine ⟨later, placed.pending, placed.finish, fun found member => ?_⟩
      cases member
      exact here
  | declare name => exact ⟨placed.ahead, placed.pending, placed.finish, placed.last⟩

/-- Whatever a reader does, it keeps nothing but what stands at places of the text. -/
theorem Reaches.placed (moves : Reaches first last) (placed : first.Placed text) :
    last.Placed text := by
  induction moves with
  | refl => exact placed
  | tail _ move ih => exact move.placed ih

theorem Move.touched (move : Move first last) (touched : first.Touched) : last.Touched := by
  cases move with
  | look token rest next => exact .inl (List.append_ne_nil_of_right_ne_nil _ (List.cons_ne_nil _ _))
  | lookAtEnd next => exact .inl (List.append_ne_nil_of_right_ne_nil _ (List.cons_ne_nil _ _))
  | raise fault rest next => exact touched
  | take token rest next => exact .inr (Option.some_ne_none token)
  | declare name => exact touched

theorem Reaches.touched (moves : Reaches first last) (touched : first.Touched) : last.Touched := by
  induction moves with
  | refl => exact touched
  | tail _ move ih => exact move.touched ih

/-- Where a token has been looked at or taken, an issue has a region. -/
theorem exists_region (placed : state.Placed text) (touched : state.Touched) :
    ∃ region, state.region? = some region ∧ region.Lies text := by
  unfold region?
  cases ahead : state.ahead with
  | cons token rest =>
      refine ⟨token.region, rfl, Token.lies_region (placed.ahead token ?_)⟩
      rw [ahead]
      exact List.mem_cons_self
  | nil =>
      cases taken : state.last with
      | some token => exact ⟨token.region, rfl, Token.lies_region (placed.last token taken)⟩
      | none => exact absurd touched (by simp [Touched, ahead, taken])

/-- A fault that is upcoming stands at a place of the text. -/
theorem Placed.fault (placed : state.Placed text) {fault : SpellingFault}
    (listed : .fault fault ∈ state.upcoming) : fault.position.IsPlace text := by
  rcases List.mem_append.1 listed with ahead | pending
  · obtain ⟨token, -, impossible⟩ := List.mem_map.1 ahead
    cases impossible
  · exact placed.pending _ pending

end State

/-! ## Issues -/

/-- The issue is at a place of a text: a fault of spelling at its own, and any other in a region. -/
inductive Issue.Placed (text : List Char) : Issue → Prop where
  /-- A fault of spelling has a place. -/
  | spelling {fault : SpellingFault} {region : Option Region}
      (place : fault.position.IsPlace text) : Placed text ⟨.spelling fault, region⟩
  /-- A fault of grammar has a region. -/
  | grammar {error : SyntaxError} {region : Region} (lies : region.Lies text) :
      Placed text ⟨.grammar error, some region⟩

variable {state next : State}

theorem State.fault_of_front {finish : Position} {entries : List Scanned} {fault : Fault}
    (front : State.frontOf finish entries = .error fault) :
    ∃ found, fault = .spelling found ∧ .fault found ∈ entries := by
  unfold State.frontOf at front
  split at front
  next => cases front
  next => cases front
  next found rest =>
    cases front
    exact ⟨found, rfl, List.mem_cons_self⟩

/-- What a look raises is an issue at a place, wherever it is reported. -/
theorem placed_of_peek (orderly : state.Orderly) (placed : state.Placed text) {fault : Fault}
    (ran : Reader.peek.run state = (.error fault, next)) (region : Option Region) :
    Issue.Placed text ⟨fault, region⟩ := by
  obtain ⟨middle, looked, -⟩ := Reader.peek_run orderly
  rw [looked] at ran
  obtain ⟨found, rfl, listed⟩ := State.fault_of_front (Prod.mk.inj ran).1
  exact .spelling (placed.fault listed)

/-- A directive that is at fault yields an issue at a place. -/
theorem placed_of_directive (orderly : state.Orderly) (placed : state.Placed text)
    (touched : state.Touched) {fault : Fault}
    (ran : Reader.directive.run state = (.error fault, next)) :
    Issue.Placed text ⟨fault, next.region?⟩ := by
  have moves := Reader.reaches_of_run ran
  cases fault with
  | spelling fault => exact .spelling (placed.fault (Reader.listed_of_directive orderly ran))
  | grammar error =>
      obtain ⟨region, found, lies⟩ :=
        State.exists_region (moves.placed placed) (moves.touched touched)
      rw [found]
      exact .grammar lies

/-- Every issue of a source is at a place of it. -/
theorem placed_issues (orderly : state.Orderly) (placed : state.Placed text) :
    ∀ issue ∈ issuesOf (outcomes state), issue.Placed text := by
  fun_induction outcomes state with
  | case1 state fault next peeked ih =>
      rw [issuesOf_cons_error]
      have moves := (Reader.reaches_of_run peeked).trans (State.reaches_synchronize _)
      exact List.forall_mem_cons.2 ⟨placed_of_peek orderly placed peeked _,
        ih (moves.orderly orderly) (moves.placed placed)⟩
  | case2 state token next peeked atEnd => exact fun _ member => by cases member
  | case3 state token next peeked inside directive last read ih =>
      rw [issuesOf_cons_ok]
      have looks := Reader.reaches_of_run peeked
      have reads := Reader.reaches_of_run read
      have moves := looks.trans reads
      exact ih (moves.orderly orderly) (moves.placed placed)
  | case4 state token next peeked inside fault last read ih =>
      rw [issuesOf_cons_error]
      have looks := Reader.reaches_of_run peeked
      have reads := Reader.reaches_of_run read
      obtain ⟨rest, ahead⟩ := Reader.peek_run_ok peeked
      have touched : next.Touched := .inl (by simp [ahead])
      have moves := (looks.trans reads).trans (State.reaches_synchronize last)
      exact List.forall_mem_cons.2
        ⟨placed_of_directive (looks.orderly orderly) (looks.placed placed) touched read,
          ih (moves.orderly orderly) (moves.placed placed)⟩

/-! ## Declarations -/

/-- The region is that of some tokens of a phrase, in their order. -/
def Spans (tokens : List Token) (region : Region) : Prop :=
  ∃ first rest, (first :: rest).Sublist tokens ∧ region = regionOver first rest

theorem Spans.mono {tokens more : List Token} {region : Region} (spans : Spans tokens region)
    (within : tokens.Sublist more) : Spans more region := by
  obtain ⟨first, rest, listed, same⟩ := spans
  exact ⟨first, rest, listed.trans within, same⟩

theorem Spans.lies {tokens : List Token} {region : Region} (spans : Spans tokens region)
    (places : ∀ token ∈ tokens, token.position.IsPlace text)
    (ascending : tokens.Pairwise (·.position ≤ ·.position)) : region.Lies text := by
  obtain ⟨first, rest, listed, rfl⟩ := spans
  refine ⟨places first (listed.subset List.mem_cons_self), ?_⟩
  have later := (List.pairwise_cons.1 (ascending.sublist listed)).1
  show first.position ≤ (rest.getLast?.getD first).stop
  refine le_trans ?_ (Token.position_le_stop _)
  cases last : rest.getLast? with
  | none => exact le_refl _
  | some token => exact later token (List.mem_of_getLast? last)

theorem MemberPhrase.spans {member : GroupMember} {tokens : List Token}
    (phrase : MemberPhrase member tokens) : Spans tokens member.region := by
  cases phrase with
  | member name named attributes => exact ⟨name, _, List.Sublist.refl _, rfl⟩

theorem ItemsPhrase.spans {hasMembers : Bool} {entries : List LayoutEntry}
    {members : List GroupMember} {tokens : List Token}
    (phrase : ItemsPhrase hasMembers entries members tokens) :
    ∀ member ∈ members, Spans tokens member.region := by
  induction phrase with
  | close brace isClose => exact fun _ member => absurd member List.not_mem_nil
  | mark mark isMark _ ih =>
      exact fun member listed => (ih member listed).mono (List.sublist_cons_self _ _)
  | entry keyword isKeyword entry _ ih =>
      exact fun member listed => (ih member listed).mono
        ((List.sublist_append_right _ _).trans (List.sublist_cons_self _ _))
  | member keyword isKeyword _ _ member _ ih =>
      refine List.forall_mem_cons.2 ⟨member.spans.mono ?_, fun other listed => ?_⟩
      · exact (List.sublist_append_left _ _).trans (List.sublist_cons_self _ _)
      · exact (ih other listed).mono
          ((List.sublist_append_right _ _).trans (List.sublist_cons_self _ _))

end Grammar

/-- The regions at which faults of a directive are reported. -/
def Directive.regions : Directive → List Region
  | .lookupTable table => [table.region]
  | .enumeration form => [form.region]
  | .instruction form => [form.region]
  | .group form => form.members.map (·.region)

namespace Grammar

theorem NamedPhrase.spans {directive : Directive} {keyword : String} {tokens : List Token}
    (phrase : NamedPhrase directive keyword tokens) :
    ∀ region ∈ directive.regions, Spans tokens region := by
  cases phrase with
  | lookupTable name brace named isOpen constants =>
      exact List.forall_mem_singleton.2 ⟨name, _, List.Sublist.refl _, rfl⟩
  | enumeration name brace named isOpen values =>
      exact List.forall_mem_singleton.2 ⟨name, _, List.Sublist.refl _, rfl⟩
  | bare name named attributes =>
      exact List.forall_mem_singleton.2 ⟨name, _, List.Sublist.refl _, rfl⟩
  | instruction name named attributes body =>
      exact List.forall_mem_singleton.2 ⟨name, _, List.Sublist.refl _, rfl⟩
  | group named attributes body listed whole =>
      intro region member
      obtain ⟨declared, among, rfl⟩ := List.mem_map.1 member
      cases body with
      | braces brace isOpen items =>
          rw [← whole]
          refine (items.spans declared among).mono ?_
          refine List.Sublist.trans ?_ (List.sublist_append_right _ _)
          exact List.Sublist.trans (List.sublist_cons_self _ _) (List.sublist_append_right _ _)

theorem DirectivePhrase.spans {directive : Directive} {tokens : List Token}
    (phrase : DirectivePhrase directive tokens) :
    ∀ region ∈ directive.regions, Spans tokens region := by
  cases phrase with
  | directive mark keyword isMark isKeyword named =>
      exact fun region member => (named.spans region member).mono
        ((List.sublist_cons_self _ _).trans (List.sublist_cons_self _ _))

end Grammar

namespace Document

open InstructionSet.Grammar

/-- The regions of a document lie in a text. -/
def Placed (text : List Char) (document : Document) : Prop :=
  ∀ directive ∈ document.directives, ∀ region ∈ directive.regions, region.Lies text

/-- Every declaration of a document is in a region of its source. -/
theorem placed_of_parse {path source : String} {document : Document}
    (read : parse path source = .ok document) : document.Placed source.toList := by
  obtain ⟨-, ⟨phrases, entries, directives⟩, -⟩ := parse_eq_ok_iff.1 read
  obtain ⟨-, places, ascending⟩ := placed_scan source
  rw [entries] at places ascending
  intro directive member region among
  obtain ⟨phrase, listed, reads⟩ := Fallible.exists_of_forall₂ directives.flip member
  have within : Spans phrases.flatten region :=
    (reads.spans region among).mono (List.sublist_flatten_of_mem listed)
  have tokens := List.pairwise_map.1 ascending
  exact within.lies (fun token here => places _ (List.mem_map_of_mem here)) tokens

section Placed

variable {text : List Char} {document : Document}

theorem Placed.lookupTable (placed : document.Placed text) {table : LookupTable}
    (member : table ∈ document.lookupTables) : table.region.Lies text := by
  obtain ⟨directive, listed, found⟩ := List.mem_filterMap.1 member
  cases directive with
  | lookupTable here =>
      cases found
      exact placed _ listed _ List.mem_cons_self
  | enumeration form => cases found
  | instruction form => cases found
  | group form => cases found

theorem Placed.enumeration (placed : document.Placed text) {form : EnumerationForm}
    (member : form ∈ document.enumerations) : form.region.Lies text := by
  obtain ⟨directive, listed, found⟩ := List.mem_filterMap.1 member
  cases directive with
  | enumeration here =>
      cases found
      exact placed _ listed _ List.mem_cons_self
  | lookupTable table => cases found
  | instruction form => cases found
  | group form => cases found

theorem Placed.instruction (placed : document.Placed text) {form : InstructionForm}
    (member : form ∈ document.instructions) : form.region.Lies text := by
  obtain ⟨directive, listed, declared⟩ := List.mem_flatMap.1 member
  cases directive with
  | instruction here =>
      cases List.mem_singleton.1 declared
      exact placed _ listed _ List.mem_cons_self
  | group here =>
      obtain ⟨member, among, rfl⟩ := List.mem_map.1 declared
      exact placed _ listed _ (List.mem_map_of_mem among)
  | lookupTable table => cases declared
  | enumeration form => cases declared

end Placed

end Document

end InstructionSet
