import InstructionSet.Proofs.Fallible
import InstructionSet.Proofs.Grammar.Documents
import InstructionSet.Proofs.Grammar.Places

/-!
# Readers do not look at places

Two sources that differ in their layout come to tokens of the same kinds and lexemes at different
places. Whatever reads them takes the same decisions: in states that are alike up to places, a
reader answers the same or raises the same fault, and the states that it leaves are alike again
(`Reader.Parallel`). This goes from the readers that look at a token or take it up to the reader of
a directive, and from there to the directives and issues of a whole source, recovery included
(`parallel_document`).
-/

namespace InstructionSet

open InstructionSet.Text InstructionSet.Scanner

set_option autoImplicit false

namespace Grammar

/-! ## States up to places -/

/-- States with the same in front of them, up to places. -/
structure State.Alike (state other : State) : Prop where
  /-- The tokens that were looked at are alike. -/
  ahead : List.Forall₂ Token.Alike state.ahead other.ahead
  /-- What comes behind them is alike. -/
  pending : List.Forall₂ Scanned.Alike state.pending other.pending
  /-- The names of lookup tables are the same. -/
  tables : state.tables = other.tables

/-- Bodies with one layout and with members that are the same up to their places. -/
structure Body.Alike (body other : Body) : Prop where
  /-- The layout is the same. -/
  layout : body.layout = other.layout
  /-- The members are the same, up to their places. -/
  members : body.members.map (·.unplaced) = other.members.map (·.unplaced)

theorem Body.Alike.addEntry {body other : Body} (alike : Body.Alike body other)
    (entry : LayoutEntry) : Body.Alike (body.addEntry entry) (other.addEntry entry) :=
  ⟨congrArg (·.add entry) alike.layout, alike.members⟩

theorem Body.Alike.addMember {body other : Body} (alike : Body.Alike body other)
    {member member' : GroupMember} (same : member.unplaced = member'.unplaced) :
    Body.Alike (body.addMember member) (other.addMember member') := by
  refine ⟨alike.layout, ?_⟩
  simp only [Body.addMember, List.map_append, List.map_cons, List.map_nil, alike.members,
    same]

namespace Reader

variable {α β γ δ : Type}

/-- In states that are alike, both readers answer related values or raise faults that are alike, and
leave states that are alike. -/
def Parallel (values : α → β → Prop) (reader : Reader α) (other : Reader β) : Prop :=
  ∀ ⦃state state' : State⦄, state.Alike state' →
    Fallible.Parallel Fault.Alike values (reader.run state).1 (other.run state').1 ∧
      (reader.run state).2.Alike (other.run state').2

section Runs

variable {values : α → β → Prop} {reader : Reader α} {other : Reader β}
  {state state' next : State}

theorem Parallel.run_ok (parallel : Parallel values reader other) (alike : state.Alike state')
    {value : α} (ran : reader.run state = (.ok value, next)) :
    ∃ value' next', other.run state' = (.ok value', next') ∧ values value value' ∧
      next.Alike next' := by
  obtain ⟨found, after⟩ := parallel alike
  rw [ran] at found after
  obtain ⟨value', same, related⟩ := found.exists_ok
  exact ⟨value', (other.run state').2, Prod.ext same rfl, related, after⟩

theorem Parallel.run_error (parallel : Parallel values reader other) (alike : state.Alike state')
    {fault : Fault} (ran : reader.run state = (.error fault, next)) :
    ∃ fault' next', other.run state' = (.error fault', next') ∧ fault.Alike fault' ∧
      next.Alike next' := by
  obtain ⟨found, after⟩ := parallel alike
  rw [ran] at found after
  obtain ⟨fault', same, related⟩ := found.exists_error
  exact ⟨fault', (other.run state').2, Prod.ext same rfl, related, after⟩

end Runs

/-! ## Combinations -/

section Combinations

variable {values : α → β → Prop} {results : γ → δ → Prop} {reader : Reader α} {other : Reader β}

theorem parallel_pure {value : α} {value' : β} (related : values value value') :
    Parallel values (pure value) (pure value') :=
  fun _ _ alike => ⟨.ok related, alike⟩

theorem parallel_fail (error : SyntaxError) :
    Parallel values (fail error : Reader α) (fail error : Reader β) :=
  fun _ _ alike => ⟨.error (.grammar error), alike⟩

theorem parallel_lift (result : Except SyntaxError α) :
    Parallel Eq (liftM result : Reader α) (liftM result : Reader α) := by
  cases result with
  | ok value => exact parallel_pure rfl
  | error error => exact parallel_fail error

theorem Parallel.bind {continuation : α → Reader γ} {further : β → Reader δ}
    (parallel : Parallel values reader other)
    (behind : ∀ value value', values value value' →
      Parallel results (continuation value) (further value')) :
    Parallel results (reader >>= continuation) (other >>= further) := by
  intro state state' alike
  rw [run_bind, run_bind]
  cases ran : reader.run state with
  | mk result next =>
      cases result with
      | ok value =>
          obtain ⟨value', next', ran', related, after⟩ := parallel.run_ok alike ran
          rw [ran']
          exact behind value value' related after
      | error fault =>
          obtain ⟨fault', next', ran', same, after⟩ := parallel.run_error alike ran
          rw [ran']
          exact ⟨.error same, after⟩

/-- Behind readers that answer the same, one answer is enough to look at. -/
theorem Parallel.bind_same {reader other : Reader α} {continuation : α → Reader γ}
    {further : α → Reader δ} (parallel : Parallel Eq reader other)
    (behind : ∀ value, Parallel results (continuation value) (further value)) :
    Parallel results (reader >>= continuation) (other >>= further) :=
  parallel.bind fun value _ same => same ▸ behind value

theorem Parallel.map {change : α → γ} {change' : β → δ} (parallel : Parallel values reader other)
    (each : ∀ value value', values value value' → results (change value) (change' value')) :
    Parallel results (change <$> reader) (change' <$> other) :=
  parallel.bind fun _ _ related => parallel_pure (each _ _ related)

theorem parallel_ite {condition : Prop} [Decidable condition] {first second : Reader α}
    {first' second' : Reader β} (left : Parallel values first first')
    (right : Parallel values second second') :
    Parallel values (if condition then first else second)
      (if condition then first' else second') := by
  split
  · exact left
  · exact right

/-- Rounds of loops that answer alike. -/
inductive Round.Alike (values : α → β → Prop) (results : γ → δ → Prop) :
    Round α γ → Round β δ → Prop where
  | again {value : α} {value' : β} (related : values value value') :
      Alike values results (.again value) (.again value')
  | done {result : γ} {result' : δ} (related : results result result') :
      Alike values results (.done result) (.done result')

/-- Loops run in parallel when their rounds do. -/
theorem parallel_loop {round : α → Reader (Round α γ)} {round' : β → Reader (Round β δ)}
    {progress : ∀ value, Progresses (round value)}
    {progress' : ∀ value, Progresses (round' value)}
    (each : ∀ value value', values value value' →
      Parallel (Round.Alike values results) (round value) (round' value'))
    {value : α} {value' : β} (related : values value value') :
    Parallel results (loop round progress value) (loop round' progress' value') := by
  intro state state' alike
  change Fallible.Parallel Fault.Alike results (rounds round progress value state).1 _ ∧
    State.Alike (rounds round progress value state).2 _
  fun_induction rounds round progress value state generalizing value' state' with
  | case1 value state more next ran ih =>
      obtain ⟨answer, next', ran', found, after⟩ := (each _ _ related).run_ok alike ran
      rw [loop_run round', run_bind, ran']
      cases found with
      | again related => exact ih related after
  | case2 value state result next ran =>
      obtain ⟨answer, next', ran', found, after⟩ := (each _ _ related).run_ok alike ran
      rw [loop_run round', run_bind, ran']
      cases found with
      | done related => exact ⟨.ok related, after⟩
  | case3 value state fault next ran =>
      obtain ⟨fault', next', ran', same, after⟩ := (each _ _ related).run_error alike ran
      rw [loop_run round', run_bind, ran']
      exact ⟨.error same, after⟩

/-- A loop whose rounds answer the same answers the same. -/
theorem parallel_loop_same {round : α → Reader (Round α γ)}
    {progress : ∀ value, Progresses (round value)}
    (each : ∀ value, Parallel (Round.Alike Eq Eq) (round value) (round value)) (value : α) :
    Parallel Eq (loop round progress value) (loop round progress value) :=
  parallel_loop (fun value _ same => same ▸ each value) rfl

end Combinations

/-! ## Looking and taking -/

theorem parallel_look : Parallel Token.Alike look look := by
  rintro ⟨ahead, pending, finish, last, tables⟩ ⟨ahead', pending', finish', last', tables'⟩ alike
  obtain ⟨aheadAlike, pendingAlike, same⟩ := alike
  simp only [look]
  cases pendingAlike with
  | nil => exact ⟨.ok rfl, List.rel_append aheadAlike (.cons rfl .nil), .nil, same⟩
  | cons first rest =>
      cases first with
      | token first =>
          exact ⟨.ok first, List.rel_append aheadAlike (.cons first .nil), rest, same⟩
      | fault error => exact ⟨.error (.spelling error), aheadAlike, rest, same⟩

theorem parallel_peek : Parallel Token.Alike peek peek := by
  intro state state' alike
  have looked := parallel_look alike
  have ahead := alike.ahead
  simp only [peek]
  cases front : state.ahead with
  | nil =>
      rw [front] at ahead
      rw [List.forall₂_nil_left_iff.1 ahead]
      exact looked
  | cons token rest =>
      rw [front] at ahead
      obtain ⟨other, rest', same, -, front'⟩ := List.forall₂_cons_left_iff.1 ahead
      rw [front']
      exact ⟨.ok same, alike⟩

theorem parallel_peekSecond : Parallel Token.Alike peekSecond peekSecond := by
  refine parallel_peek.bind fun _ _ _ state state' alike => ?_
  have looked := parallel_look alike
  obtain ⟨ahead, pending, finish, last, tables⟩ := state
  obtain ⟨ahead', pending', finish', last', tables'⟩ := state'
  obtain ⟨aheadAlike, pendingAlike, same⟩ := alike
  cases aheadAlike with
  | nil => exact looked
  | cons first rest =>
      cases rest with
      | nil => exact looked
      | cons second rest => exact ⟨.ok second, .cons first (.cons second rest), pendingAlike, same⟩

theorem parallel_consume : Parallel Token.Alike consume consume := by
  intro state state' alike
  simp only [consume]
  cases ran : peek.run state with
  | mk result next =>
      cases result with
      | ok token =>
          obtain ⟨token', next', ran', same, after⟩ := parallel_peek.run_ok alike ran
          have tail := List.forall₂_drop 1 after.ahead
          rw [List.drop_one, List.drop_one] at tail
          rw [ran']
          exact ⟨.ok same, tail, after.pending, after.tables⟩
      | error fault =>
          obtain ⟨fault', next', ran', same, after⟩ := parallel_peek.run_error alike ran
          rw [ran']
          exact ⟨.error same, after⟩

theorem parallel_check (kind : TokenKind) : Parallel Eq (check kind) (check kind) :=
  parallel_peek.bind fun _ _ same => parallel_pure (by rw [same.kind])

theorem parallel_eat (kind : TokenKind) : Parallel Eq (eat kind) (eat kind) := by
  refine (parallel_check kind).bind_same fun found => ?_
  exact parallel_ite (parallel_consume.bind fun _ _ _ => parallel_pure rfl) (parallel_pure rfl)

theorem parallel_expect (kind : TokenKind) (expectation : Expectation) :
    Parallel Token.Alike (expect kind expectation) (expect kind expectation) := by
  refine parallel_consume.bind fun token other same => ?_
  rw [same.kind]
  exact parallel_ite (parallel_pure same) (parallel_fail _)

theorem parallel_atAttribute : Parallel Eq atAttribute atAttribute := by
  refine (parallel_check .identifier).bind_same fun found => ?_
  refine parallel_ite (parallel_peekSecond.bind fun _ _ same => ?_) (parallel_pure rfl)
  exact parallel_pure (by rw [same.kind])

theorem parallel_attributeKey? : Parallel Eq attributeKey? attributeKey? := by
  refine parallel_atAttribute.bind_same fun found => ?_
  refine parallel_ite (parallel_consume.bind fun _ _ same => ?_) (parallel_pure rfl)
  exact parallel_consume.bind fun _ _ _ => parallel_pure (by rw [same.lexeme])

theorem parallel_insideDirective? :
    Parallel (Option.Rel Token.Alike) insideDirective? insideDirective? := by
  refine parallel_peek.bind fun _ _ same => ?_
  rw [same.kind]
  exact parallel_ite (parallel_pure .none)
    (parallel_consume.bind fun _ _ same => parallel_pure (.some same))

theorem parallel_identifier (purpose : Keyword) :
    Parallel Token.Alike (identifier purpose) (identifier purpose) := by
  refine parallel_consume.bind fun _ _ same => ?_
  rw [same.kind, same.lexeme]
  exact parallel_ite (parallel_pure same) (parallel_fail _)

theorem parallel_name (purpose : Named) : Parallel Token.Alike (name purpose) (name purpose) := by
  refine parallel_consume.bind fun _ _ same => ?_
  rw [same.kind, same.lexeme]
  exact parallel_ite (parallel_pure same) (parallel_fail _)

/-- The regions that are read need not have anything to do with each other. -/
theorem parallel_regionFrom (first other : Token) :
    Parallel (fun _ _ => True) (regionFrom first) (regionFrom other) :=
  fun _ _ alike => ⟨.ok trivial, alike⟩

theorem parallel_declareTable (name : String) :
    Parallel Eq (declareTable name) (declareTable name) := by
  intro state state' alike
  simp only [declareTable, alike.tables]
  split
  · exact ⟨.ok rfl, alike⟩
  · exact ⟨.ok rfl, alike.ahead, alike.pending, rfl⟩

/-! ## Attributes -/

theorem parallel_nextAttribute (construct : Construct) {pairs others : AttributePairs}
    (same : unplacedPairs pairs = unplacedPairs others) :
    Parallel (Round.Alike (fun pairs others => unplacedPairs pairs = unplacedPairs others)
        fun pairs others => unplacedPairs pairs = unplacedPairs others)
      (nextAttribute construct pairs) (nextAttribute construct others) := by
  refine parallel_attributeKey?.bind_same fun key? => ?_
  cases key? with
  | none => exact parallel_pure (.done same)
  | some key =>
      refine parallel_consume.bind fun value value' alike => ?_
      have keys : pairs.any (·.1 = key.toLower) = others.any (·.1 = key.toLower) := by
        have any : ∀ pairs : AttributePairs, (unplacedPairs pairs).any (·.1 = key.toLower) =
            pairs.any (·.1 = key.toLower) := fun pairs => List.any_map
        rw [← any, same, any]
      rw [alike.kind, keys]
      refine parallel_ite (parallel_fail _) (parallel_ite (parallel_fail _) ?_)
      refine parallel_pure (.again ?_)
      have one : value.unplaced = value'.unplaced := alike
      simp only [unplacedPairs, List.map_append, List.map_cons, List.map_nil, one] at same ⊢
      rw [same]

theorem parallel_attributes (construct : Construct) :
    Parallel (fun attributes others => attributes.unplaced = others.unplaced)
      (attributes construct) (attributes construct) :=
  (parallel_loop (fun _ _ same => parallel_nextAttribute construct same) rfl).bind
    fun _ _ same => parallel_pure (congrArg (Attributes.mk construct) same)

/-- What is read from attributes does not depend on the places of their values. -/
theorem parallel_attributed {reading : Attributes → Except SyntaxError α}
    (placeless : Attributes.Placeless reading) (construct : Construct) :
    Parallel Eq (attributes construct >>= fun attributes => liftM (reading attributes))
      (attributes construct >>= fun attributes => liftM (reading attributes)) := by
  refine (parallel_attributes construct).bind fun first second same => ?_
  rw [placeless.congr same]
  exact parallel_lift _

theorem parallel_attributed_bind {reading : Attributes → Except SyntaxError α}
    (placeless : Attributes.Placeless reading) (construct : Construct)
    {results : γ → δ → Prop} {continuation : α → Reader γ} {further : α → Reader δ}
    (behind : ∀ value, Parallel results (continuation value) (further value)) :
    Parallel results
      (attributes construct >>= fun attributes => liftM (reading attributes) >>= continuation)
      (attributes construct >>= fun attributes => liftM (reading attributes) >>= further) := by
  refine (parallel_attributes construct).bind fun first second same => ?_
  rw [placeless.congr same]
  exact (parallel_lift _).bind_same behind

/-! ## Bodies -/

theorem parallel_entryName : Parallel Eq entryName entryName := by
  refine (parallel_check .text).bind_same fun found => ?_
  refine parallel_ite (parallel_consume.bind fun _ _ same => ?_) (parallel_pure rfl)
  exact parallel_pure same.lexeme

theorem parallel_named {reading : String → Attributes → Except SyntaxError α}
    (placeless : ∀ name, Attributes.Placeless (reading name)) (construct : Construct) :
    Parallel Eq
      (entryName >>= fun name => attributes construct >>= fun attributes =>
        liftM (reading name attributes))
      (entryName >>= fun name => attributes construct >>= fun attributes =>
        liftM (reading name attributes)) := by
  refine parallel_entryName.bind_same fun name => ?_
  exact parallel_attributed (placeless name) construct

theorem parallel_source : Parallel Eq source source :=
  parallel_named Attributes.placeless_source .source

theorem parallel_staging : Parallel Eq staging staging :=
  parallel_named Attributes.placeless_staging .staging

theorem parallel_immediate : Parallel Eq immediate immediate :=
  parallel_attributed Attributes.placeless_immediate .immediate

theorem parallel_modifier : Parallel Eq modifier modifier :=
  parallel_attributed Attributes.placeless_modifier .modifier

theorem parallel_member :
    Parallel (fun member other => member.unplaced = other.unplaced) member member := by
  refine (parallel_name .member).bind fun name name' same => ?_
  rw [same.lexeme]
  refine parallel_attributed_bind Attributes.placeless_member _ fun opcodes => ?_
  exact (parallel_regionFrom _ _).bind fun _ _ _ => parallel_pure rfl

theorem parallel_entryBehind (construct : Construct) {body other : Body}
    (alike : Body.Alike body other) (keyword : String) :
    Parallel Body.Alike (entryBehind construct body keyword)
      (entryBehind construct other keyword) := by
  have add {α : Type} (entry : α → LayoutEntry) (value value' : α) (same : value = value') :
      Body.Alike (body.addEntry (entry value)) (other.addEntry (entry value')) :=
    same ▸ alike.addEntry (entry value)
  unfold entryBehind
  split
  · exact parallel_source.map (add .source)
  · exact parallel_entryName.map (add .dest)
  · exact parallel_staging.map (add .staging)
  · exact parallel_immediate.map (add .immediate)
  · exact parallel_modifier.map (add .modifier)
  · exact parallel_ite (parallel_member.map fun _ _ same => alike.addMember same) (parallel_fail _)
  · exact parallel_pure (alike.addEntry _)

/-- The rounds of a body and of an enumeration run in parallel when their entries do. -/
theorem parallel_punctuated {values : α → β → Prop} {results : γ → δ → Prop}
    {unclosed : SyntaxError} {closed again : Round α γ} {closed' again' : Round β δ}
    {entry : Reader (Round α γ)} {entry' : Reader (Round β δ)}
    (closing : Round.Alike values results closed closed')
    (repeating : Round.Alike values results again again')
    (entries : Parallel (Round.Alike values results) entry entry') :
    Parallel (Round.Alike values results) (punctuated unclosed closed again entry)
      (punctuated unclosed closed' again' entry') := by
  refine (parallel_check .finish).bind_same fun _ => parallel_ite (parallel_fail _) ?_
  refine (parallel_eat .closeBrace).bind_same fun _ => parallel_ite (parallel_pure closing) ?_
  refine (parallel_eat .comma).bind_same fun _ => parallel_ite (parallel_pure repeating) ?_
  exact (parallel_eat .semicolon).bind_same fun _ => parallel_ite (parallel_pure repeating) entries

theorem parallel_nextEntry (construct : Construct) {body other : Body}
    (alike : Body.Alike body other) :
    Parallel (Round.Alike Body.Alike Body.Alike) (nextEntry construct body)
      (nextEntry construct other) := by
  refine parallel_punctuated (.done alike) (.again alike) ?_
  refine parallel_atAttribute.bind_same fun stray => ?_
  refine parallel_ite (parallel_consume.bind fun key key' same => ?_)
    ((parallel_identifier _).bind fun keyword keyword' same => ?_)
  · rw [same.lexeme]
    exact parallel_fail _
  · rw [same.lexeme]
    exact (parallel_entryBehind construct alike _).bind fun _ _ more => parallel_pure (.again more)

theorem parallel_body (construct : Construct) (layout : Layout) :
    Parallel Body.Alike (body construct layout) (body construct layout) :=
  (parallel_expect _ _).bind fun _ _ _ =>
    parallel_loop (fun _ _ alike => parallel_nextEntry construct alike) ⟨rfl, rfl⟩

/-! ## Directives -/

theorem parallel_nextConstant (table : String) (values : List UInt32) :
    Parallel (Round.Alike Eq Eq) (nextConstant table values) (nextConstant table values) := by
  refine parallel_consume.bind fun _ _ same => ?_
  rw [same.kind, same.lexeme]
  split
  · exact parallel_pure (.done rfl)
  · exact parallel_pure (.again rfl)
  · exact parallel_pure (.again rfl)
  · split
    · exact parallel_pure (.again rfl)
    · exact parallel_fail _
  · exact parallel_fail _
  · exact parallel_fail _

theorem parallel_lookupTable :
    Parallel (fun first second => first.unplaced = second.unplaced) lookupTable lookupTable := by
  refine (parallel_name _).bind fun token other same => ?_
  simp only [same.lexeme]
  refine (parallel_declareTable _).bind_same fun isNew => ?_
  refine parallel_ite ((parallel_expect _ _).bind fun _ _ _ => ?_) (parallel_fail _)
  refine (parallel_loop_same (parallel_nextConstant _) _).bind_same fun values => ?_
  exact (parallel_regionFrom _ _).bind fun _ _ _ => parallel_pure rfl

theorem parallel_enumerationValue (enumeration : String) :
    Parallel Eq (enumerationValue enumeration) (enumerationValue enumeration) := by
  refine parallel_consume.bind fun _ _ same => ?_
  rw [same.kind, same.lexeme]
  refine parallel_ite ?_ (parallel_fail _)
  exact parallel_attributed_bind Attributes.placeless_isDefault _ fun _ => parallel_pure rfl

theorem parallel_enumerationEntryBehind (enumeration keyword : String) :
    Parallel Eq (enumerationEntryBehind enumeration keyword)
      (enumerationEntryBehind enumeration keyword) := by
  unfold enumerationEntryBehind
  split
  · exact parallel_enumerationValue enumeration
  · exact parallel_pure rfl
  · exact parallel_fail _

theorem parallel_nextEnumerationEntry (enumeration : String) (entries : List EnumerationEntry) :
    Parallel (Round.Alike Eq Eq) (nextEnumerationEntry enumeration entries)
      (nextEnumerationEntry enumeration entries) := by
  refine parallel_punctuated (.done rfl) (.again rfl) ?_
  refine (parallel_identifier _).bind fun keyword other same => ?_
  rw [same.lexeme]
  exact (parallel_enumerationEntryBehind _ _).bind_same fun _ => parallel_pure (.again rfl)

theorem parallel_enumeration :
    Parallel (fun first second => first.unplaced = second.unplaced) enumeration enumeration := by
  refine (parallel_name _).bind fun token other same => ?_
  simp only [same.lexeme]
  refine (parallel_expect _ _).bind fun _ _ _ => ?_
  refine (parallel_loop_same (parallel_nextEnumerationEntry _) _).bind_same fun entries => ?_
  exact (parallel_regionFrom _ _).bind fun _ _ _ => parallel_pure rfl

theorem parallel_instruction :
    Parallel (fun first second => first.unplaced = second.unplaced) instruction instruction := by
  refine (parallel_name _).bind fun token other same => ?_
  rw [same.lexeme]
  refine parallel_attributed_bind Attributes.placeless_header _ ?_
  rintro ⟨opcodes, layout⟩
  refine (parallel_check _).bind_same fun hasBody => ?_
  refine parallel_ite ?_ ?_
  · refine ((parallel_body _ _).map fun _ _ same => same.layout).bind_same fun layout => ?_
    exact (parallel_regionFrom _ _).bind fun _ _ _ => parallel_pure rfl
  · refine (parallel_pure rfl).bind_same fun layout => ?_
    exact (parallel_regionFrom _ _).bind fun _ _ _ => parallel_pure rfl

theorem parallel_groupName? {token other : Token} (same : token.Alike other) :
    Parallel Eq (groupName? token) (groupName? other) := by
  unfold groupName?
  rw [same.kind]
  refine parallel_ite (parallel_atAttribute.bind ?_) (parallel_pure rfl)
  rintro isKey _ rfl
  refine parallel_ite (parallel_pure rfl) (parallel_consume.bind fun _ _ same => ?_)
  exact parallel_pure (by rw [same.lexeme])

theorem parallel_group :
    Parallel (fun first second => first.unplaced = second.unplaced) group group := by
  refine parallel_peek.bind fun token other same => ?_
  refine (parallel_groupName? same).bind_same fun name? => ?_
  refine parallel_attributed_bind Attributes.placeless_header _ ?_
  rintro ⟨opcodes, layout⟩
  refine (parallel_check _).bind_same fun hasBody => ?_
  refine parallel_ite ((parallel_body _ _).bind fun body body' alike => ?_) (parallel_fail _)
  have none : body.members = [] ↔ body'.members = [] := by
    rw [← List.map_eq_nil_iff, alike.members, List.map_eq_nil_iff]
  rw [if_congr none rfl rfl]
  refine parallel_ite (parallel_fail _) ((parallel_regionFrom _ _).bind fun _ _ _ => ?_)
  refine parallel_pure ?_
  simp only [Directive.unplaced, alike.layout, alike.members]

theorem parallel_directiveNamed (name : String) :
    Parallel (fun first second => first.unplaced = second.unplaced) (directiveNamed name)
      (directiveNamed name) := by
  unfold directiveNamed
  split
  · exact parallel_lookupTable
  · exact parallel_enumeration
  · exact parallel_instruction
  · exact parallel_group
  · exact parallel_fail _

theorem parallel_nextTrailing (lexemes : List String) :
    Parallel (Round.Alike Eq Eq) (nextTrailing lexemes) (nextTrailing lexemes) := by
  refine parallel_insideDirective?.bind fun token? other? same => ?_
  cases same with
  | none => exact parallel_pure (.done rfl)
  | some same => exact parallel_pure (.again (by rw [same.lexeme]))

theorem parallel_boundary (directive : String) :
    Parallel Eq (boundary directive) (boundary directive) := by
  refine (parallel_loop_same parallel_nextTrailing _).bind_same fun lexemes => ?_
  exact parallel_ite (parallel_pure rfl) (parallel_fail _)

/-- A directive is read alike, up to its places. -/
theorem parallel_directive :
    Parallel (fun first second => first.unplaced = second.unplaced) directive directive := by
  refine (parallel_expect _ _).bind fun _ _ _ => (parallel_identifier _).bind fun _ _ same => ?_
  rw [same.lexeme]
  refine (parallel_directiveNamed _).bind fun first second same => ?_
  exact (parallel_boundary _).bind fun _ _ _ => parallel_pure same

end Reader

/-! ## Going on behind a fault -/

theorem isBoundary_eq {token other : Token} (alike : token.Alike other) :
    isBoundary token = isBoundary other := by
  rw [isBoundary, isBoundary, alike.kind]

namespace State

theorem alike_passAhead {tokens others : List Token}
    (alike : List.Forall₂ Token.Alike tokens others) (last last' : Option Token) :
    List.Forall₂ Token.Alike (passAhead last tokens).2 (passAhead last' others).2 := by
  induction alike generalizing last last' with
  | nil => exact .nil
  | cons same rest ih =>
      rw [passAhead, passAhead, isBoundary_eq same]
      cases isBoundary _ with
      | true => exact .cons same rest
      | false => exact ih _ _

theorem alike_passPending {entries others : List Scanned}
    (alike : List.Forall₂ Scanned.Alike entries others) (last last' : Option Token) :
    Option.Rel (fun found found' => found.1.Alike found'.1 ∧
        List.Forall₂ Scanned.Alike found.2 found'.2)
      (passPending last entries).2 (passPending last' others).2 := by
  induction alike generalizing last last' with
  | nil => exact .none
  | cons same rest ih =>
      cases same with
      | fault => exact ih _ _
      | token same =>
          rw [passPending, passPending, isBoundary_eq same]
          cases isBoundary _ with
          | true => exact .some ⟨same, rest⟩
          | false => exact ih _ _

theorem Alike.synchronize {state other : State} (alike : state.Alike other) :
    state.synchronize.Alike other.synchronize := by
  have ahead := alike_passAhead alike.ahead state.last other.last
  simp only [State.synchronize]
  cases passed : passAhead state.last state.ahead with
  | mk last tokens =>
      cases passed' : passAhead other.last other.ahead with
      | mk last' tokens' =>
          rw [passed, passed'] at ahead
          cases ahead with
          | cons same rest => exact ⟨.cons same rest, alike.pending, alike.tables⟩
          | nil =>
              have pending := alike_passPending alike.pending last last'
              cases found : passPending last state.pending with
              | mk final found? =>
                  cases found' : passPending last' other.pending with
                  | mk final' found'? =>
                      simp only [found, found'] at pending ⊢
                      cases pending with
                      | none => exact ⟨.cons rfl .nil, .nil, alike.tables⟩
                      | some both => exact ⟨.cons both.1 .nil, both.2, alike.tables⟩

end State

/-! ## Sources -/

/-- Directives that are the same up to places, or issues that say the same. -/
def Outcome.Alike : Outcome → Outcome → Prop :=
  Fallible.Parallel Issue.Alike fun directive other => directive.unplaced = other.unplaced

/-- Sources that are alike come to the same, directive by directive. -/
theorem alike_outcomes {state other : State} (alike : state.Alike other) :
    List.Forall₂ Outcome.Alike (outcomes state) (outcomes other) := by
  fun_induction outcomes state generalizing other with
  | case1 state fault next peeked ih =>
      obtain ⟨fault', next', peeked', same, after⟩ := Reader.parallel_peek.run_error alike peeked
      rw [outcomes_of_fault peeked']
      exact .cons (.error same) (ih after.synchronize)
  | case2 state token next peeked atEnd =>
      obtain ⟨token', next', peeked', same, -⟩ := Reader.parallel_peek.run_ok alike peeked
      rw [outcomes_of_finish peeked' (same.kind ▸ atEnd)]
      exact .nil
  | case3 state token next peeked inside directive last read ih =>
      obtain ⟨token', next', peeked', same, after⟩ := Reader.parallel_peek.run_ok alike peeked
      obtain ⟨directive', last', read', unplaced, behind⟩ :=
        Reader.parallel_directive.run_ok after read
      rw [outcomes_of_directive peeked' (same.kind ▸ inside) read']
      exact .cons (.ok unplaced) (ih behind)
  | case4 state token next peeked inside fault last read ih =>
      obtain ⟨token', next', peeked', same, after⟩ := Reader.parallel_peek.run_ok alike peeked
      obtain ⟨fault', last', read', faults, behind⟩ :=
        Reader.parallel_directive.run_error after read
      rw [outcomes_of_refused peeked' (same.kind ▸ inside) read']
      exact .cons (.error faults) (ih behind.synchronize)

theorem alike_directivesOf {found others : List Outcome}
    (alike : List.Forall₂ Outcome.Alike found others) :
    (directivesOf found).map (·.unplaced) = (directivesOf others).map (·.unplaced) := by
  refine Fallible.map_eq_map_iff.2 (List.rel_filterMap (fun outcome other same => ?_) alike)
  cases same with
  | ok same => exact .some same
  | error => exact .none

theorem alike_issuesOf {found others : List Outcome}
    (alike : List.Forall₂ Outcome.Alike found others) :
    List.Forall₂ Issue.Alike (issuesOf found) (issuesOf others) := by
  refine List.rel_filterMap (fun outcome other same => ?_) alike
  cases same with
  | ok => exact .none
  | error same => exact .some same

/-- Sources that are alike are the same document up to places, or are refused with reports that say
the same. -/
theorem parallel_document {stream stream' : Stream}
    (alike : List.Forall₂ Scanned.Alike stream.entries stream'.entries) (path other : String) :
    Fallible.Parallel Failure.Alike (fun first second => first.unplaced = second.unplaced)
      (document path stream) (document other stream') := by
  have start : (State.start stream).Alike (State.start stream') := ⟨.nil, alike, rfl⟩
  have outcomes := alike_outcomes start
  refine Phase.parallel_accept ?_ (List.rel_map (fun _ _ same => ?_) (alike_issuesOf outcomes))
  · exact congrArg (Document.mk "") (alike_directivesOf outcomes)
  · exact Issue.Alike.diagnostic same path other

/-- Tokens of the same kinds and lexemes are the same document, up to its path and all places. -/
theorem document_alike {path other : String} {tokens others : List Token}
    {finish finish' : Position} {found : Document} (same : Alike tokens others)
    (read : document path ⟨tokens.map .token, finish⟩ = .ok found) :
    ∃ again, document other ⟨others.map .token, finish'⟩ = .ok again ∧
      found.unplaced = again.unplaced := by
  have parallel := @parallel_document ⟨tokens.map .token, finish⟩ ⟨others.map .token, finish'⟩
    (forall₂_of_alike same) path other
  rw [read] at parallel
  exact parallel.exists_ok

end Grammar
end InstructionSet
