import InstructionSet.Proofs.Grammar.Soundness

/-!
# How readers end

A colon fits nowhere inside a directive. A reader of such a part therefore answers behind tokens
without a colon; and when it refuses what it reads, a colon can only be the token that it has taken
last, which is why it refuses. A fault of spelling that it raises has been upcoming, and what it has
looked at in front of the fault without taking it is no boundary (`State.Raises`).

All readers of parts of a directive are careful in this sense (`Careful`), up to the reader of all
that stands behind its mark (`careful_behindMark`).
-/

namespace InstructionSet.Grammar

open InstructionSet.Text InstructionSet.Scanner

set_option autoImplicit false

variable {α β : Type} {state next : State}

/-! ## Endings -/

/-- A fault that was upcoming is raised behind tokens. Those that are kept of them are no boundary,
and what is upcoming behind the fault is upcoming still. -/
def State.Raises (state : State) (fault : SpellingFault) (next : State) : Prop :=
  ∃ (passed kept : List Token) (rest : List Scanned),
    state.upcoming = passed.map .token ++ .fault fault :: rest ∧
      next.upcoming = kept.map .token ++ rest ∧ ∀ token ∈ kept, isBoundary token = false

/-- How a run ends in front of what is upcoming. -/
inductive State.Ends (state : State) : Except Fault α → State → Prop where
  /-- It answers behind tokens of which none is a colon. -/
  | answered {value : α} {next : State} (tokens : List Token)
      (upcoming : state.upcoming = tokens.map .token ++ next.upcoming)
      (apart : ∀ token ∈ tokens, token.kind ≠ .colon) : Ends state (.ok value) next
  /-- It refuses the tokens that it has taken, of which only the last one may be a colon. -/
  | refused {error : SyntaxError} {next : State} (tokens : List Token)
      (upcoming : state.upcoming = tokens.map .token ++ next.upcoming)
      (apart : ∀ token ∈ tokens.dropLast, token.kind ≠ .colon) :
      Ends state (.error (.grammar error)) next
  /-- It raises a fault that was upcoming. -/
  | raised {fault : SpellingFault} {next : State} (raises : state.Raises fault next) :
      Ends state (.error (.spelling fault)) next

theorem State.Raises.listed {fault : SpellingFault} (raises : state.Raises fault next) :
    .fault fault ∈ state.upcoming := by
  obtain ⟨passed, kept, rest, upcoming, -⟩ := raises
  rw [upcoming]
  exact List.mem_append_right _ List.mem_cons_self

theorem State.Raises.behind {middle : State} {fault : SpellingFault} {tokens : List Token}
    (upcoming : state.upcoming = tokens.map .token ++ middle.upcoming)
    (raises : middle.Raises fault next) : state.Raises fault next := by
  obtain ⟨passed, kept, rest, raised, behind⟩ := raises
  refine ⟨tokens ++ passed, kept, rest, ?_, behind⟩
  rw [upcoming, raised, List.map_append, List.append_assoc]

/-- A run that goes on behind tokens without a colon ends as it does there. -/
theorem State.Ends.behind {middle : State} {result : Except Fault α} {tokens : List Token}
    (upcoming : state.upcoming = tokens.map .token ++ middle.upcoming)
    (apart : ∀ token ∈ tokens, token.kind ≠ .colon) (ends : middle.Ends result next) :
    state.Ends result next := by
  cases ends with
  | answered more behind others =>
      refine .answered (tokens ++ more) ?_ (List.forall_mem_append.2 ⟨apart, others⟩)
      rw [upcoming, behind, List.map_append, List.append_assoc]
  | refused more behind others =>
      refine .refused (tokens ++ more) ?_ ?_
      · rw [upcoming, behind, List.map_append, List.append_assoc]
      · intro token member
        cases more with
        | nil =>
            rw [List.append_nil] at member
            exact apart token (List.dropLast_subset _ member)
        | cons first rest =>
            rw [List.dropLast_append_of_ne_nil (List.cons_ne_nil first rest)] at member
            exact List.forall_mem_append.2 ⟨apart, others⟩ token member
  | raised raises => exact .raised (raises.behind upcoming)

/-- What does not look into the answer ends alike for all answers. -/
theorem State.Ends.of_error {fault : Fault}
    (ends : state.Ends (.error fault : Except Fault α) next) :
    state.Ends (.error fault : Except Fault β) next := by
  cases ends with
  | refused tokens upcoming apart => exact .refused tokens upcoming apart
  | raised raises => exact .raised raises

namespace Reader

/-- In a state, the run of a reader ends as it should. -/
def CarefulAt (reader : Reader α) (state : State) : Prop :=
  state.Orderly → state.Ends (reader.run state).1 (reader.run state).2

/-- Every run of the reader ends as it should. -/
def Careful (reader : Reader α) : Prop :=
  ∀ state, reader.CarefulAt state

/-! ## Combinations -/

theorem careful_pure (value : α) : (pure value : Reader α).Careful :=
  fun _ _ => .answered [] rfl fun _ member => absurd member List.not_mem_nil

theorem careful_fail (error : SyntaxError) : (fail error : Reader α).Careful :=
  fun _ _ => .refused [] rfl fun _ member => absurd member List.not_mem_nil

theorem careful_lift (result : Except SyntaxError α) : (liftM result : Reader α).Careful := by
  cases result with
  | ok value => exact careful_pure value
  | error error => exact careful_fail error

theorem CarefulAt.bind {reader : Reader α} {continuation : α → Reader β}
    (first : reader.CarefulAt state)
    (behind : ∀ value next, state.Orderly → reader.run state = (.ok value, next) →
      (continuation value).CarefulAt next) : (reader >>= continuation).CarefulAt state := by
  intro orderly
  have ends := first orderly
  rw [run_bind]
  cases ran : reader.run state with
  | mk result next =>
      rw [ran] at ends
      cases ends with
      | answered tokens upcoming apart =>
          exact (behind _ next orderly ran (orderly_of_run ran orderly)).behind upcoming apart
      | refused tokens upcoming apart => exact .refused tokens upcoming apart
      | raised raises => exact .raised raises

theorem Careful.bind {reader : Reader α} {continuation : α → Reader β} (first : reader.Careful)
    (behind : ∀ value, (continuation value).Careful) : (reader >>= continuation).Careful :=
  fun state => (first state).bind fun value next _ _ => behind value next

theorem Careful.map {reader : Reader α} (careful : reader.Careful) (f : α → β) :
    (f <$> reader).Careful :=
  careful.bind fun value => careful_pure (f value)

theorem careful_ite {condition : Prop} [Decidable condition] {first second : Reader α}
    (left : first.Careful) (right : second.Careful) :
    (if condition then first else second).Careful := by
  split
  · exact left
  · exact right

/-- A loop is careful when its rounds are. -/
theorem careful_loop {round : α → Reader (Round α β)}
    {progress : ∀ value, Progresses (round value)} (careful : ∀ value, (round value).Careful)
    (value : α) : (loop round progress value).Careful := by
  intro state
  show state.Orderly → state.Ends (rounds round progress value state).1
    (rounds round progress value state).2
  fun_induction rounds round progress value state with
  | case1 value state more next ran ih =>
      intro orderly
      have ends := careful value state orderly
      rw [ran] at ends
      cases ends with
      | answered tokens upcoming apart =>
          exact (ih (orderly_of_run ran orderly)).behind upcoming apart
  | case2 value state result next ran =>
      intro orderly
      have ends := careful value state orderly
      rw [ran] at ends
      cases ends with
      | answered tokens upcoming apart => exact .answered tokens upcoming apart
  | case3 value state fault next ran =>
      intro orderly
      have ends := careful value state orderly
      rw [ran] at ends
      exact ends.of_error

/-! ## Looking and taking -/

/-- A look at the front of something upcoming, behind tokens that are no boundary, takes nothing. -/
theorem ends_of_front (kept : List Token) {entries : List Scanned} {finish : Position}
    (upcoming : state.upcoming = kept.map .token ++ entries)
    (inside : ∀ token ∈ kept, isBoundary token = false)
    (passes : ∀ token, State.frontOf finish entries = .ok token → state.Passes [] next)
    (raises : ∀ fault rest, entries = .fault fault :: rest →
      next.upcoming = kept.map .token ++ rest) :
    state.Ends (State.frontOf finish entries) next := by
  have nothing : ∀ token ∈ ([] : List Token), token.kind ≠ .colon := by simp
  cases entries with
  | nil => exact .answered [] (passes _ rfl).upcoming nothing
  | cons entry rest =>
      cases entry with
      | token token => exact .answered [] (passes token rfl).upcoming nothing
      | fault fault => exact .raised ⟨kept, kept, rest, upcoming, raises fault rest rfl, inside⟩

theorem careful_peek : peek.Careful := by
  intro state orderly
  obtain ⟨next, ran, passes⟩ := peek_run orderly
  rw [ran]
  refine ends_of_front [] rfl (fun _ member => absurd member List.not_mem_nil) passes ?_
  intro fault rest upcoming
  rw [upcoming] at ran
  obtain ⟨found, -, raised⟩ := raised_of_peek ran
  exact (List.cons.inj (raised.symm.trans upcoming)).2

/-- A fault that is raised by looking has no tokens in front of it. -/
theorem raises_of_peek {fault : SpellingFault}
    (ran : peek.run state = (.error (.spelling fault), next)) : state.Raises fault next := by
  obtain ⟨found, same, upcoming⟩ := raised_of_peek ran
  cases same
  exact ⟨[], [], next.upcoming, upcoming, rfl, fun _ member => absurd member List.not_mem_nil⟩

theorem peekSecond_at {token : Token} {rest : List Scanned}
    (upcoming : state.upcoming = .token token :: rest) (inside : isBoundary token = false) :
    peekSecond.CarefulAt state := by
  intro orderly
  obtain ⟨next, ran, passes⟩ := peekSecond_run orderly upcoming
  rw [ran]
  refine ends_of_front [token] upcoming (List.forall_mem_singleton.2 inside) passes ?_
  rintro fault later rfl
  exact raised_of_peekSecond orderly upcoming ran

theorem careful_check (kind : TokenKind) : (check kind).Careful :=
  careful_peek.bind fun _ => careful_pure _

/-- Taking the next token: the end again, a token that was upcoming, or a fault there. -/
theorem consume_cases (orderly : state.Orderly) :
    (∃ token next, token.kind = .finish ∧ consume.run state = (.ok token, next) ∧
      state.upcoming = next.upcoming) ∨
    (∃ token next, consume.run state = (.ok token, next) ∧ state.Passes [token] next) ∨
    ∃ fault next, consume.run state = (.error (.spelling fault), next) ∧
      state.Raises fault next := by
  obtain ⟨middle, peeked, passes⟩ := peek_run orderly
  cases upcoming : state.upcoming with
  | nil =>
      rw [upcoming] at peeked passes
      have still : middle.upcoming = [] := (passes _ rfl).upcoming.symm.trans upcoming
      obtain ⟨later, ahead⟩ := peek_run_ok peeked
      refine .inl ⟨.finish state.finish, _, rfl, by simp only [consume, peeked]; rfl, ?_⟩
      simp only [State.upcoming, ahead, List.append_eq_nil_iff] at still ⊢
      simpa [Token.finish] using still
  | cons entry rest =>
      cases entry with
      | token token =>
          obtain ⟨next, ran, passes⟩ := consume_run orderly upcoming
          exact .inr (.inl ⟨token, next, ran, passes⟩)
      | fault fault =>
          rw [upcoming] at peeked
          exact .inr (.inr ⟨fault, middle, by simp [consume, peeked, State.frontOf],
            raises_of_peek peeked⟩)

/-- Taking a token that is no colon is careful. -/
theorem consume_at (noColon : ∀ token rest, state.upcoming = .token token :: rest →
    token.kind ≠ .colon) : consume.CarefulAt state := by
  intro orderly
  rcases consume_cases orderly with ⟨token, next, -, ran, same⟩ | ⟨token, next, ran, passes⟩ |
    ⟨fault, next, ran, raises⟩
  · rw [ran]
    exact .answered [] same fun _ member => absurd member List.not_mem_nil
  · rw [ran]
    exact .answered [token] passes.upcoming
      (List.forall_mem_singleton.2 (noColon token _ passes.upcoming))
  · rw [ran]
    exact .raised raises

/-- Taking any token is careful when a colon is refused. -/
theorem careful_consume {continuation : Token → Reader α}
    (refuses : ∀ token, token.kind = .colon → ∃ error, continuation token = fail error)
    (behind : ∀ token, token.kind ≠ .colon → (continuation token).Careful) :
    (consume >>= continuation).Careful := by
  intro state orderly
  rcases consume_cases orderly with ⟨token, next, atEnd, ran, same⟩ | ⟨token, next, ran, passes⟩ |
    ⟨fault, next, ran, raises⟩
  · rw [run_bind_of_ok ran]
    have nothing : state.upcoming = ([] : List Token).map .token ++ next.upcoming := same
    exact (behind token (by simp [atEnd]) next (orderly_of_run ran orderly)).behind nothing
      fun _ member => absurd member List.not_mem_nil
  · rw [run_bind_of_ok ran]
    by_cases colon : token.kind = .colon
    · obtain ⟨error, same⟩ := refuses token colon
      rw [same]
      exact .refused [token] passes.upcoming fun _ member => absurd member List.not_mem_nil
    · exact (behind token colon next passes.orderly).behind passes.upcoming
        (List.forall_mem_singleton.2 colon)
  · rw [run_bind, ran]
    exact .raised raises

/-- A reader that takes one token, which must be fit, where a colon is not. -/
theorem careful_consume_if {fit : Token → Prop} [DecidablePred fit] {fault : Token → SyntaxError}
    (unfit : ∀ token, token.kind = .colon → ¬ fit token) :
    (consume >>= fun found => if fit found then pure found else fail (fault found)).Careful :=
  careful_consume (fun token colon => ⟨fault token, if_neg (unfit token colon)⟩)
    fun _ _ => careful_ite (careful_pure _) (careful_fail _)

theorem careful_expect {kind : TokenKind} (other : kind ≠ .colon) (expectation : Expectation) :
    (expect kind expectation).Careful :=
  careful_consume_if fun _ colon same => other (same.symm.trans colon)

theorem careful_identifier (purpose : Keyword) : (identifier purpose).Careful :=
  careful_consume_if fun _ colon same => by simp [colon] at same

theorem careful_name (purpose : Named) : (name purpose).Careful :=
  careful_consume_if fun _ colon named => by simp [colon] at named

/-- What was checked to come next is what comes next. -/
theorem kind_of_check (orderly : state.Orderly) {kind : TokenKind}
    (ran : (check kind).run state = (.ok true, next)) {token : Token} {rest : List Scanned}
    (upcoming : next.upcoming = .token token :: rest) : token.kind = kind := by
  obtain ⟨passes, front, same, isKind⟩ := front_of_check orderly ran
  rw [show state.upcoming = next.upcoming from passes.upcoming, upcoming] at same
  obtain rfl := Except.ok.inj same
  exact of_decide_eq_true isKind.symm

/-- Taking what was checked to be no colon is careful. -/
theorem careful_check_consume {kind : TokenKind} (other : kind ≠ .colon)
    {taking : Token → Reader α} {otherwise : Reader α} (taken : ∀ token, (taking token).Careful)
    (not : otherwise.Careful) :
    (check kind >>= fun found => if found then consume >>= taking else otherwise).Careful := by
  intro state
  refine (careful_check kind state).bind fun found next orderly ran => ?_
  cases found with
  | false => exact not next
  | true =>
      refine (consume_at fun token rest upcoming => ?_).bind fun token last _ _ => taken token last
      rw [kind_of_check orderly ran upcoming]
      exact other

theorem careful_eat {kind : TokenKind} (other : kind ≠ .colon) : (eat kind).Careful :=
  careful_check_consume other (fun _ => careful_pure true) (careful_pure false)

theorem careful_atAttribute : atAttribute.Careful := by
  intro state
  refine (careful_check .identifier state).bind fun found next orderly ran => ?_
  cases found with
  | false => exact careful_pure false next
  | true =>
      obtain ⟨passes, key, front, isKind⟩ := front_of_check orderly ran
      have isKey : key.kind = .identifier := of_decide_eq_true isKind.symm
      obtain ⟨rest, upcoming⟩ := upcoming_of_front (by simp [isKey]) front
      have still : next.upcoming = .token key :: rest := passes.upcoming.symm.trans upcoming
      have inside : isBoundary key = false := by simp [isBoundary, isKey]
      exact (peekSecond_at still inside).bind fun _ _ _ _ => careful_pure _ _

theorem careful_attributeKey? : attributeKey?.Careful := by
  intro state
  refine (careful_atAttribute state).bind fun isAttribute next orderly ran => ?_
  cases isAttribute with
  | false => exact careful_pure none next
  | true =>
      obtain ⟨passes, front⟩ := passes_of_atAttribute orderly ran
      obtain ⟨key, sign, rest, isKey, isSign, upcoming⟩ := front rfl
      have atKey : next.upcoming = .token key :: .token sign :: rest :=
        passes.upcoming.symm.trans upcoming
      refine (consume_at fun token later same => ?_).bind fun token behind still taken => ?_
      · obtain ⟨rfl, -⟩ : key = token ∧ _ := by simpa [atKey] using same
        simp [isKey]
      · obtain ⟨found, takes, passesKey⟩ := consume_run still atKey
        rw [takes] at taken
        cases taken
        have atSign : behind.upcoming = .token sign :: rest :=
          (List.cons.inj (passesKey.upcoming.symm.trans atKey)).2
        refine (consume_at fun token later same => ?_).bind fun _ last _ _ => careful_pure _ last
        obtain ⟨rfl, -⟩ : sign = token ∧ _ := by simpa [atSign] using same
        simp [isSign]

theorem careful_insideDirective? : insideDirective?.Careful := by
  intro state
  refine (careful_peek state).bind fun token next orderly ran => ?_
  split
  next => exact careful_pure none next
  next inside =>
    obtain ⟨passes, front⟩ := front_of_peek orderly ran
    refine (consume_at fun found rest upcoming => ?_).bind fun _ last _ _ => careful_pure _ last
    rw [show state.upcoming = next.upcoming from passes.upcoming, upcoming] at front
    obtain rfl := Except.ok.inj front
    exact fun colon => inside (.inr colon)

theorem careful_regionFrom (first : Token) : (regionFrom first).Careful :=
  fun _ _ => .answered [] rfl fun _ member => absurd member List.not_mem_nil

theorem careful_declareTable (name : String) : (declareTable name).Careful := by
  intro state _
  simp only [declareTable]
  split
  · exact .answered [] rfl fun _ member => absurd member List.not_mem_nil
  · exact .answered [] rfl fun _ member => absurd member List.not_mem_nil

/-! ## Attributes and bodies -/

theorem careful_attributes (construct : Construct) : (attributes construct).Careful := by
  refine (careful_loop (fun pairs => ?_) []).bind fun _ => careful_pure _
  refine careful_attributeKey?.bind fun key? => ?_
  cases key? with
  | none => exact careful_pure _
  | some key =>
      refine careful_consume (fun token colon => ⟨_, if_pos ?_⟩) fun _ _ => ?_
      · simp [colon, isAttributeValue]
      · exact careful_ite (careful_fail _) (careful_ite (careful_fail _) (careful_pure _))

theorem careful_entryName : entryName.Careful :=
  careful_check_consume (by decide) (fun _ => careful_pure _) (careful_pure _)

/-- The reader of a construct that computes what its attributes come to. -/
theorem careful_attributed (construct : Construct)
    (reading : Attributes → Except SyntaxError α) :
    (attributes construct >>= fun found => liftM (reading found)).Careful :=
  (careful_attributes construct).bind fun _ => careful_lift _

theorem careful_member : member.Careful := by
  refine (careful_name .member).bind fun name => ?_
  refine (careful_attributes _).bind fun attributes => ?_
  refine (careful_lift attributes.member).bind fun opcodes => ?_
  exact (careful_regionFrom name).bind fun _ => careful_pure _

theorem careful_entryBehind (construct : Construct) (body : Body) (keyword : String) :
    (entryBehind construct body keyword).Careful := by
  unfold entryBehind
  split
  · exact (careful_entryName.bind fun name => careful_attributed _ (·.source name)).map _
  · exact careful_entryName.map _
  · exact (careful_entryName.bind fun name => careful_attributed _ (·.staging name)).map _
  · exact (careful_attributed _ (·.immediate)).map _
  · exact (careful_attributed _ (·.modifier)).map _
  · exact careful_ite (careful_member.map _) (careful_fail _)
  · exact careful_pure _

/-- The rounds of a body and of an enumeration are careful when their entries are. -/
theorem careful_punctuated {unclosed : SyntaxError} {closed again : Round α β}
    {entry : Reader (Round α β)} (careful : entry.Careful) :
    (punctuated unclosed closed again entry).Careful := by
  refine (careful_check .finish).bind fun _ => careful_ite (careful_fail _) ?_
  refine (careful_eat (by decide)).bind fun _ => careful_ite (careful_pure _) ?_
  refine (careful_eat (by decide)).bind fun _ => careful_ite (careful_pure _) ?_
  exact (careful_eat (by decide)).bind fun _ => careful_ite (careful_pure _) careful

theorem careful_nextEntry (construct : Construct) (body : Body) :
    (nextEntry construct body).Careful := by
  refine careful_punctuated (careful_atAttribute.bind fun _ => careful_ite ?_ ?_)
  · exact careful_consume (fun token _ => ⟨_, rfl⟩) fun _ _ => careful_fail _
  · exact (careful_identifier _).bind fun keyword =>
      (careful_entryBehind construct body keyword.lexeme).bind fun _ => careful_pure _

theorem careful_body (construct : Construct) (layout : Layout) : (body construct layout).Careful :=
  (careful_expect (by decide) _).bind fun _ => careful_loop (careful_nextEntry construct) _

/-! ## Directives -/

theorem careful_nextConstant (table : String) (values : List UInt32) :
    (nextConstant table values).Careful := by
  refine careful_consume (fun token colon => ⟨.lookupTableEntry table token.lexeme, ?_⟩)
    fun token _ => ?_
  · simp only [colon]
  · split
    · exact careful_pure _
    · exact careful_pure _
    · exact careful_pure _
    · split
      · exact careful_pure _
      · exact careful_fail _
    · exact careful_fail _
    · exact careful_fail _

theorem careful_lookupTable : lookupTable.Careful := by
  refine (careful_name _).bind fun token => (careful_declareTable _).bind fun _ => ?_
  refine careful_ite ?_ (careful_fail _)
  refine (careful_expect (by decide) _).bind fun _ => ?_
  refine (careful_loop (careful_nextConstant token.lexeme) []).bind fun _ => ?_
  exact (careful_regionFrom token).bind fun _ => careful_pure _

theorem careful_enumerationEntryBehind (enumeration keyword : String) :
    (enumerationEntryBehind enumeration keyword).Careful := by
  unfold enumerationEntryBehind
  split
  · refine careful_consume (fun token colon => ⟨_, if_neg ?_⟩) fun _ _ => ?_
    · simp [colon, isAttributeValue]
    · refine careful_ite ?_ (careful_fail _)
      exact (careful_attributes _).bind fun attributes =>
        (careful_lift attributes.isDefault).bind fun _ => careful_pure _
  · exact careful_pure _
  · exact careful_fail _

theorem careful_nextEnumerationEntry (enumeration : String) (entries : List EnumerationEntry) :
    (nextEnumerationEntry enumeration entries).Careful :=
  careful_punctuated <| (careful_identifier _).bind fun keyword =>
    (careful_enumerationEntryBehind enumeration keyword.lexeme).bind fun _ => careful_pure _

theorem careful_enumeration : enumeration.Careful := by
  refine (careful_name _).bind fun token => (careful_expect (by decide) _).bind fun _ => ?_
  refine (careful_loop (careful_nextEnumerationEntry token.lexeme) []).bind fun _ => ?_
  exact (careful_regionFrom token).bind fun _ => careful_pure _

theorem careful_instruction : instruction.Careful := by
  refine (careful_name _).bind fun token => (careful_attributes _).bind fun attributes => ?_
  refine (careful_lift attributes.header).bind fun header => ?_
  refine (careful_check .openBrace).bind fun hasBody => careful_ite ?_ ?_
  · refine ((careful_body _ _).map _).bind fun layout => ?_
    exact (careful_regionFrom token).bind fun _ => careful_pure _
  · exact (careful_pure header.2).bind fun _ =>
      (careful_regionFrom token).bind fun _ => careful_pure _

/-- The name of a group is the token that was looked at. -/
theorem groupName?_at {token : Token}
    (front : State.frontOf state.finish state.upcoming = .ok token) :
    (groupName? token).CarefulAt state := by
  unfold groupName?
  split
  next isName =>
    refine (careful_atAttribute state).bind fun isKey next orderly ran => ?_
    cases isKey with
    | true => exact careful_pure none next
    | false =>
        have passes := (passes_of_atAttribute orderly ran).1
        refine (consume_at fun found rest upcoming => ?_).bind fun _ last _ _ => careful_pure _ last
        rw [show state.upcoming = next.upcoming from passes.upcoming, upcoming] at front
        obtain rfl := Except.ok.inj front
        rcases isName with identifier | text
        · simp [identifier]
        · simp [text]
  next => exact careful_pure none state

theorem careful_group : group.Careful := by
  intro state
  refine (careful_peek state).bind fun token next orderly ran => ?_
  obtain ⟨passes, front⟩ := front_of_peek orderly ran
  rw [← passes.finish, show state.upcoming = next.upcoming from passes.upcoming] at front
  refine (groupName?_at front).bind fun name? last _ _ => Careful.bind ?_ ?_ last
  · exact careful_attributes _
  · intro attributes
    refine (careful_lift attributes.header).bind fun header => ?_
    refine (careful_check .openBrace).bind fun _ => careful_ite ?_ (careful_fail _)
    refine (careful_body _ _).bind fun body => careful_ite (careful_fail _) ?_
    exact (careful_regionFrom token).bind fun _ => careful_pure _

theorem careful_directiveNamed (name : String) : (directiveNamed name).Careful := by
  unfold directiveNamed
  split
  · exact careful_lookupTable
  · exact careful_enumeration
  · exact careful_instruction
  · exact careful_group
  · exact careful_fail _

theorem careful_boundary (directive : String) : (boundary directive).Careful := by
  refine (careful_loop (fun lexemes => ?_) []).bind fun _ =>
    careful_ite (careful_pure _) (careful_fail _)
  refine careful_insideDirective?.bind fun token? => ?_
  cases token? with
  | none => exact careful_pure _
  | some token => exact careful_pure _

/-! ## The reading of a directive -/

/-- Reads a directive behind its mark. -/
def behindMark : Reader Directive := do
  let name ← identifier .directive
  let directive ← directiveNamed name.lexeme
  boundary name.lexeme
  return directive

theorem careful_behindMark : behindMark.Careful := by
  refine (careful_identifier _).bind fun name => (careful_directiveNamed _).bind fun _ => ?_
  exact (careful_boundary _).bind fun _ => careful_pure _

/-- Behind a colon, a directive is read as behind its mark; anything else is refused. -/
theorem directive_run_of_consume {token : Token} (taken : consume.run state = (.ok token, next)) :
    directive.run state =
      if token.kind = .colon then behindMark.run next
      else (.error (.grammar (.expected .directiveMark)), next) := by
  rw [directive, run_bind, expect, run_bind_of_ok taken]
  by_cases colon : token.kind = .colon
  · rw [if_pos colon, if_pos colon]
    rfl
  · rw [if_neg colon, if_neg colon]
    rfl

/-- Reading a directive raises a fault of spelling as its parts do. -/
theorem raises_of_directive (orderly : state.Orderly) {fault : SpellingFault}
    (ran : directive.run state = (.error (.spelling fault), next)) : state.Raises fault next := by
  rcases consume_cases orderly with ⟨token, middle, atEnd, taken, -⟩ |
    ⟨token, middle, taken, passes⟩ | ⟨found, middle, taken, raises⟩
  · rw [directive_run_of_consume taken, if_neg (by simp [atEnd])] at ran
    cases ran
  · rw [directive_run_of_consume taken] at ran
    split at ran
    next =>
      have ends := careful_behindMark middle passes.orderly
      rw [ran] at ends
      cases ends with
      | raised raises => exact raises.behind passes.upcoming
    next => cases ran
  · have raised : directive.run state = (.error (.spelling found), middle) := by
      rw [directive, run_bind, expect, run_bind, taken]
    rw [raised] at ran
    cases ran
    exact raises

/-- A fault of spelling that the reading of a directive raises was upcoming. -/
theorem listed_of_directive (orderly : state.Orderly) {fault : SpellingFault}
    (ran : directive.run state = (.error (.spelling fault), next)) :
    .fault fault ∈ state.upcoming :=
  (raises_of_directive orderly ran).listed

end Reader
end InstructionSet.Grammar
