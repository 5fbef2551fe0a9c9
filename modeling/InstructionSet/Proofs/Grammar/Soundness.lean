import InstructionSet.Proofs.Grammar.Readers

/-!
# What is read is a phrase

Whenever the reader of a construct answers, the tokens that it passed are a phrase of the grammar,
and the answer is what the phrase stands for. Loops are taken round by round: the entries read so
far stay in front of those that the later rounds add.
-/

namespace InstructionSet.Grammar.Reader

open InstructionSet.Text InstructionSet.Scanner

set_option autoImplicit false

variable {α : Type} {state next : State}

theorem ok_of_lift {result : Except SyntaxError α} {value : α}
    (ran : (liftM result : Reader α).run state = (.ok value, next)) :
    result = .ok value ∧ next = state := by
  cases result with
  | ok found =>
      obtain ⟨rfl, rfl⟩ : found = value ∧ state = next := by
        simpa [liftM, monadLift, MonadLift.monadLift, ofExcept, answer] using ran
      exact ⟨rfl, rfl⟩
  | error error => simp [liftM, monadLift, MonadLift.monadLift, ofExcept] at ran

theorem map_ok {β : Type} {f : α → β} {reader : Reader α} {value : β}
    (ran : (f <$> reader).run state = (.ok value, next)) :
    ∃ found, reader.run state = (.ok found, next) ∧ f found = value := by
  obtain ⟨found, middle, first, ended⟩ := run_bind_ok ran
  cases ended
  exact ⟨found, first, rfl⟩

/-! ## Attributes -/

theorem nextAttribute_again {construct : Construct} {pairs more : AttributePairs}
    (orderly : state.Orderly)
    (ran : (nextAttribute construct pairs).run state = (.ok (.again more), next)) :
    ∃ key sign value, key.kind = .identifier ∧ sign.kind = .equals ∧
      isAttributeValue value.kind = true ∧ key.lexeme.toLower ∉ pairs.map (·.1) ∧
      more = pairs ++ [(key.lexeme.toLower, value)] ∧ state.Passes [key, sign, value] next := by
  obtain ⟨key?, middle, looked, rest⟩ := run_bind_ok ran
  rcases passes_of_attributeKey? orderly looked with
    ⟨rfl, -⟩ | ⟨key, sign, rfl, isKey, isSign, passes⟩
  · simp at rest
  · obtain ⟨value, last, consumed, rest⟩ := run_bind_ok rest
    split at rest
    next => simp at rest
    next isValue =>
      have valued : isAttributeValue value.kind = true := by simpa using isValue
      split at rest
      next => simp at rest
      next isNew =>
        obtain ⟨rfl, rfl⟩ : pairs ++ [(key.lexeme.toLower, value)] = more ∧ last = next := by
          simpa using rest
        have notFinish : value.kind ≠ .finish := by
          intro atEnd
          rw [atEnd] at valued
          cases valued
        have new : key.lexeme.toLower ∉ pairs.map (·.1) := by
          intro member
          obtain ⟨pair, listed, same⟩ := List.mem_map.1 member
          exact isNew (List.any_eq_true.2 ⟨pair, listed, decide_eq_true same⟩)
        exact ⟨key, sign, value, isKey, isSign, valued, new, rfl,
          passes.trans (passes_of_consume passes.orderly consumed notFinish)⟩

theorem nextAttribute_done {construct : Construct} {pairs result : AttributePairs}
    (orderly : state.Orderly)
    (ran : (nextAttribute construct pairs).run state = (.ok (.done result), next)) :
    result = pairs ∧ state.Passes [] next := by
  obtain ⟨key?, middle, looked, rest⟩ := run_bind_ok ran
  rcases passes_of_attributeKey? orderly looked with ⟨rfl, passes⟩ | ⟨key, sign, rfl, -, -, -⟩
  · obtain ⟨rfl, rfl⟩ : pairs = result ∧ middle = next := by simpa using rest
    exact ⟨rfl, passes⟩
  · obtain ⟨value, last, consumed, rest⟩ := run_bind_ok rest
    split at rest
    next => simp at rest
    next => split at rest <;> simp at rest

theorem attributes_sound {construct : Construct} {found : Attributes} (orderly : state.Orderly)
    (ran : (attributes construct).run state = (.ok found, next)) :
    ∃ tokens, state.Passes tokens next ∧ AttributesPhrase found.pairs tokens ∧
      (found.pairs.map (·.1)).Nodup ∧ found.construct = construct := by
  obtain ⟨pairs, middle, looped, ended⟩ := run_bind_ok ran
  obtain ⟨rfl, rfl⟩ : (⟨construct, pairs⟩ : Attributes) = found ∧ middle = next := by
    simpa using ended
  -- The pairs read so far stay in front, and the keys stay distinct.
  have rounds := rounds_induct (motive := fun pairs state result last => state.Orderly →
      (pairs.map (·.1)).Nodup → ∃ more tokens, result = pairs ++ more ∧
        AttributesPhrase more tokens ∧ (result.map (·.1)).Nodup ∧ state.Passes tokens last)
    (by
      intro pairs state result last once orderly distinct
      obtain ⟨rfl, passes⟩ := nextAttribute_done orderly once
      exact ⟨[], [], (List.append_nil _).symm, .none, distinct, passes⟩)
    (by
      intro pairs state found middle result last once ih orderly distinct
      obtain ⟨key, sign, value, isKey, isSign, isValue, isNew, rfl, passes⟩ :=
        nextAttribute_again orderly once
      have still : ((pairs ++ [(key.lexeme.toLower, value)]).map (·.1)).Nodup := by
        rw [List.map_append]
        refine List.nodup_append.2 ⟨distinct, List.pairwise_singleton _ _, ?_⟩
        intro first member second here same
        cases List.mem_singleton.1 here
        rw [same] at member
        exact isNew member
      obtain ⟨more, tokens, rfl, phrase, later, behind⟩ := ih passes.orderly still
      exact ⟨(key.lexeme.toLower, value) :: more, key :: sign :: value :: tokens,
        by rw [List.append_assoc, List.singleton_append],
        .more key sign value isKey isSign isValue phrase, later, passes.trans behind⟩)
    looped orderly List.nodup_nil
  obtain ⟨more, tokens, rfl, phrase, distinct, passes⟩ := rounds
  exact ⟨tokens, passes, phrase, distinct, rfl⟩

theorem attributed_only_sound {construct : Construct}
    {reading : Attributes → Except SyntaxError α} {value : α} (orderly : state.Orderly)
    (ran : (attributes construct >>= fun found => (liftM (reading found) : Reader α)).run state =
      (.ok value, next)) :
    ∃ tokens, state.Passes tokens next ∧ Attributed construct reading value tokens := by
  obtain ⟨found, middle, read, rest⟩ := run_bind_ok ran
  obtain ⟨tokens, passes, phrase, distinct, same⟩ := attributes_sound orderly read
  obtain ⟨computed, rfl⟩ := ok_of_lift rest
  refine ⟨tokens, passes, found.pairs, phrase, distinct, ?_⟩
  rw [← computed, ← same]

/-- What a construct reads from its attributes, and how the reading goes on behind them. -/
theorem attributed_sound {β : Type} {construct : Construct}
    {reading : Attributes → Except SyntaxError α} {continuation : α → Reader β} {result : β}
    (orderly : state.Orderly)
    (ran : (attributes construct >>= fun found =>
      (liftM (reading found) : Reader α) >>= continuation).run state = (.ok result, next)) :
    ∃ value tokens middle, state.Passes tokens middle ∧
      Attributed construct reading value tokens ∧
      (continuation value).run middle = (.ok result, next) := by
  obtain ⟨found, middle, read, rest⟩ := run_bind_ok ran
  obtain ⟨value, last, lifted, behind⟩ := run_bind_ok rest
  have only : (attributes construct >>= fun found =>
      (liftM (reading found) : Reader α)).run state = (.ok value, last) := by
    rw [run_bind_of_ok read]
    exact lifted
  obtain ⟨tokens, passes, attributes⟩ := attributed_only_sound orderly only
  exact ⟨value, tokens, last, passes, attributes, behind⟩

/-! ## Bodies -/

theorem entryName_sound {name : String} (orderly : state.Orderly)
    (ran : entryName.run state = (.ok name, next)) :
    ∃ tokens, state.Passes tokens next ∧ EntryNamePhrase name tokens := by
  obtain ⟨isText, middle, checked, rest⟩ := run_bind_ok ran
  cases isText with
  | true =>
      obtain ⟨token, last, consumed, ended⟩ := run_bind_ok rest
      obtain ⟨rfl, rfl⟩ : token.lexeme = name ∧ last = next := by simpa using ended
      obtain ⟨kind, passes⟩ := consume_after_check orderly checked (by decide) consumed
      exact ⟨[token], passes, .quoted token kind⟩
  | false =>
      obtain ⟨rfl, rfl⟩ : "" = name ∧ middle = next := by simpa using rest
      exact ⟨[], (front_of_check orderly checked).1, .unnamed⟩

/-- A name that may be left out, with the attributes behind it. -/
theorem named_sound {construct : Construct} {reading : String → Attributes → Except SyntaxError α}
    {value : α} (orderly : state.Orderly)
    (ran : (entryName >>= fun name => attributes construct >>= fun found =>
      (liftM (reading name found) : Reader α)).run state = (.ok value, next)) :
    ∃ name names tokens, state.Passes (names ++ tokens) next ∧ EntryNamePhrase name names ∧
      Attributed construct (reading name) value tokens := by
  obtain ⟨name, middle, named, rest⟩ := run_bind_ok ran
  obtain ⟨names, passesName, phrase⟩ := entryName_sound orderly named
  obtain ⟨tokens, passes, attributes⟩ := attributed_only_sound passesName.orderly rest
  exact ⟨name, names, tokens, passesName.trans passes, phrase, attributes⟩

/-- The region of a construct ends with the last token that was passed since its first one. -/
theorem regionFrom_sound {first : Token} {rest : List Token} {last final : State} {region : Region}
    (passes : state.Passes (first :: rest) last)
    (ran : (regionFrom first).run last = (.ok region, final)) :
    region = regionOver first rest ∧ final = last := by
  obtain ⟨rfl, rfl⟩ : first.regionTo (last.last.getD first) = region ∧ last = final := by
    simpa [regionFrom] using ran
  refine ⟨?_, rfl⟩
  rw [passes.taken, List.getLast?_cons]
  rfl

theorem member_sound {member : GroupMember} (orderly : state.Orderly)
    (ran : Reader.member.run state = (.ok member, next)) :
    ∃ tokens, state.Passes tokens next ∧ MemberPhrase member tokens := by
  obtain ⟨token, middle, named, header⟩ := run_bind_ok ran
  obtain ⟨isName, passesName⟩ := passes_of_name orderly named
  obtain ⟨opcodes, tokens, last, passes, attributes, placing⟩ :=
    attributed_sound passesName.orderly header
  obtain ⟨region, final, placed, ended⟩ := run_bind_ok placing
  have whole : state.Passes (token :: tokens) last := passesName.trans passes
  obtain ⟨rfl, rfl⟩ := regionFrom_sound whole placed
  obtain ⟨rfl, rfl⟩ : (⟨token.lexeme, opcodes, regionOver token tokens⟩ : GroupMember) = member ∧
      final = next := by simpa using ended
  exact ⟨token :: tokens, whole, .member token isName attributes⟩

/-! ### Entries and members -/

/-- What a word at the start of an entry adds to a body. -/
theorem entryBehind_sound {construct : Construct} {body found : Body} {keyword : String}
    (orderly : state.Orderly)
    (ran : (entryBehind construct body keyword).run state = (.ok found, next)) :
    ∃ tokens, state.Passes tokens next ∧
      ((∃ entry, EntryPhrase entry keyword tokens ∧ found = body.addEntry entry) ∨
        (∃ member, keyword = "ins" ∧ construct.hasMembers = true ∧ MemberPhrase member tokens ∧
          found = body.addMember member)) := by
  unfold entryBehind at ran
  split at ran
  next =>
    obtain ⟨form, read, rfl⟩ := map_ok ran
    obtain ⟨name, names, tokens, passes, named, attributes⟩ := named_sound orderly read
    exact ⟨names ++ tokens, passes, .inl ⟨_, .source named attributes, rfl⟩⟩
  next =>
    obtain ⟨name, read, rfl⟩ := map_ok ran
    obtain ⟨tokens, passes, phrase⟩ := entryName_sound orderly read
    exact ⟨tokens, passes, .inl ⟨_, .dest phrase, rfl⟩⟩
  next =>
    obtain ⟨form, read, rfl⟩ := map_ok ran
    obtain ⟨name, names, tokens, passes, named, attributes⟩ := named_sound orderly read
    exact ⟨names ++ tokens, passes, .inl ⟨_, .staging named attributes, rfl⟩⟩
  next =>
    obtain ⟨operand, read, rfl⟩ := map_ok ran
    obtain ⟨tokens, passes, attributes⟩ := attributed_only_sound orderly read
    exact ⟨tokens, passes, .inl ⟨_, .immediate attributes, rfl⟩⟩
  next =>
    obtain ⟨placement, read, rfl⟩ := map_ok ran
    obtain ⟨tokens, passes, attributes⟩ := attributed_only_sound orderly read
    exact ⟨tokens, passes, .inl ⟨_, .modifier attributes, rfl⟩⟩
  next =>
    split at ran
    next permitted =>
      obtain ⟨member, read, rfl⟩ := map_ok ran
      obtain ⟨tokens, passes, phrase⟩ := member_sound orderly read
      exact ⟨tokens, passes, .inr ⟨member, rfl, permitted, phrase, rfl⟩⟩
    next => simp at ran
  next notSrc notDest notSr notImm notMod notIns =>
    obtain ⟨rfl, rfl⟩ : body.addEntry (.tag keyword) = found ∧ state = next := by simpa using ran
    have bare : keyword ∉ entryKeywords := by
      simp only [entryKeywords, List.mem_cons, List.not_mem_nil, or_false, not_or]
      exact ⟨notSrc, notDest, notSr, notImm, notMod, notIns⟩
    exact ⟨[], .refl orderly, .inl ⟨_, .tag bare, rfl⟩⟩

/-- A mark that was taken, or none: what the rounds of a body and of an enumeration begin with. -/
theorem eaten_or_rest {β γ : Type} {kind : TokenKind} (inside : kind ≠ .finish)
    {answered : Round β γ} {rest : Reader (Round β γ)} {result : Round β γ}
    (orderly : state.Orderly)
    (ran : (eat kind >>= fun eaten => if eaten then pure answered else rest).run state =
      (.ok result, next)) :
    (∃ token, token.kind = kind ∧ result = answered ∧ state.Passes [token] next) ∨
      ∃ middle, state.Passes [] middle ∧ rest.run middle = (.ok result, next) := by
  obtain ⟨eaten, middle, ate, behind⟩ := run_bind_ok ran
  rcases passes_of_eat orderly inside ate with ⟨rfl, token, isKind, passes⟩ | ⟨rfl, passes⟩
  · obtain ⟨rfl, rfl⟩ : answered = result ∧ middle = next := by simpa using behind
    exact .inl ⟨token, isKind, rfl, passes⟩
  · exact .inr ⟨middle, passes, behind⟩

/-- What the rounds of a body and of an enumeration do: they look for the end, for the closing
brace and for marks, and only then for an entry. -/
def punctuated {β γ : Type} (unclosed : SyntaxError) (closed again : Round β γ)
    (entry : Reader (Round β γ)) : Reader (Round β γ) :=
  check .finish >>= fun atEnd => if atEnd then fail unclosed else
  eat .closeBrace >>= fun eaten => if eaten then pure closed else
  eat .comma >>= fun eaten => if eaten then pure again else
  eat .semicolon >>= fun eaten => if eaten then pure again else entry

theorem punctuated_sound {β γ : Type} {unclosed : SyntaxError} {closed again : Round β γ}
    {entry : Reader (Round β γ)} {result : Round β γ} (orderly : state.Orderly)
    (ran : (punctuated unclosed closed again entry).run state = (.ok result, next)) :
    (∃ brace, brace.kind = .closeBrace ∧ result = closed ∧ state.Passes [brace] next) ∨
    (∃ mark, isMark mark ∧ result = again ∧ state.Passes [mark] next) ∨
    ∃ middle, state.Passes [] middle ∧ entry.run middle = (.ok result, next) := by
  obtain ⟨atEnd, checked, ranCheck, afterCheck⟩ := run_bind_ok ran
  have passesCheck := (front_of_check orderly ranCheck).1
  cases atEnd with
  | true => simp at afterCheck
  | false =>
  rcases eaten_or_rest (by decide) passesCheck.orderly afterCheck with
    ⟨brace, isClose, rfl, passes⟩ | ⟨noBrace, passesBrace, afterBrace⟩
  · exact .inl ⟨brace, isClose, rfl, passesCheck.trans passes⟩
  have toBrace := passesCheck.trans passesBrace
  rcases eaten_or_rest (by decide) toBrace.orderly afterBrace with
    ⟨comma, isComma, rfl, passes⟩ | ⟨noComma, passesComma, afterComma⟩
  · exact .inr (.inl ⟨comma, .inl isComma, rfl, toBrace.trans passes⟩)
  have toComma := toBrace.trans passesComma
  rcases eaten_or_rest (by decide) toComma.orderly afterComma with
    ⟨semicolon, isSemicolon, rfl, passes⟩ | ⟨noMark, passesSemicolon, afterSemicolon⟩
  · exact .inr (.inl ⟨semicolon, .inr isSemicolon, rfl, toComma.trans passes⟩)
  exact .inr (.inr ⟨noMark, toComma.trans passesSemicolon, afterSemicolon⟩)

/-- One round in a body: its closing brace, a mark, or an entry or member that is added. -/
theorem nextEntry_sound {construct : Construct} {body : Body} {result : Round Body Body}
    (orderly : state.Orderly)
    (ran : (nextEntry construct body).run state = (.ok result, next)) :
    (∃ brace, brace.kind = .closeBrace ∧ result = .done body ∧ state.Passes [brace] next) ∨
    (∃ mark, isMark mark ∧ result = .again body ∧ state.Passes [mark] next) ∨
    (∃ keyword tokens, keyword.kind = .identifier ∧ state.Passes (keyword :: tokens) next ∧
      ((∃ entry, EntryPhrase entry keyword.lexeme tokens ∧
          result = .again (body.addEntry entry)) ∨
        (∃ member, keyword.lexeme = "ins" ∧ construct.hasMembers = true ∧
          MemberPhrase member tokens ∧ result = .again (body.addMember member)))) := by
  rcases punctuated_sound orderly ran with
    ⟨brace, isClose, same, passes⟩ | ⟨mark, marks, same, passes⟩ | ⟨middle, passes, afterMark⟩
  · exact .inl ⟨brace, isClose, same, passes⟩
  · exact .inr (.inl ⟨mark, marks, same, passes⟩)
  obtain ⟨stray, looked, ranStray, afterStray⟩ := run_bind_ok afterMark
  have passesStray := passes.trans (passes_of_atAttribute passes.orderly ranStray).1
  cases stray with
  | true =>
      obtain ⟨key, last, consumed, failed⟩ := run_bind_ok afterStray
      simp at failed
  | false =>
      obtain ⟨keyword, behind, ranKeyword, afterKeyword⟩ := run_bind_ok afterStray
      obtain ⟨isKeyword, passesKeyword⟩ := passes_of_identifier passesStray.orderly ranKeyword
      obtain ⟨found, last, entered, ended⟩ := run_bind_ok afterKeyword
      obtain ⟨rfl, rfl⟩ : .again found = result ∧ last = next := by simpa using ended
      obtain ⟨tokens, passesEntry, added⟩ := entryBehind_sound passesKeyword.orderly entered
      have before : state.Passes [keyword] behind := passesStray.trans passesKeyword
      refine .inr (.inr ⟨keyword, tokens, isKeyword, before.trans passesEntry, ?_⟩)
      rcases added with ⟨entry, phrase, rfl⟩ | ⟨member, isIns, permitted, phrase, rfl⟩
      · exact .inl ⟨entry, phrase, rfl⟩
      · exact .inr ⟨member, isIns, permitted, phrase, rfl⟩

/-- The body with further entries and members behind those that it lists. -/
def bodyWith (body : Body) (entries : List LayoutEntry) (members : List GroupMember) : Body where
  layout := { body.layout with entries := body.layout.entries ++ entries }
  members := body.members ++ members

theorem bodyWith_nil (body : Body) : bodyWith body [] [] = body := by
  simp [bodyWith]

theorem bodyWith_addEntry (body : Body) (entry : LayoutEntry) (entries : List LayoutEntry)
    (members : List GroupMember) :
    bodyWith (body.addEntry entry) entries members = bodyWith body (entry :: entries) members := by
  simp [bodyWith, Body.addEntry, Layout.add]

theorem bodyWith_addMember (body : Body) (member : GroupMember) (entries : List LayoutEntry)
    (members : List GroupMember) :
    bodyWith (body.addMember member) entries members =
      bodyWith body entries (member :: members) := by
  simp [bodyWith, Body.addMember]

theorem body_sound {construct : Construct} {layout : Layout} {found : Body}
    (orderly : state.Orderly)
    (ran : (body construct layout).run state = (.ok found, next)) :
    ∃ entries tokens, state.Passes tokens next ∧
      BodyPhrase construct.hasMembers entries found.members tokens ∧
      found.layout = { layout with entries := layout.entries ++ entries } := by
  obtain ⟨brace, middle, opened, looped⟩ := run_bind_ok ran
  obtain ⟨isOpen, passesBrace⟩ := passes_of_expect orderly (by decide) opened
  -- Every round adds an item in front of those that the rounds behind it add.
  have rounds := rounds_induct (motive := fun body state result last => state.Orderly →
      ∃ entries members tokens, result = bodyWith body entries members ∧
        ItemsPhrase construct.hasMembers entries members tokens ∧ state.Passes tokens last)
    (by
      intro body state result last once orderly
      rcases nextEntry_sound orderly once with
        ⟨brace, isClose, same, passes⟩ | ⟨mark, isMark, same, passes⟩ |
          ⟨keyword, tokens, isKeyword, passes, ⟨entry, phrase, same⟩ | ⟨member, _, _, _, same⟩⟩
      · cases same
        exact ⟨[], [], [brace], (bodyWith_nil _).symm, .close brace isClose, passes⟩
      · cases same
      · cases same
      · cases same)
    (by
      intro body state found middle result last once ih orderly
      rcases nextEntry_sound orderly once with
        ⟨brace, isClose, same, passes⟩ | ⟨mark, isMark, same, passes⟩ |
          ⟨keyword, tokens, isKeyword, passes,
            ⟨entry, phrase, same⟩ | ⟨member, isIns, permitted, phrase, same⟩⟩
      · cases same
      · cases same
        obtain ⟨entries, members, more, rfl, items, behind⟩ := ih passes.orderly
        exact ⟨entries, members, mark :: more, rfl, .mark mark isMark items, passes.trans behind⟩
      · cases same
        obtain ⟨entries, members, more, rfl, items, behind⟩ := ih passes.orderly
        exact ⟨entry :: entries, members, keyword :: (tokens ++ more),
          bodyWith_addEntry _ _ _ _, .entry keyword isKeyword phrase items, passes.trans behind⟩
      · cases same
        obtain ⟨entries, members, more, rfl, items, behind⟩ := ih passes.orderly
        exact ⟨entries, member :: members, keyword :: (tokens ++ more),
          bodyWith_addMember _ _ _ _, .member keyword isKeyword isIns permitted phrase items,
          passes.trans behind⟩)
    looped passesBrace.orderly
  obtain ⟨entries, members, tokens, rfl, items, passes⟩ := rounds
  exact ⟨entries, brace :: tokens, passesBrace.trans passes, .braces brace isOpen items, rfl⟩

/-! ## Lookup tables and enumerations -/

/-- What one round of gathering entries passes: the end of the phrase, or tokens that put entries in
front of it. -/
def Gathers {β : Type} (phrase : List β → List Token → Prop) (values : List β)
    (result : Round (List β) (List β)) (tokens : List Token) : Prop :=
  (result = .done values ∧ phrase [] tokens) ∨
    ∃ added, result = .again (values ++ added) ∧
      ∀ more rest, phrase more rest → phrase (added ++ more) (tokens ++ rest)

/-- Rounds that gather entries pass the phrase of all of them. -/
theorem gathered_sound {β : Type} {phrase : List β → List Token → Prop}
    {round : List β → Reader (Round (List β) (List β))}
    {progresses : ∀ values, Progresses (round values)} {values : List β}
    (once : ∀ {values state result next}, State.Orderly state →
      (round values).run state = (.ok result, next) →
        ∃ tokens, state.Passes tokens next ∧ Gathers phrase values result tokens)
    (orderly : state.Orderly)
    (ran : (loop round progresses []).run state = (.ok values, next)) :
    ∃ tokens, state.Passes tokens next ∧ phrase values tokens := by
  have rounds := rounds_induct (motive := fun values state result last => state.Orderly →
      ∃ more tokens, result = values ++ more ∧ phrase more tokens ∧ state.Passes tokens last)
    (by
      intro values state result last ended orderly
      obtain ⟨tokens, passes, ⟨same, phrase⟩ | ⟨_, same, _⟩⟩ := once orderly ended
      · cases same
        exact ⟨[], tokens, (List.append_nil _).symm, phrase, passes⟩
      · cases same)
    (by
      intro values state found middle result last again ih orderly
      obtain ⟨tokens, passes, ⟨same, _⟩ | ⟨added, same, adds⟩⟩ := once orderly again
      · cases same
      · cases same
        obtain ⟨more, rest, rfl, phrase, behind⟩ := ih passes.orderly
        exact ⟨added ++ more, tokens ++ rest, List.append_assoc _ _ _, adds more rest phrase,
          passes.trans behind⟩)
    ran orderly
  obtain ⟨more, tokens, rfl, phrase, passes⟩ := rounds
  exact ⟨tokens, passes, phrase⟩

theorem nextConstant_sound {table : String} {values : List UInt32}
    {result : Round (List UInt32) (List UInt32)} (orderly : state.Orderly)
    (ran : (nextConstant table values).run state = (.ok result, next)) :
    ∃ tokens, state.Passes tokens next ∧ Gathers ConstantsPhrase values result tokens := by
  obtain ⟨token, middle, consumed, answered⟩ := run_bind_ok ran
  have passes := passes_of_consume orderly consumed
  have marked : isMark token → Gathers ConstantsPhrase values (.again values) [token] := by
    intro mark
    exact .inr ⟨[], by rw [List.append_nil], fun more rest phrase => .mark token mark phrase⟩
  split at answered
  next kind =>
    cases answered
    exact ⟨[token], passes (by simp [kind]), .inl ⟨rfl, .close token kind⟩⟩
  next kind =>
    cases answered
    exact ⟨[token], passes (by simp [kind]), marked (.inl kind)⟩
  next kind =>
    cases answered
    exact ⟨[token], passes (by simp [kind]), marked (.inr kind)⟩
  next kind =>
    split at answered
    next value read =>
      cases answered
      refine ⟨[token], passes (by simp [kind]), .inr ⟨[value], rfl, ?_⟩⟩
      intro more rest phrase
      exact .number token kind read phrase
    next => simp at answered
  next => simp at answered
  next => simp at answered

theorem enumerationEntryBehind_sound {enumeration keyword : String} {entry : EnumerationEntry}
    (orderly : state.Orderly)
    (ran : (enumerationEntryBehind enumeration keyword).run state = (.ok entry, next)) :
    (∃ text tokens isDefault, keyword = "value" ∧ isAttributeValue text.kind = true ∧
      Attributed .enumerationValue (·.isDefault) isDefault tokens ∧
      entry = .value text.lexeme isDefault ∧ state.Passes (text :: tokens) next) ∨
    (keyword = "reserved" ∧ entry = .reserved ∧ state.Passes [] next) := by
  unfold enumerationEntryBehind at ran
  split at ran
  next =>
    obtain ⟨text, middle, consumed, valued⟩ := run_bind_ok ran
    split at valued
    next isText =>
      have notFinish : text.kind ≠ .finish := by
        intro atEnd
        rw [atEnd] at isText
        cases isText
      have passesText := passes_of_consume orderly consumed notFinish
      obtain ⟨isDefault, tokens, last, passes, attributes, ended⟩ :=
        attributed_sound passesText.orderly valued
      cases ended
      exact .inl ⟨text, tokens, isDefault, rfl, isText, attributes, rfl, passesText.trans passes⟩
    next => simp at valued
  next =>
    cases ran
    exact .inr ⟨rfl, rfl, .refl orderly⟩
  next => simp at ran

theorem nextEnumerationEntry_sound {enumeration : String} {entries : List EnumerationEntry}
    {result : Round (List EnumerationEntry) (List EnumerationEntry)} (orderly : state.Orderly)
    (ran : (nextEnumerationEntry enumeration entries).run state = (.ok result, next)) :
    ∃ tokens, state.Passes tokens next ∧ Gathers ValuesPhrase entries result tokens := by
  rcases punctuated_sound orderly ran with
    ⟨brace, isClose, rfl, passes⟩ | ⟨mark, marks, rfl, passes⟩ | ⟨middle, passesMark, afterMark⟩
  · exact ⟨[brace], passes, .inl ⟨rfl, .close brace isClose⟩⟩
  · refine ⟨[mark], passes, .inr ⟨[], by rw [List.append_nil], ?_⟩⟩
    intro more rest phrase
    exact .mark mark marks phrase
  obtain ⟨keyword, behind, ranKeyword, afterKeyword⟩ := run_bind_ok afterMark
  obtain ⟨isKeyword, passesKeyword⟩ := passes_of_identifier passesMark.orderly ranKeyword
  obtain ⟨entry, last, entered, ended⟩ := run_bind_ok afterKeyword
  cases ended
  have before : state.Passes [keyword] behind := passesMark.trans passesKeyword
  rcases enumerationEntryBehind_sound passesKeyword.orderly entered with
    ⟨text, tokens, isDefault, isValue, isText, attributes, rfl, passes⟩ |
      ⟨isReserved, rfl, passes⟩
  · refine ⟨keyword :: text :: tokens, before.trans passes, .inr ⟨[_], rfl, ?_⟩⟩
    intro more rest phrase
    exact .value keyword text isKeyword isValue isText attributes phrase
  · refine ⟨[keyword], before.trans passes, .inr ⟨[_], rfl, ?_⟩⟩
    intro more rest phrase
    exact .reserved keyword isKeyword isReserved phrase

/-! ## Directives -/

theorem lookupTable_sound {directive : Directive} (orderly : state.Orderly)
    (ran : lookupTable.run state = (.ok directive, next)) :
    ∃ tokens, NamedPhrase directive "lut" tokens ∧
      (state.noting (tableNames directive)).Passes tokens next ∧
      ∀ name ∈ (tableNames directive), name ∉ state.tables := by
  obtain ⟨token, middle, named, declaring⟩ := run_bind_ok ran
  obtain ⟨isName, passesName⟩ := passes_of_name orderly named
  obtain ⟨isNew, noted, declared, behind⟩ := run_bind_ok declaring
  by_cases repeated : token.lexeme ∈ middle.tables
  · have same : (declareTable token.lexeme).run middle = (.ok false, middle) := by
      simp only [declareTable, if_pos repeated]
    rw [same] at declared
    cases declared
    simp at behind
  · have same : (declareTable token.lexeme).run middle =
        (.ok true, middle.noting [token.lexeme]) := by
      simp only [declareTable, if_neg repeated]
      rfl
    rw [same] at declared
    cases declared
    have passesNoted := passesName.noting [token.lexeme]
    obtain ⟨brace, opened, expected, afterBrace⟩ := run_bind_ok behind
    obtain ⟨isOpen, passesBrace⟩ := passes_of_expect passesNoted.orderly (by decide) expected
    obtain ⟨values, last, looped, placing⟩ := run_bind_ok afterBrace
    obtain ⟨constants, passes, phrase⟩ :=
      gathered_sound nextConstant_sound passesBrace.orderly looped
    obtain ⟨region, final, placed, ended⟩ := run_bind_ok placing
    have whole : (state.noting [token.lexeme]).Passes (token :: brace :: constants) last :=
      passesNoted.trans (passesBrace.trans passes)
    obtain ⟨rfl, rfl⟩ := regionFrom_sound whole placed
    cases ended
    refine ⟨token :: brace :: constants, .lookupTable token brace isName isOpen phrase, whole, ?_⟩
    intro name member
    cases List.mem_singleton.1 member
    rw [← passesName.tables]
    exact repeated

theorem enumeration_sound {directive : Directive} (orderly : state.Orderly)
    (ran : enumeration.run state = (.ok directive, next)) :
    ∃ tokens, NamedPhrase directive "enum" tokens ∧ state.Passes tokens next := by
  obtain ⟨token, middle, named, opening⟩ := run_bind_ok ran
  obtain ⟨isName, passesName⟩ := passes_of_name orderly named
  obtain ⟨brace, opened, expected, afterBrace⟩ := run_bind_ok opening
  obtain ⟨isOpen, passesBrace⟩ := passes_of_expect passesName.orderly (by decide) expected
  obtain ⟨entries, last, looped, placing⟩ := run_bind_ok afterBrace
  obtain ⟨values, passes, phrase⟩ :=
    gathered_sound nextEnumerationEntry_sound passesBrace.orderly looped
  obtain ⟨region, final, placed, ended⟩ := run_bind_ok placing
  have whole : state.Passes (token :: brace :: values) last :=
    passesName.trans (passesBrace.trans passes)
  obtain ⟨rfl, rfl⟩ := regionFrom_sound whole placed
  cases ended
  exact ⟨token :: brace :: values, .enumeration token brace isName isOpen phrase, whole⟩

theorem instruction_sound {directive : Directive} (orderly : state.Orderly)
    (ran : instruction.run state = (.ok directive, next)) :
    ∃ tokens, NamedPhrase directive "ins" tokens ∧ state.Passes tokens next := by
  obtain ⟨token, middle, named, header⟩ := run_bind_ok ran
  obtain ⟨isName, passesName⟩ := passes_of_name orderly named
  obtain ⟨⟨opcodes, layout⟩, tokens, last, passes, attributes, bodyOrNone⟩ :=
    attributed_sound passesName.orderly header
  obtain ⟨hasBody, checked, ranCheck, afterCheck⟩ := run_bind_ok bodyOrNone
  have passesHeader : state.Passes (token :: tokens) checked :=
    passesName.trans (passes.still (front_of_check passes.orderly ranCheck).1)
  cases hasBody with
  | true =>
      obtain ⟨layout, behindBody, mapped, placing⟩ := run_bind_ok afterCheck
      obtain ⟨listed, readBody, rfl⟩ := map_ok mapped
      obtain ⟨entries, items, passesBody, phrase, extended⟩ :=
        body_sound passesHeader.orderly readBody
      obtain ⟨region, final, placed, ended⟩ := run_bind_ok placing
      have whole : state.Passes (token :: (tokens ++ items)) behindBody :=
        passesHeader.trans passesBody
      obtain ⟨rfl, rfl⟩ := regionFrom_sound whole placed
      cases ended
      rw [extended]
      exact ⟨_, .instruction token isName attributes phrase, whole⟩
  | false =>
      obtain ⟨_, _, answered, placing⟩ := run_bind_ok afterCheck
      cases answered
      obtain ⟨region, final, placed, ended⟩ := run_bind_ok placing
      obtain ⟨rfl, rfl⟩ := regionFrom_sound passesHeader placed
      cases ended
      exact ⟨token :: tokens, .bare token isName attributes, passesHeader⟩

theorem groupName?_sound {token : Token} {name? : Option String} (orderly : state.Orderly)
    (front : State.frontOf state.finish state.upcoming = .ok token)
    (ran : (groupName? token).run state = (.ok name?, next)) :
    ∃ names, state.Passes names next ∧ GroupNamePhrase name? names := by
  unfold groupName? at ran
  split at ran
  next isName =>
    obtain ⟨isKey, middle, looked, behind⟩ := run_bind_ok ran
    have passes := (passes_of_atAttribute orderly looked).1
    cases isKey with
    | true =>
        cases behind
        exact ⟨[], passes, .unnamed⟩
    | false =>
        obtain ⟨taken, last, consumed, ended⟩ := run_bind_ok behind
        cases ended
        obtain ⟨rest, upcoming⟩ := upcoming_of_front (notFinish_of_isName isName) front
        have still : middle.upcoming = .token token :: rest :=
          passes.upcoming.symm.trans upcoming
        obtain ⟨final, takes, passesToken⟩ := consume_run passes.orderly still
        rw [takes] at consumed
        cases consumed
        exact ⟨[token], passes.trans passesToken, .named token isName⟩
  next =>
    cases ran
    exact ⟨[], .refl orderly, .unnamed⟩

theorem group_sound {directive : Directive} (orderly : state.Orderly)
    (ran : group.run state = (.ok directive, next)) :
    ∃ tokens, NamedPhrase directive "group" tokens ∧ state.Passes tokens next := by
  obtain ⟨first, looked, peeked, naming⟩ := run_bind_ok ran
  obtain ⟨passesLook, front⟩ := front_of_peek orderly peeked
  obtain ⟨name?, named, ranName, header⟩ := run_bind_ok naming
  have frontStill : State.frontOf looked.finish looked.upcoming = .ok first := by
    rw [passesLook.finish, ← front]
    exact congrArg _ passesLook.upcoming.symm
  obtain ⟨names, passesName, namePhrase⟩ := groupName?_sound passesLook.orderly frontStill ranName
  obtain ⟨⟨opcodes, layout⟩, tokens, last, passes, attributes, opening⟩ :=
    attributed_sound passesName.orderly header
  obtain ⟨hasBody, checked, ranCheck, afterCheck⟩ := run_bind_ok opening
  have passesHeader : state.Passes (names ++ tokens) checked :=
    (passesLook.trans passesName).trans
      (passes.still (front_of_check passes.orderly ranCheck).1)
  cases hasBody with
  | false => simp at afterCheck
  | true =>
      obtain ⟨listed, behindBody, readBody, placing⟩ := run_bind_ok afterCheck
      obtain ⟨entries, items, passesBody, bodyPhrase, extended⟩ :=
        body_sound passesHeader.orderly readBody
      split at placing
      next => simp at placing
      next hasMembers =>
        obtain ⟨region, final, placed, ended⟩ := run_bind_ok placing
        have whole := passesHeader.trans passesBody
        rw [List.append_assoc] at whole
        cases tokensAre : names ++ (tokens ++ items) with
        | nil =>
            obtain ⟨brace, isOpen, items⟩ := bodyPhrase
            simp at tokensAre
        | cons start rest =>
            rw [tokensAre] at whole
            have startIs : start = first := by
              rw [whole.upcoming] at front
              exact Except.ok.inj front
            subst startIs
            obtain ⟨rfl, rfl⟩ := regionFrom_sound whole placed
            cases ended
            rw [extended]
            exact ⟨_, .group namePhrase attributes bodyPhrase hasMembers tokensAre, whole⟩

theorem directiveNamed_sound {directive : Directive} {keyword : String} (orderly : state.Orderly)
    (ran : (directiveNamed keyword).run state = (.ok directive, next)) :
    ∃ tokens, NamedPhrase directive keyword tokens ∧
      (state.noting (tableNames directive)).Passes tokens next ∧
      ∀ name ∈ tableNames directive, name ∉ state.tables := by
  -- Only a lookup table has a name to note.
  have unnoted : ∀ {tokens}, NamedPhrase directive keyword tokens → keyword ≠ "lut" →
      state.Passes tokens next → (state.noting (tableNames directive)).Passes tokens next ∧
        ∀ name ∈ tableNames directive, name ∉ state.tables := by
    intro tokens phrase other passes
    rw [phrase.tableNames_eq_nil other]
    exact ⟨passes, fun _ member => by cases member⟩
  unfold directiveNamed at ran
  split at ran
  next => exact lookupTable_sound orderly ran
  next =>
    obtain ⟨tokens, phrase, passes⟩ := enumeration_sound orderly ran
    exact ⟨tokens, phrase, unnoted phrase (by decide) passes⟩
  next =>
    obtain ⟨tokens, phrase, passes⟩ := instruction_sound orderly ran
    exact ⟨tokens, phrase, unnoted phrase (by decide) passes⟩
  next =>
    obtain ⟨tokens, phrase, passes⟩ := group_sound orderly ran
    exact ⟨tokens, phrase, unnoted phrase (by decide) passes⟩
  next => simp at ran

theorem boundary_sound {directive : String} (orderly : state.Orderly)
    (ran : (boundary directive).run state = (.ok (), next)) :
    state.Passes [] next ∧ next.AtBoundary := by
  obtain ⟨lexemes, middle, looped, ended⟩ := run_bind_ok ran
  have rounds := rounds_induct (motive := fun lexemes state result last => state.Orderly →
      ∃ more, result = lexemes ++ more ∧ (more = [] → state.Passes [] last ∧ last.AtBoundary))
    (by
      intro lexemes state result last once orderly
      obtain ⟨token?, middle, looked, answered⟩ := run_bind_ok once
      cases token? with
      | some token => cases answered
      | none =>
          cases answered
          obtain ⟨token, behind, peeked, inside⟩ := run_bind_ok looked
          split at inside
          next atBoundary =>
            obtain ⟨passes, front⟩ := front_of_peek orderly peeked
            have same : state.upcoming = behind.upcoming := passes.upcoming
            cases inside
            refine ⟨[], (List.append_nil _).symm, fun _ => ⟨passes, ?_⟩⟩
            intro found rest upcoming
            rw [same, upcoming] at front
            obtain rfl := Except.ok.inj front
            rcases atBoundary with finish | colon
            · simp [isBoundary, finish]
            · simp [isBoundary, colon]
          next =>
            obtain ⟨_, _, _, impossible⟩ := run_bind_ok inside
            cases impossible)
    (by
      intro lexemes state found middle result last once ih orderly
      obtain ⟨token?, behind, looked, answered⟩ := run_bind_ok once
      cases token? with
      | none => cases answered
      | some token =>
          cases answered
          obtain ⟨more, rfl, -⟩ := ih (orderly_of_run once orderly)
          exact ⟨token.lexeme :: more, by rw [List.append_assoc, List.singleton_append],
            fun impossible => by cases impossible⟩)
    looped orderly
  obtain ⟨more, rfl, passes⟩ := rounds
  split at ended
  next nothing =>
    cases ended
    exact passes nothing
  next => simp at ended

/-- A directive that is read passes its phrase, and nothing else stands in front of the next. -/
theorem directive_sound {found : Directive} (orderly : state.Orderly)
    (ran : directive.run state = (.ok found, next)) :
    ∃ tokens, DirectivePhrase found tokens ∧
      (state.noting (tableNames found)).Passes tokens next ∧
      (∀ name ∈ tableNames found, name ∉ state.tables) ∧ next.AtBoundary := by
  obtain ⟨mark, middle, expected, naming⟩ := run_bind_ok ran
  obtain ⟨isMark, passesMark⟩ := passes_of_expect orderly (by decide) expected
  obtain ⟨keyword, named, ranKeyword, reading⟩ := run_bind_ok naming
  obtain ⟨isKeyword, passesKeyword⟩ := passes_of_identifier passesMark.orderly ranKeyword
  obtain ⟨answer, last, read, bounding⟩ := run_bind_ok reading
  obtain ⟨tokens, phrase, passes, areNew⟩ := directiveNamed_sound passesKeyword.orderly read
  obtain ⟨_, final, bounded, ended⟩ := run_bind_ok bounding
  cases ended
  have before : state.Passes [mark, keyword] named := passesMark.trans passesKeyword
  obtain ⟨still, atBoundary⟩ := boundary_sound passes.orderly bounded
  refine ⟨mark :: keyword :: tokens, .directive mark keyword isMark isKeyword phrase,
    ((before.noting _).trans passes).still still, ?_, atBoundary⟩
  rw [← before.tables]
  exact areNew

end InstructionSet.Grammar.Reader
