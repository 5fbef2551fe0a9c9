import InstructionSet.Proofs.Grammar.Slots

/-!
# Every attribute stands in a slot

The sign of an attribute stands nowhere else in a directive. So wherever there is one, attributes of
some construct stand around it, and what is in front of them is the slot of the construct
(`DirectivePhrase.exists_slot`).
-/

namespace InstructionSet.Grammar

open InstructionSet.Text

set_option autoImplicit false

/-! ## Around a sign -/

/-- The tokens in front of a sign and behind it, where a list of attributes with this sign stands
between two others. -/
inductive AroundSign (front back : List Token) : List Token → List Token → Prop where
  | list {pairs others : AttributePairs} {tokens more : List Token} (key value : Token)
      (isKey : key.kind = .identifier) (isValue : Reader.isAttributeValue value.kind = true)
      (earlier : AttributesPhrase pairs tokens) (later : AttributesPhrase others more) :
      AroundSign front back (front ++ (tokens ++ [key])) (value :: (more ++ back))

variable {sign : Token} {x y : List Token}

theorem AroundSign.append_front {front back : List Token} (around : AroundSign front back x y)
    (further : List Token) : AroundSign (further ++ front) back (further ++ x) y := by
  cases around with
  | list key value isKey isValue earlier later =>
      have whole :=
        @AroundSign.list (further ++ front) back _ _ _ _ key value isKey isValue earlier later
      rwa [List.append_assoc] at whole

theorem AroundSign.append_back {front back : List Token} (around : AroundSign front back x y)
    (more : List Token) : AroundSign front (back ++ more) x (y ++ more) := by
  cases around with
  | list key value isKey isValue earlier later =>
      have whole :=
        @AroundSign.list front (back ++ more) _ _ _ _ key value isKey isValue earlier later
      simpa using whole

/-- Tokens that are no signs stand in front of any sign. -/
theorem exists_of_noSign {tokens rest : List Token} (isSign : sign.kind = .equals)
    (noSign : ∀ token ∈ tokens, token.kind ≠ .equals) (same : tokens ++ rest = x ++ sign :: y) :
    ∃ further, x = tokens ++ further ∧ rest = further ++ sign :: y := by
  rcases List.append_eq_append_iff.1 same with ⟨further, rfl, whole⟩ | ⟨between, rfl, whole⟩
  · exact ⟨further, rfl, whole⟩
  · cases between with
    | nil => exact ⟨[], by simp, by simpa using whole.symm⟩
    | cons token between =>
        obtain ⟨rfl, -⟩ := List.cons.inj whole
        exact absurd isSign (noSign sign (List.mem_append_right x List.mem_cons_self))

/-- A sign stands in attributes or behind them. -/
theorem AttributesPhrase.around {pairs : AttributePairs} {tokens rest : List Token}
    (phrase : AttributesPhrase pairs tokens) (isSign : sign.kind = .equals)
    (same : tokens ++ rest = x ++ sign :: y) :
    AroundSign [] rest x y ∨ ∃ further, x = tokens ++ further ∧ rest = further ++ sign :: y := by
  induction phrase generalizing x with
  | none => exact .inr ⟨x, rfl, same⟩
  | @more pairs tokens key first value isKey isFirst isValue later ih =>
      rcases x with - | ⟨first', - | ⟨second, - | ⟨third, x⟩⟩⟩
      · obtain ⟨rfl, -⟩ := List.cons.inj same
        rw [isKey] at isSign
        cases isSign
      · simp only [List.cons_append, List.nil_append, List.cons.injEq] at same
        obtain ⟨rfl, -, rfl⟩ := same
        exact .inl (@AroundSign.list [] rest _ _ _ _ key value isKey isValue .none later)
      · simp only [List.cons_append, List.nil_append, List.cons.injEq] at same
        obtain ⟨-, -, rfl, -⟩ := same
        exact absurd isSign (kind_ne_of_isAttributeValue isValue)
      · simp only [List.cons_append, List.cons.injEq] at same
        obtain ⟨rfl, rfl, rfl, same⟩ := same
        rcases ih same with around | ⟨further, rfl, rfl⟩
        · cases around with
          | list key' value' isKey' isValue' earlier behind =>
              have before := AttributesPhrase.more key first value isKey isFirst isValue earlier
              exact .inl
                (@AroundSign.list [] rest _ _ _ _ key' value' isKey' isValue' before behind)
        · exact .inr ⟨further, rfl, rfl⟩

/-! ## Around a sign in a directive -/

theorem EntryNamePhrase.noSigns {name : String} {tokens : List Token}
    (phrase : EntryNamePhrase name tokens) : ∀ token ∈ tokens, token.kind ≠ .equals := by
  cases phrase with
  | unnamed => exact List.forall_mem_nil _
  | quoted token isText =>
      intro found member
      obtain rfl := List.mem_singleton.1 member
      simp [isText]

theorem GroupNamePhrase.noSigns {name? : Option String} {tokens : List Token}
    (phrase : GroupNamePhrase name? tokens) : ∀ token ∈ tokens, token.kind ≠ .equals := by
  cases phrase with
  | unnamed => exact List.forall_mem_nil _
  | named token named =>
      intro found member
      obtain rfl := List.mem_singleton.1 member
      exact kind_ne_of_isAttributeValue (isAttributeValue_of_isName named)

theorem ConstantsPhrase.noSigns {values : List UInt32} {tokens : List Token}
    (phrase : ConstantsPhrase values tokens) : ∀ token ∈ tokens, token.kind ≠ .equals := by
  induction phrase with
  | close brace isClose => simp [isClose]
  | mark mark isMark _ ih => exact List.forall_mem_cons.2 ⟨kind_ne_of_isMark isMark, ih⟩
  | number number isNumber _ _ ih => exact List.forall_mem_cons.2 ⟨by simp [isNumber], ih⟩

/-- A token in front of a sign that is no sign itself. -/
theorem exists_cons_of_noSign {token : Token} {rest : List Token} (isSign : sign.kind = .equals)
    (noSign : token.kind ≠ .equals) (same : token :: rest = x ++ sign :: y) :
    ∃ further, x = token :: further ∧ rest = further ++ sign :: y :=
  @exists_of_noSign sign x y [token] rest isSign (by simpa using noSign) same

/-- Around a sign in a body stand the attributes of an entry or a member. -/
theorem ItemsPhrase.around {hasMembers : Bool} {entries : List LayoutEntry}
    {members : List GroupMember} {tokens : List Token}
    (phrase : ItemsPhrase hasMembers entries members tokens) (isSign : sign.kind = .equals)
    (same : tokens = x ++ sign :: y) :
    ∃ construct items front back, Items "ins" items ∧ EntryFront construct front ∧
      AroundSign (items ++ front) back x y ∧ ∀ more, Fresh (back ++ more) := by
  induction phrase generalizing x with
  | close brace isClose =>
      obtain ⟨further, -, impossible⟩ := exists_cons_of_noSign isSign (by simp [isClose]) same
      simp at impossible
  | mark mark isMark _ ih =>
      obtain ⟨further, rfl, rest⟩ := exists_cons_of_noSign isSign (kind_ne_of_isMark isMark) same
      obtain ⟨construct, items, front, back, listed, starts, around, fresh⟩ := ih rest
      exact ⟨construct, mark :: items, front, back, .mark mark isMark listed, starts,
        around.append_front [mark], fresh⟩
  | @entry _ _ _ rest _ keyword isKeyword entry items ih =>
      obtain ⟨x, rfl, behind⟩ := exists_cons_of_noSign isSign (by simp [isKeyword]) same
      obtain ⟨notIns, name, names, pairs, values, rfl, named, attributes, only⟩ :=
        entry.exists_names
      rw [List.append_assoc] at behind
      obtain ⟨x, rfl, later⟩ := exists_of_noSign isSign named.noSigns behind
      have either :
          (∃ construct, entryConstruct? keyword.lexeme = some construct ∧ AroundSign [] rest x y) ∨
            ∃ further, x = values ++ further ∧ rest = further ++ sign :: y := by
        rcases only with rfl | ⟨construct, starts⟩
        · exact .inr ⟨x, rfl, later⟩
        · exact (attributes.around isSign later).imp_left fun around => ⟨construct, starts, around⟩
      rcases either with ⟨construct, starts, around⟩ | ⟨x, rfl, last⟩
      · refine ⟨construct, [], keyword :: names, rest, .none,
          .entry keyword isKeyword starts named, ?_, items.fresh⟩
        have whole := around.append_front (keyword :: names)
        rwa [List.append_nil] at whole
      · obtain ⟨construct, before, front, back, listed, starts, around, fresh⟩ := ih last
        refine ⟨construct, keyword :: (names ++ (values ++ before)), front, back,
          .entry keyword isKeyword notIns named attributes listed, starts, ?_, fresh⟩
        simpa using around.append_front (keyword :: (names ++ values))
  | @member _ _ _ rest _ keyword isKeyword isIns permitted member items ih =>
      obtain ⟨name, named, pairs, attributes, -, -⟩ := member
      have isValue := isAttributeValue_of_isName named
      obtain ⟨x, rfl, behind⟩ := exists_cons_of_noSign isSign (by simp [isKeyword]) same
      obtain ⟨x, rfl, later⟩ :=
        exists_cons_of_noSign isSign (kind_ne_of_isAttributeValue isValue) behind
      rcases attributes.around isSign later with around | ⟨x, rfl, last⟩
      · exact ⟨_, [], [keyword, name], rest, .none, .member keyword name isKeyword isIns named,
          around.append_front [keyword, name], items.fresh⟩
      · obtain ⟨construct, before, front, back, listed, starts, around, fresh⟩ := ih last
        refine ⟨construct, keyword :: name :: (_ ++ before), front, back,
          .single keyword name isKeyword isIns isValue attributes listed, starts, ?_, fresh⟩
        simpa using around.append_front (keyword :: name :: _)

/-- Around a sign in an enumeration stand the attributes of a value. -/
theorem ValuesPhrase.around {entries : List EnumerationEntry} {tokens : List Token}
    (phrase : ValuesPhrase entries tokens) (isSign : sign.kind = .equals)
    (same : tokens = x ++ sign :: y) :
    ∃ items keyword text back, Items "value" items ∧ keyword.kind = .identifier ∧
      keyword.lexeme = "value" ∧ Reader.isAttributeValue text.kind = true ∧
      AroundSign (items ++ [keyword, text]) back x y ∧ ∀ more, Fresh (back ++ more) := by
  induction phrase generalizing x with
  | close brace isClose =>
      obtain ⟨further, -, impossible⟩ := exists_cons_of_noSign isSign (by simp [isClose]) same
      simp at impossible
  | mark mark isMark _ ih =>
      obtain ⟨further, rfl, rest⟩ := exists_cons_of_noSign isSign (kind_ne_of_isMark isMark) same
      obtain ⟨items, keyword, text, back, listed, isKeyword, isValue, isText, around, fresh⟩ :=
        ih rest
      exact ⟨mark :: items, keyword, text, back, .mark mark isMark listed, isKeyword, isValue,
        isText, around.append_front [mark], fresh⟩
  | @value _ _ rest _ keyword text isKeyword isValue isText attributed values ih =>
      obtain ⟨pairs, attributes, -, -⟩ := attributed
      obtain ⟨x, rfl, behind⟩ := exists_cons_of_noSign isSign (by simp [isKeyword]) same
      obtain ⟨x, rfl, later⟩ :=
        exists_cons_of_noSign isSign (kind_ne_of_isAttributeValue isText) behind
      rcases attributes.around isSign later with around | ⟨x, rfl, last⟩
      · exact ⟨[], keyword, text, rest, .none, isKeyword, isValue, isText,
          around.append_front [keyword, text], values.fresh⟩
      · obtain ⟨before, word, other, back, listed, isWord, isValue', isText', around, fresh⟩ :=
          ih last
        refine ⟨keyword :: text :: (_ ++ before), word, other, back,
          .single keyword text isKeyword isValue isText attributes listed, isWord, isValue',
          isText', ?_, fresh⟩
        simpa using around.append_front (keyword :: text :: _)
  | reserved keyword isKeyword isReserved values ih =>
      obtain ⟨x, rfl, behind⟩ := exists_cons_of_noSign isSign (by simp [isKeyword]) same
      obtain ⟨items, word, text, back, listed, isWord, isValue, isText, around, fresh⟩ := ih behind
      have notValue : keyword.lexeme ≠ "value" := by simp [isReserved]
      have front := Items.entry keyword isKeyword notValue .unnamed .none listed
      exact ⟨keyword :: items, word, text, back, front, isWord, isValue, isText,
        around.append_front [keyword], fresh⟩

/-- Around a sign in a body with its braces stand the attributes of an entry or a member. -/
theorem BodyPhrase.around {hasMembers : Bool} {entries : List LayoutEntry}
    {members : List GroupMember} {tokens : List Token}
    (phrase : BodyPhrase hasMembers entries members tokens) (isSign : sign.kind = .equals)
    (same : tokens = x ++ sign :: y) :
    ∃ construct opening items front back, opening.kind = .openBrace ∧ Items "ins" items ∧
      EntryFront construct front ∧ AroundSign (opening :: (items ++ front)) back x y ∧
      ∀ more, Fresh (back ++ more) := by
  obtain ⟨opening, isOpen, phrase⟩ := phrase
  obtain ⟨x, rfl, behind⟩ := exists_cons_of_noSign isSign (by simp [isOpen]) same
  obtain ⟨construct, items, front, back, listed, starts, around, fresh⟩ :=
    phrase.around isSign behind
  exact ⟨construct, opening, items, front, back, isOpen, listed, starts,
    around.append_front [opening], fresh⟩

theorem EntryFront.endsAt {construct : Construct} {front behind : List Token}
    (starts : EntryFront construct front) (fresh : Fresh behind) : construct.EndsAt behind := by
  refine ⟨fresh, ?_⟩
  rintro rfl
  generalize same : Construct.group none = construct at starts
  cases starts with
  | entry keyword _ starts _ =>
      subst same
      unfold entryConstruct? at starts
      split at starts <;> cases starts
  | member => cases same

/-- **Slots.** Around every sign in a directive stand the attributes of a construct, in its slot. -/
theorem DirectivePhrase.exists_slot {directive : Directive} (isSign : sign.kind = .equals)
    (phrase : DirectivePhrase directive (x ++ sign :: y)) :
    ∃ construct front back, Slot construct front ∧ AroundSign front back x y ∧
      ∀ more, Fresh more → construct.EndsAt (back ++ more) := by
  generalize whole : x ++ sign :: y = all at phrase
  obtain ⟨mark, keyword, isMark, isKeyword, named⟩ := phrase
  obtain ⟨x, rfl, behind⟩ := exists_cons_of_noSign isSign (by simp [isMark]) whole.symm
  obtain ⟨x, rfl, later⟩ := exists_cons_of_noSign isSign (by simp [isKeyword]) behind
  -- The attributes of an entry stand in a slot behind any header without braces.
  have inBody : ∀ {hasMembers entries members header tokens} {x : List Token},
      keyword.lexeme = "ins" ∨ keyword.lexeme = "group" → Plain header →
      BodyPhrase hasMembers entries members tokens → tokens = x ++ sign :: y →
      ∃ construct front back, Slot construct front ∧
        AroundSign front back (mark :: keyword :: (header ++ x)) y ∧
        ∀ more, Fresh more → construct.EndsAt (back ++ more) := by
    intro hasMembers entries members header tokens x hasBody plain body same
    obtain ⟨construct, opening, items, front, back, isOpen, listed, starts, around, fresh⟩ :=
      body.around isSign same
    exact ⟨construct, _, back,
      .entry mark keyword opening isMark isKeyword hasBody plain isOpen listed starts,
      around.append_front (mark :: keyword :: header),
      fun more _ => starts.endsAt (fresh more)⟩
  generalize word : keyword.lexeme = lexeme at named
  cases named with
  | lookupTable name brace named isOpen constants =>
      obtain ⟨x, rfl, last⟩ := exists_cons_of_noSign isSign
        (kind_ne_of_isAttributeValue (isAttributeValue_of_isName named)) later
      obtain ⟨x, rfl, rest⟩ := exists_cons_of_noSign isSign (by simp [isOpen]) last
      exact absurd isSign
        (constants.noSigns sign (rest ▸ List.mem_append_right x List.mem_cons_self))
  | enumeration name brace named isOpen values =>
      obtain ⟨x, rfl, last⟩ := exists_cons_of_noSign isSign
        (kind_ne_of_isAttributeValue (isAttributeValue_of_isName named)) later
      obtain ⟨x, rfl, rest⟩ := exists_cons_of_noSign isSign (by simp [isOpen]) last
      obtain ⟨items, value, text, back, listed, isWord, isValue, isText, around, fresh⟩ :=
        values.around isSign rest
      exact ⟨.enumerationValue, _, back,
        .value mark keyword name brace value text isMark isKeyword word named isOpen listed isWord
          isValue isText,
        around.append_front [mark, keyword, name, brace],
        fun more _ => ⟨fresh more, fun impossible => by cases impossible⟩⟩
  | bare name named attributed =>
      obtain ⟨pairs, attributes, -, -⟩ := attributed
      obtain ⟨x, rfl, last⟩ := exists_cons_of_noSign isSign
        (kind_ne_of_isAttributeValue (isAttributeValue_of_isName named)) later
      rcases attributes.around isSign ((List.append_nil _).trans last) with
        around | ⟨_, _, impossible⟩
      · exact ⟨_, _, [], .instruction mark keyword name isMark isKeyword word named,
          around.append_front [mark, keyword, name],
          fun more fresh => ⟨fresh, fun impossible => by cases impossible⟩⟩
      · simp at impossible
  | instruction name named attributed body =>
      have plain := plain_cons (isPlain_of_isName named) attributed.plain
      obtain ⟨pairs, attributes, -, -⟩ := attributed
      obtain ⟨x, rfl, last⟩ := exists_cons_of_noSign isSign
        (kind_ne_of_isAttributeValue (isAttributeValue_of_isName named)) later
      rcases attributes.around isSign last with around | ⟨x, rfl, rest⟩
      · refine ⟨_, _, _, .instruction mark keyword name isMark isKeyword word named,
          around.append_front [mark, keyword, name], fun more _ => ⟨body.fresh more, ?_⟩⟩
        exact fun impossible => by cases impossible
      · exact inBody (.inl word) plain body rest
  | @group _ _ _ _ _ names _ items _ _ named attributed body some first =>
      have plain := plain_append named.plain attributed.plain
      obtain ⟨pairs, attributes, -, -⟩ := attributed
      rw [← first] at later
      obtain ⟨x, rfl, last⟩ := exists_of_noSign isSign named.noSigns later
      rcases attributes.around isSign last with around | ⟨x, rfl, rest⟩
      · refine ⟨_, _, items, .group mark keyword isMark isKeyword word named, ?_, fun more _ => ?_⟩
        · simpa using around.append_front (mark :: keyword :: names)
        · exact ⟨body.fresh more, fun _ => by rw [body.opens more]; decide⟩
      · rw [← List.append_assoc]
        exact inBody (.inr word) plain body rest

end InstructionSet.Grammar
