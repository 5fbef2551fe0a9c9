import InstructionSet.Proofs.Grammar.Places
import InstructionSet.Proofs.Grammar.Rearrangement
import InstructionSet.Proofs.Grammar.Slots

/-!
# Other attributes in a slot

A directive with attributes of a construct in a slot has read them, so they are not refused; and
with any others that are not refused in their place it is a directive as well
(`DirectivePhrase.refill`). Each level of the grammar passes this on to the one around it:
attributes, entries, bodies, and directives (`Refill.imp`).
-/

namespace InstructionSet.Grammar

open InstructionSet.Text

set_option autoImplicit false

/-! ## Other attributes in the place of some -/

/-- Attributes of a construct are accepted, and what is made with others in their place: with any
that are not refused something is made, and if they are rearranged then the same. -/
structure Refill (construct : Construct) (pairs : AttributePairs)
    (made : (same : Prop) → List Token → Prop) : Prop where
  accepted : ¬ Refused construct pairs
  again : ∀ {others : AttributePairs} {tokens : List Token}, AttributesPhrase others tokens →
    ¬ Refused construct others → made (Rearranged pairs others) tokens

theorem Refill.imp {construct : Construct} {pairs : AttributePairs}
    {made more : Prop → List Token → Prop} (refill : Refill construct pairs made)
    (goesOn : ∀ same tokens, made same tokens → more same tokens) :
    Refill construct pairs more :=
  ⟨refill.accepted, fun phrase accepted => goesOn _ _ (refill.again phrase accepted)⟩

/-- Attributes that a construct has read, in front of tokens that belong to none of them. -/
theorem Attributed.refill {α : Type} {construct : Construct}
    {reading : Attributes → Except SyntaxError α} {value : α} {pairs : AttributePairs}
    {tokens values rest behind : List Token} (reads : construct.Reads reading)
    (attributed : Attributed construct reading value values)
    (attributes : AttributesPhrase pairs tokens) (ends : startsAttribute behind = false)
    (ends' : startsAttribute rest = false) (same : tokens ++ behind = values ++ rest) :
    tokens = values ∧ behind = rest ∧ Refill construct pairs fun same others =>
      ∃ value', Attributed construct reading value' others ∧ (same → value' = value) := by
  obtain ⟨found, attributes', distinct, read⟩ := attributed
  obtain ⟨rfl, rfl, rfl⟩ := attributes.eq_of_append attributes' ends ends' same
  refine ⟨rfl, rfl, (reads.exists_iff pairs).1 ⟨distinct, value, read⟩,
    fun {others tokens'} phrase accepted => ?_⟩
  obtain ⟨distinct', value', read'⟩ := (reads.exists_iff others).2 accepted
  refine ⟨value', ⟨others, phrase, distinct', read'⟩, fun rearranged => ?_⟩
  have again := (reads.eq_ok_of_rearranged rearranged distinct read).2
  exact Except.ok.inj (read'.symm.trans again)

/-- An entry has the attributes of the construct that its keyword starts. -/
theorem EntryPhrase.exists_attributed {entry : LayoutEntry} {keyword : String} {tokens : List Token}
    {construct : Construct} (phrase : EntryPhrase entry keyword tokens)
    (starts : entryConstruct? keyword = some construct) :
    ∃ (α : Type) (reading : Attributes → Except SyntaxError α) (value : α) (make : α → LayoutEntry)
      (name : String) (names attributes : List Token), construct.Reads reading ∧
      tokens = names ++ attributes ∧ entry = make value ∧ EntryNamePhrase name names ∧
      Attributed construct reading value attributes ∧
      ∀ {value' others}, Attributed construct reading value' others →
        EntryPhrase (make value') keyword (names ++ others) := by
  cases phrase with
  | source named attributes =>
      obtain rfl := Option.some.inj starts
      exact ⟨_, _, _, .source, _, _, _, .source _, rfl, rfl, named, attributes, .source named⟩
  | dest named => cases starts
  | staging named attributes =>
      obtain rfl := Option.some.inj starts
      exact ⟨_, _, _, .staging, _, _, _, .staging _, rfl, rfl, named, attributes, .staging named⟩
  | immediate attributes =>
      obtain rfl := Option.some.inj starts
      exact ⟨_, _, _, .immediate, _, _, _, .immediate, rfl, rfl, .unnamed, attributes, .immediate⟩
  | modifier attributes =>
      obtain rfl := Option.some.inj starts
      exact ⟨_, _, _, .modifier, _, _, _, .modifier, rfl, rfl, .unnamed, attributes, .modifier⟩
  | tag bare =>
      -- A tag is none of the keywords that start an entry with attributes.
      unfold entryConstruct? at starts
      split at starts
      · exact absurd (by decide) bare
      · exact absurd (by decide) bare
      · exact absurd (by decide) bare
      · exact absurd (by decide) bare
      · cases starts

/-- Items with others in the place of some attributes. -/
structure SameItems (same : Prop) (entries entries' : List LayoutEntry)
    (members members' : List GroupMember) : Prop where
  /-- There are as many members. -/
  count : members'.length = members.length
  /-- The entries are the same if the attributes are. -/
  entries : same → entries' = entries
  /-- The members are the same up to places if the attributes are. -/
  members : same → members'.map (·.unplaced) = members.map (·.unplaced)

/-- What stands from an entry on in a body, with other attributes of the entry. -/
theorem ItemsPhrase.refill_front {hasMembers : Bool} {entries : List LayoutEntry}
    {members : List GroupMember} {construct : Construct} {pairs : AttributePairs}
    {front tokens behind : List Token} (starts : EntryFront construct front)
    (attributes : AttributesPhrase pairs tokens) (fresh : Fresh behind)
    (phrase : ItemsPhrase hasMembers entries members (front ++ (tokens ++ behind))) :
    Refill construct pairs fun same others => ∃ entries' members',
      ItemsPhrase hasMembers entries' members' (front ++ (others ++ behind)) ∧
        SameItems same entries entries' members members' := by
  cases starts with
  | entry keyword isKeyword starts named =>
      rw [List.cons_append] at phrase
      rcases phrase.cases_keyword isKeyword with
        ⟨head, tail, _, rest, rfl, same, entry, items⟩ | ⟨_, _, _, _, _, _, _, isIns, _⟩
      · obtain ⟨α, reading, value, make, name, names, values, reads, rfl, rfl, named', attributed,
          build⟩ :=
          entry.exists_attributed starts
        have ⟨found, attributes', _⟩ := attributed
        rw [List.append_assoc] at same
        obtain ⟨rfl, rfl, rfl⟩ :=
          named.eq_of_append named' attributes attributes' fresh items.isFresh same
        obtain ⟨-, -, refill⟩ :=
          attributed.refill reads attributes fresh.noAttribute fresh.noAttribute rfl
        refine refill.imp fun same others made => ?_
        obtain ⟨value', attributed', equal⟩ := made
        refine ⟨make value' :: tail, members, ?_, rfl, fun same => ?_, fun _ => rfl⟩
        · have whole := ItemsPhrase.entry keyword isKeyword (build attributed') items
          rwa [List.append_assoc] at whole
        · rw [equal same]
      · rw [isIns] at starts
        cases starts
  | member keyword name isKeyword isIns named =>
      rw [List.cons_append] at phrase
      rcases phrase.cases_keyword isKeyword with
        ⟨_, _, _, _, _, _, entry, _⟩ | ⟨_, later, _, rest, rfl, same, permitted, _, member, items⟩
      · exact absurd isIns entry.exists_names.1
      · cases member with
        | member word isWord attributed =>
            obtain ⟨rfl, more⟩ := List.cons.inj same
            obtain ⟨rfl, rfl, refill⟩ := attributed.refill (.member _) attributes
              fresh.noAttribute items.isFresh.noAttribute more
            refine refill.imp fun same others made => ?_
            obtain ⟨opcodes', attributed', equal⟩ := made
            have whole := ItemsPhrase.member keyword isKeyword isIns permitted
              (.member name isWord attributed') items
            refine ⟨entries, _, whole, rfl, fun _ => rfl, fun same => ?_⟩
            rw [equal same]
            rfl

/-- What stands from a value on in an enumeration, with other attributes of the value. -/
theorem ValuesPhrase.refill_front {entries : List EnumerationEntry} {pairs : AttributePairs}
    {keyword text : Token} {tokens behind : List Token} (isKeyword : keyword.kind = .identifier)
    (isValue : keyword.lexeme = "value") (attributes : AttributesPhrase pairs tokens)
    (fresh : Fresh behind) (phrase : ValuesPhrase entries (keyword :: text :: (tokens ++ behind))) :
    Refill .enumerationValue pairs fun same others => ∃ entries',
      ValuesPhrase entries' (keyword :: text :: (others ++ behind)) ∧
        (same → entries' = entries) := by
  rcases phrase.cases_keyword isKeyword with
    ⟨_, isDefault, later, _, rest, rfl, same, _, isText, attributed, values⟩ |
    ⟨_, _, isReserved, _⟩
  · obtain ⟨rfl, more⟩ := List.cons.inj same
    obtain ⟨rfl, rfl, refill⟩ := attributed.refill .enumerationValue attributes
      fresh.noAttribute values.isFresh.noAttribute more
    refine refill.imp fun same others made => ?_
    obtain ⟨isDefault', attributed', equal⟩ := made
    have whole := ValuesPhrase.value keyword text isKeyword isValue isText attributed' values
    exact ⟨_, whole, fun same => by rw [equal same]⟩
  · exact absurd (isReserved.symm.trans isValue) (by decide)

/-- A directive with others in the place of some attributes. -/
structure SameDirective (same : Prop) (directive directive' : Directive) : Prop where
  /-- It declares the same lookup tables. -/
  tables : tableNames directive' = tableNames directive
  /-- It is the same up to places if the attributes are. -/
  unplaced : same → directive'.unplaced = directive.unplaced

/-! ## Directives with other attributes in a slot -/

section Refill

variable {directive : Directive} {keyword : String} {construct : Construct}
  {pairs : AttributePairs} {tokens behind : List Token}

theorem BodyPhrase.refill {hasMembers : Bool} {entries : List LayoutEntry}
    {members : List GroupMember} {opening : Token} {items front : List Token}
    (listed : Items "ins" items) (starts : EntryFront construct front)
    (attributes : AttributesPhrase pairs tokens) (fresh : Fresh behind)
    (phrase : BodyPhrase hasMembers entries members
      (opening :: (items ++ (front ++ (tokens ++ behind))))) :
    Refill construct pairs fun same others => ∃ entries' members',
      BodyPhrase hasMembers entries' members'
          (opening :: (items ++ (front ++ (others ++ behind)))) ∧
        SameItems same entries entries' members members' := by
  cases phrase with
  | braces _ isOpen phrase =>
      obtain ⟨before, entries, first, members, rfl, rfl, cut, again⟩ :=
        phrase.cut listed (starts.fresh (attributes.noSign fresh.noSign))
      refine (cut.refill_front starts attributes fresh).imp fun same others made => ?_
      obtain ⟨entries', members', phrase', equal⟩ := made
      refine ⟨before ++ entries', first ++ members', .braces opening isOpen (again phrase'), ?_,
        fun same => ?_, fun same => ?_⟩
      · rw [List.length_append, List.length_append, equal.count]
      · rw [equal.entries same]
      · rw [List.map_append, List.map_append, equal.members same]

/-- Behind a header without braces stands a body, and another body may take its place. -/
theorem NamedPhrase.exists_body {header items : List Token} {opening : Token}
    (hasBody : keyword = "ins" ∨ keyword = "group") (plain : Plain header)
    (isOpen : opening.kind = .openBrace)
    (phrase : NamedPhrase directive keyword (header ++ opening :: items)) :
    ∃ hasMembers entries members, BodyPhrase hasMembers entries members (opening :: items) ∧
      ∀ {same : Prop} {entries' members' items'},
        BodyPhrase hasMembers entries' members' (opening :: items') →
        SameItems same entries entries' members members' →
        ∃ directive', NamedPhrase directive' keyword (header ++ opening :: items') ∧
          SameDirective same directive directive' := by
  have ends := not_isPlain_of_open isOpen
  generalize whole : header ++ opening :: items = all at phrase
  cases phrase with
  | lookupTable | enumeration => exact absurd hasBody (by decide)
  | bare name named attributed =>
      -- No brace stands in a directive without a body.
      have here : opening ∈ name :: _ := whole ▸ List.mem_append_right header List.mem_cons_self
      exact absurd (plain_cons (isPlain_of_isName named) attributed.plain _ here) ends
  | @instruction _ _ entries members _ _ name named attributed body =>
      obtain ⟨brace, isOpen', phrase⟩ := body
      obtain ⟨rfl, rfl, rfl⟩ := eq_of_plain_append plain
        (plain_cons (isPlain_of_isName named) attributed.plain) ends (not_isPlain_of_open isOpen')
        whole
      refine ⟨false, entries, members, .braces opening isOpen phrase, fun again equal =>
        ⟨_, .instruction name named attributed again, rfl, fun same => ?_⟩⟩
      simp only [Directive.unplaced, equal.entries same]
  | @group _ _ _ entries members _ _ _ _ _ named attributed body some first =>
      obtain ⟨brace, isOpen', phrase⟩ := body
      rw [← first, ← List.append_assoc] at whole
      obtain ⟨rfl, rfl, rfl⟩ := eq_of_plain_append plain
        (plain_append named.plain attributed.plain) ends (not_isPlain_of_open isOpen') whole
      refine ⟨true, entries, members, .braces opening isOpen phrase,
        fun {same _ members' items'} again equal => ?_⟩
      -- A group has to have members, and as many stand in the other body.
      have some' : members' ≠ [] := by
        rw [← List.length_pos_iff, equal.count]
        exact List.length_pos_iff.2 some
      obtain ⟨head, tail, first'⟩ := List.exists_cons_of_ne_nil
        (List.append_ne_nil_of_right_ne_nil _ (List.append_ne_nil_of_right_ne_nil _
          (List.cons_ne_nil opening items')))
      have phrase := NamedPhrase.group named attributed again some' first'
      rw [← first', ← List.append_assoc] at phrase
      refine ⟨_, phrase, rfl, fun same => ?_⟩
      simp only [Directive.unplaced, equal.entries same, equal.members same]

/-- The body of an instruction or a group, with other attributes of one of its entries or
members. -/
theorem NamedPhrase.refill_body {header items front : List Token} {opening : Token}
    (hasBody : keyword = "ins" ∨ keyword = "group") (plain : Plain header)
    (isOpen : opening.kind = .openBrace) (listed : Items "ins" items)
    (starts : EntryFront construct front) (attributes : AttributesPhrase pairs tokens)
    (fresh : Fresh behind)
    (phrase : NamedPhrase directive keyword
      (header ++ opening :: (items ++ (front ++ (tokens ++ behind))))) :
    Refill construct pairs fun same others => ∃ directive', NamedPhrase directive' keyword
      (header ++ opening :: (items ++ (front ++ (others ++ behind)))) ∧
        SameDirective same directive directive' := by
  obtain ⟨hasMembers, entries, members, body, build⟩ := phrase.exists_body hasBody plain isOpen
  refine (body.refill listed starts attributes fresh).imp fun same others made => ?_
  obtain ⟨entries', members', body', equal⟩ := made
  exact build body' equal

theorem NamedPhrase.refill_value {name opening word text : Token} {items : List Token}
    (isEnum : keyword = "enum") (listed : Items "value" items) (isWord : word.kind = .identifier)
    (isValue : word.lexeme = "value") (isText : Reader.isAttributeValue text.kind = true)
    (attributes : AttributesPhrase pairs tokens) (fresh : Fresh behind)
    (phrase : NamedPhrase directive keyword
      (name :: opening :: (items ++ (word :: text :: (tokens ++ behind))))) :
    Refill .enumerationValue pairs fun same others => ∃ directive', NamedPhrase directive' keyword
      (name :: opening :: (items ++ (word :: text :: (others ++ behind)))) ∧
        SameDirective same directive directive' := by
  generalize whole : name :: opening :: (items ++ (word :: text :: (tokens ++ behind))) = all
    at phrase
  cases phrase with
  | lookupTable | bare | instruction | group => exact absurd isEnum (by decide)
  | enumeration _ _ named isOpen values =>
      simp only [List.cons.injEq] at whole
      obtain ⟨rfl, rfl, rfl⟩ := whole
      have freshWord : Fresh (word :: text :: (tokens ++ behind)) :=
        fresh_of_identifier isWord (kind_ne_of_isAttributeValue isText)
      obtain ⟨front, later, rfl, cut, again⟩ := values.cut listed freshWord
      refine (cut.refill_front isWord isValue attributes fresh).imp fun same others made => ?_
      obtain ⟨entries', values', equal⟩ := made
      refine ⟨_, .enumeration name opening named isOpen (again values'), rfl, fun same => ?_⟩
      rw [equal same]
      rfl

/-- The header of an instruction with other attributes. -/
theorem NamedPhrase.refill_instruction {name : Token} (isIns : keyword = "ins")
    (attributes : AttributesPhrase pairs tokens) (fresh : Fresh behind)
    (phrase : NamedPhrase directive keyword (name :: (tokens ++ behind))) :
    Refill (.instruction name.lexeme) pairs fun same others => ∃ directive',
      NamedPhrase directive' keyword (name :: (others ++ behind)) ∧
        SameDirective same directive directive' := by
  generalize whole : name :: (tokens ++ behind) = all at phrase
  cases phrase with
  | lookupTable | enumeration | group => exact absurd isIns (by decide)
  | bare _ named attributed =>
      obtain ⟨rfl, same⟩ := List.cons.inj whole
      have ends : startsAttribute [] = false := rfl
      obtain ⟨rfl, rfl, refill⟩ := attributed.refill (.instruction _) attributes
        fresh.noAttribute ends (same.trans (List.append_nil _).symm)
      refine refill.imp fun same others made => ?_
      obtain ⟨⟨opcodes', layout'⟩, attributed', equal⟩ := made
      rw [List.append_nil]
      refine ⟨_, .bare name named attributed', rfl, fun same => ?_⟩
      obtain ⟨rfl, rfl⟩ := Prod.mk.inj (equal same)
      rfl
  | instruction _ named attributed body =>
      obtain ⟨rfl, same⟩ := List.cons.inj whole
      have opens := body.opens []
      rw [List.append_nil] at opens
      obtain ⟨rfl, rfl, refill⟩ := attributed.refill (.instruction _) attributes
        fresh.noAttribute (startsAttribute_eq_false (by simp [opens])) same
      refine refill.imp fun same others made => ?_
      obtain ⟨⟨opcodes', layout'⟩, attributed', equal⟩ := made
      refine ⟨_, .instruction name named attributed' body, rfl, fun same => ?_⟩
      obtain ⟨rfl, rfl⟩ := Prod.mk.inj (equal same)
      rfl

/-- The header of a group with other attributes. -/
theorem NamedPhrase.refill_group {name? : Option String} {names : List Token}
    (isGroup : keyword = "group") (named : GroupNamePhrase name? names)
    (attributes : AttributesPhrase pairs tokens) (ends : (Construct.group name?).EndsAt behind)
    (phrase : NamedPhrase directive keyword (names ++ (tokens ++ behind))) :
    Refill (.group name?) pairs fun same others => ∃ directive',
      NamedPhrase directive' keyword (names ++ (others ++ behind)) ∧
        SameDirective same directive directive' := by
  generalize whole : names ++ (tokens ++ behind) = all at phrase
  cases phrase with
  | lookupTable | enumeration | bare | instruction => exact absurd isGroup (by decide)
  | group named' attributed body some first =>
      have ⟨found, attributes', _⟩ := attributed
      have opens := body.opens []
      rw [List.append_nil] at opens
      rw [← first] at whole
      obtain ⟨rfl, rfl, rfl, rfl⟩ :=
        named.eq_of_append named' attributes attributes' ends opens whole
      obtain ⟨-, -, refill⟩ := attributed.refill (.group _) attributes
        ends.fresh.noAttribute ends.fresh.noAttribute rfl
      refine refill.imp fun same others made => ?_
      obtain ⟨⟨opcodes', layout'⟩, attributed', equal⟩ := made
      obtain ⟨brace, isOpen, items⟩ := body
      obtain ⟨head, tail, first'⟩ := List.exists_cons_of_ne_nil
        (List.append_ne_nil_of_right_ne_nil names (List.append_ne_nil_of_right_ne_nil others
          (List.cons_ne_nil brace _)))
      have phrase := NamedPhrase.group named attributed' (.braces brace isOpen items) some first'
      rw [← first'] at phrase
      refine ⟨_, phrase, rfl, fun same => ?_⟩
      obtain ⟨rfl, rfl⟩ := Prod.mk.inj (equal same)
      rfl

/-- **Other attributes in a slot.** Where a directive has attributes of a construct in a slot, they
are not refused. With any others in their place that are not refused it is a directive again, and
the same one up to places if they are rearranged. -/
theorem DirectivePhrase.refill {front : List Token} (slot : Slot construct front)
    (attributes : AttributesPhrase pairs tokens) (ends : construct.EndsAt behind)
    (phrase : DirectivePhrase directive (front ++ (tokens ++ behind))) :
    Refill construct pairs fun same others => ∃ directive',
      DirectivePhrase directive' (front ++ (others ++ behind)) ∧
        SameDirective same directive directive' := by
  generalize whole : front ++ (tokens ++ behind) = all at phrase
  obtain ⟨mark, word, isMark, isWord, named⟩ := phrase
  cases slot with
  | instruction _ _ name _ _ isIns _ =>
      simp only [List.cons_append, List.nil_append, List.cons.injEq] at whole
      obtain ⟨rfl, rfl, rfl⟩ := whole
      refine (named.refill_instruction isIns attributes ends.fresh).imp fun same others made => ?_
      obtain ⟨directive', phrase, equal⟩ := made
      exact ⟨directive', .directive _ _ isMark isWord phrase, equal⟩
  | group _ _ _ _ isGroup named' =>
      simp only [List.cons_append, List.cons.injEq] at whole
      obtain ⟨rfl, rfl, rfl⟩ := whole
      refine (named.refill_group isGroup named' attributes ends).imp fun same others made => ?_
      obtain ⟨directive', phrase, equal⟩ := made
      exact ⟨directive', .directive _ _ isMark isWord phrase, equal⟩
  | entry _ _ opening _ _ hasBody plain isOpen listed starts =>
      simp only [List.cons_append, List.append_assoc, List.cons.injEq] at whole
      obtain ⟨rfl, rfl, rfl⟩ := whole
      refine (named.refill_body hasBody plain isOpen listed starts attributes ends.fresh).imp
        fun same others made => ?_
      obtain ⟨directive', phrase, equal⟩ := made
      refine ⟨directive', ?_, equal⟩
      simpa using DirectivePhrase.directive _ _ isMark isWord phrase
  | value _ _ name opening value text _ _ isEnum _ _ listed isValueWord isValue isText =>
      simp only [List.cons_append, List.append_assoc, List.nil_append, List.cons.injEq] at whole
      obtain ⟨rfl, rfl, rfl⟩ := whole
      refine (named.refill_value isEnum listed isValueWord isValue isText attributes
        ends.fresh).imp fun same others made => ?_
      obtain ⟨directive', phrase, equal⟩ := made
      refine ⟨directive', ?_, equal⟩
      simpa using DirectivePhrase.directive _ _ isMark isWord phrase

end Refill

end InstructionSet.Grammar
