import InstructionSet.Proofs.Grammar.Soundness

/-!
# Every phrase is read

In front of a phrase of the grammar the reader of its construct answers what the phrase stands for,
and passes the phrase. The readers look ahead, so what stands behind a phrase matters: attributes
go on as long as a key with its sign comes next, and the quoted name of an entry is taken whenever
there is a text. What can follow an entry inside a body is neither (`ItemsPhrase.fresh`).
-/

namespace InstructionSet.Grammar

open InstructionSet.Text InstructionSet.Scanner

set_option autoImplicit false

/-! ## What can stand behind a phrase -/

/-- Tokens that belong to no name or attributes in front of them. -/
structure Fresh (tokens : List Token) : Prop where
  noText : frontKind tokens ≠ .text
  noSign : frontKind tokens ≠ .equals
  noAttribute : startsAttribute tokens = false

theorem startsAttribute_cons {key : Token} {rest : List Token} (noSign : frontKind rest ≠ .equals) :
    startsAttribute (key :: rest) = false := by
  cases rest with
  | nil => rfl
  | cons sign later =>
      have notSign : sign.kind ≠ .equals := noSign
      simp [startsAttribute, notSign]

theorem fresh_of_kind {token : Token} {rest : List Token} {kind : TokenKind}
    (same : token.kind = kind) (notText : kind ≠ .text) (notSign : kind ≠ .equals)
    (notIdentifier : kind ≠ .identifier) : Fresh (token :: rest) := by
  subst same
  exact ⟨notText, notSign, startsAttribute_eq_false notIdentifier⟩

theorem fresh_of_isMark {token : Token} {rest : List Token} (mark : isMark token) :
    Fresh (token :: rest) := by
  rcases mark with comma | semicolon
  · exact fresh_of_kind comma (by decide) (by decide) (by decide)
  · exact fresh_of_kind semicolon (by decide) (by decide) (by decide)

theorem fresh_of_identifier {token : Token} {rest : List Token}
    (isIdentifier : token.kind = .identifier) (noSign : frontKind rest ≠ .equals) :
    Fresh (token :: rest) where
  noText := by
    show token.kind ≠ .text
    simp [isIdentifier]
  noSign := by
    show token.kind ≠ .equals
    simp [isIdentifier]
  noAttribute := startsAttribute_cons noSign

theorem AttributesPhrase.noSign {pairs : AttributePairs} {tokens rest : List Token}
    (phrase : AttributesPhrase pairs tokens) (behind : frontKind rest ≠ .equals) :
    frontKind (tokens ++ rest) ≠ .equals := by
  cases phrase with
  | none => exact behind
  | more key sign value isKey isSign isValue later =>
      show key.kind ≠ .equals
      simp [isKey]

theorem Attributed.noSign {α : Type} {construct : Construct}
    {reading : Attributes → Except SyntaxError α} {value : α} {tokens rest : List Token}
    (attributes : Attributed construct reading value tokens) (behind : frontKind rest ≠ .equals) :
    frontKind (tokens ++ rest) ≠ .equals := by
  obtain ⟨pairs, phrase, -, -⟩ := attributes
  exact phrase.noSign behind

theorem AttributesPhrase.noText {pairs : AttributePairs} {tokens rest : List Token}
    (phrase : AttributesPhrase pairs tokens) (behind : frontKind rest ≠ .text) :
    frontKind (tokens ++ rest) ≠ .text := by
  cases phrase with
  | none => exact behind
  | more key sign value isKey isSign isValue later =>
      show key.kind ≠ .text
      simp [isKey]

theorem Attributed.noText {α : Type} {construct : Construct}
    {reading : Attributes → Except SyntaxError α} {value : α} {tokens rest : List Token}
    (attributes : Attributed construct reading value tokens) (behind : frontKind rest ≠ .text) :
    frontKind (tokens ++ rest) ≠ .text := by
  obtain ⟨pairs, phrase, -, -⟩ := attributes
  exact phrase.noText behind

theorem EntryNamePhrase.noSign {name : String} {tokens rest : List Token}
    (phrase : EntryNamePhrase name tokens) (behind : frontKind rest ≠ .equals) :
    frontKind (tokens ++ rest) ≠ .equals := by
  cases phrase with
  | unnamed => exact behind
  | quoted token isText =>
      show token.kind ≠ .equals
      simp [isText]

theorem EntryPhrase.noSign {entry : LayoutEntry} {keyword : String} {tokens rest : List Token}
    (phrase : EntryPhrase entry keyword tokens) (behind : frontKind rest ≠ .equals) :
    frontKind (tokens ++ rest) ≠ .equals := by
  cases phrase with
  | source named attributes =>
      rw [List.append_assoc]
      exact named.noSign (attributes.noSign behind)
  | dest named => exact named.noSign behind
  | staging named attributes =>
      rw [List.append_assoc]
      exact named.noSign (attributes.noSign behind)
  | immediate attributes => exact attributes.noSign behind
  | modifier attributes => exact attributes.noSign behind
  | tag bare => exact behind

theorem MemberPhrase.noSign {member : GroupMember} {tokens rest : List Token}
    (phrase : MemberPhrase member tokens) : frontKind (tokens ++ rest) ≠ .equals := by
  cases phrase with
  | member name named attributes =>
      exact kind_ne_of_isAttributeValue (isAttributeValue_of_isName named)

theorem ItemsPhrase.fresh {hasMembers : Bool} {entries : List LayoutEntry}
    {members : List GroupMember} {tokens : List Token}
    (phrase : ItemsPhrase hasMembers entries members tokens) (rest : List Token) :
    Fresh (tokens ++ rest) := by
  induction phrase with
  | close brace isClose => exact fresh_of_kind isClose (by decide) (by decide) (by decide)
  | mark mark isMark _ ih => exact fresh_of_isMark isMark
  | entry keyword isKeyword entry _ ih =>
      rw [List.cons_append, List.append_assoc]
      refine fresh_of_identifier isKeyword ?_
      exact entry.noSign ih.noSign
  | member keyword isKeyword _ _ member _ ih =>
      rw [List.cons_append, List.append_assoc]
      refine fresh_of_identifier isKeyword ?_
      exact member.noSign

theorem ItemsPhrase.isFresh {hasMembers : Bool} {entries : List LayoutEntry}
    {members : List GroupMember} {tokens : List Token}
    (phrase : ItemsPhrase hasMembers entries members tokens) : Fresh tokens := by
  have fresh := phrase.fresh []
  rwa [List.append_nil] at fresh

theorem BodyPhrase.opens {hasMembers : Bool} {entries : List LayoutEntry}
    {members : List GroupMember} {tokens : List Token}
    (phrase : BodyPhrase hasMembers entries members tokens) (rest : List Token) :
    frontKind (tokens ++ rest) = .openBrace := by
  cases phrase with
  | braces brace isOpen items => exact isOpen

theorem ValuesPhrase.fresh {entries : List EnumerationEntry} {tokens : List Token}
    (phrase : ValuesPhrase entries tokens) (rest : List Token) : Fresh (tokens ++ rest) := by
  induction phrase with
  | close brace isClose => exact fresh_of_kind isClose (by decide) (by decide) (by decide)
  | mark mark isMark _ ih => exact fresh_of_isMark isMark
  | value keyword text isKeyword _ isText _ _ ih =>
      exact fresh_of_identifier isKeyword (kind_ne_of_isAttributeValue isText)
  | reserved keyword isKeyword _ _ ih => exact fresh_of_identifier isKeyword ih.noSign

theorem ValuesPhrase.isFresh {entries : List EnumerationEntry} {tokens : List Token}
    (phrase : ValuesPhrase entries tokens) : Fresh tokens := by
  have fresh := phrase.fresh []
  rwa [List.append_nil] at fresh

theorem BodyPhrase.fresh {hasMembers : Bool} {entries : List LayoutEntry}
    {members : List GroupMember} {tokens : List Token}
    (phrase : BodyPhrase hasMembers entries members tokens) (rest : List Token) :
    Fresh (tokens ++ rest) := by
  obtain ⟨opening, isOpen, -⟩ := phrase
  exact fresh_of_kind isOpen (by decide) (by decide) (by decide)

namespace Reader

variable {α β γ : Type} {state : State} {rest : List Token}

/-! ## Attributes -/

theorem nextAttribute_run (construct : Construct) {pairs : AttributePairs} {key sign value : Token}
    (holds : state.Holds (key :: sign :: value :: rest)) (isKey : key.kind = .identifier)
    (isSign : sign.kind = .equals) (isValue : isAttributeValue value.kind = true)
    (isNew : key.lexeme.toLower ∉ pairs.map (·.1)) :
    (nextAttribute construct pairs).Answers state [key, sign, value]
      (.again (pairs ++ [(key.lexeme.toLower, value)])) := by
  have notListed : pairs.any (·.1 = key.lexeme.toLower) = false := by
    rw [Bool.eq_false_iff]
    intro listed
    obtain ⟨pair, member, same⟩ := List.any_eq_true.1 listed
    exact isNew (List.mem_map.2 ⟨pair, member, of_decide_eq_true same⟩)
  refine (attributeKey?_run holds isKey isSign).bind fun passes => ?_
  refine (consume_run_of_holds (passes.holds holds)).compute fun _ => ?_
  rw [isValue, notListed]
  rfl

theorem attributes_loop_run (construct : Construct) {more : AttributePairs} {tokens : List Token}
    (phrase : AttributesPhrase more tokens) (behind : startsAttribute rest = false)
    {state : State} (holds : state.Holds (tokens ++ rest)) (pairs : AttributePairs)
    (distinct : ((pairs ++ more).map (·.1)).Nodup) :
    (loop (nextAttribute construct) (progresses_nextAttribute construct) pairs).Answers state tokens
      (pairs ++ more) := by
  induction phrase generalizing state pairs with
  | none =>
      rw [List.append_nil]
      refine Answers.done ?_
      exact (attributeKey?_run_none holds behind).compute fun _ => rfl
  | @more more tokens key sign value isKey isSign isValue _ ih =>
      have isNew : key.lexeme.toLower ∉ pairs.map (·.1) := by
        rw [List.map_append] at distinct
        intro listed
        exact (List.nodup_append.1 distinct).2.2 _ listed _ List.mem_cons_self rfl
      have still : ((pairs ++ [(key.lexeme.toLower, value)]) ++ more).map (·.1) |>.Nodup := by
        rwa [List.append_assoc, List.singleton_append]
      have later := (nextAttribute_run construct holds isKey isSign isValue isNew).again _
        fun passes => ih (passes.holds holds) (pairs ++ [(key.lexeme.toLower, value)]) still
      rwa [List.append_assoc, List.singleton_append] at later

theorem attributes_run (construct : Construct) {pairs : AttributePairs} {tokens : List Token}
    (phrase : AttributesPhrase pairs tokens) (distinct : (pairs.map (·.1)).Nodup)
    (behind : startsAttribute rest = false) (holds : state.Holds (tokens ++ rest)) :
    (attributes construct).Answers state tokens ⟨construct, pairs⟩ :=
  (attributes_loop_run construct phrase behind holds [] distinct).compute fun _ => rfl

/-- The reading of attributes goes on with what the construct reads from them. -/
theorem attributed_run {construct : Construct} {reading : Attributes → Except SyntaxError α}
    {value : α} {tokens more : List Token} {continuation : Attributes → Reader β} {result : β}
    (attributed : Attributed construct reading value tokens)
    (behind : startsAttribute rest = false) (holds : state.Holds (tokens ++ rest))
    (goesOn : ∀ {found next}, reading found = .ok value → state.Passes tokens next →
      (continuation found).Answers next more result) :
    (attributes construct >>= continuation).Answers state (tokens ++ more) result := by
  obtain ⟨pairs, phrase, distinct, read⟩ := attributed
  exact (attributes_run construct phrase distinct behind holds).bind fun passes =>
    goesOn read passes

theorem lift_run {result : Except SyntaxError α} {value : α} (orderly : state.Orderly)
    (computed : result = .ok value) : (liftM result : Reader α).Answers state [] value := by
  subst computed
  exact ⟨state, rfl, .refl orderly⟩

theorem attributed_lift_run {construct : Construct} {reading : Attributes → Except SyntaxError α}
    {value : α} {tokens : List Token} (attributed : Attributed construct reading value tokens)
    (behind : startsAttribute rest = false) (holds : state.Holds (tokens ++ rest)) :
    (attributes construct >>= fun found => (liftM (reading found) : Reader α)).Answers state tokens
      value := by
  have whole := attributed_run attributed behind holds (fun read passes =>
    lift_run passes.orderly read)
  rwa [List.append_nil] at whole

/-! ## Bodies -/

theorem entryName_run {name : String} {tokens : List Token} (phrase : EntryNamePhrase name tokens)
    (behind : frontKind rest ≠ .text) (holds : state.Holds (tokens ++ rest)) :
    entryName.Answers state tokens name := by
  cases phrase with
  | unnamed =>
      refine (check_run holds .text).compute fun _ => ?_
      rw [List.nil_append, decide_eq_false behind]
      rfl
  | quoted token isText =>
      have atText : frontKind ([token] ++ rest) = .text := isText
      refine (check_run holds .text).bind fun looked => ?_
      rw [decide_eq_true atText, if_pos rfl]
      exact (consume_run_of_holds (looked.holds holds)).compute fun _ => rfl

theorem named_run {construct : Construct} {reading : String → Attributes → Except SyntaxError α}
    {value : α} {name : String} {names tokens : List Token} (named : EntryNamePhrase name names)
    (attributes : Attributed construct (reading name) value tokens) (behind : Fresh rest)
    (holds : state.Holds (names ++ tokens ++ rest)) :
    (entryName >>= fun name => Reader.attributes construct >>= fun found =>
      (liftM (reading name found) : Reader α)).Answers state (names ++ tokens) value := by
  rw [List.append_assoc] at holds
  exact (entryName_run named (attributes.noText behind.noText) holds).bind fun passes =>
    attributed_lift_run attributes behind.noAttribute (passes.holds holds)

theorem regionFrom_run {first : Token} {tokens : List Token} {last : State}
    (passes : state.Passes (first :: tokens) last) :
    (regionFrom first).Answers last [] (regionOver first tokens) := by
  refine ⟨last, ?_, .refl passes.orderly⟩
  show (Except.ok (first.regionTo (last.last.getD first)), last) = _
  rw [passes.taken, List.getLast?_cons]
  rfl

theorem member_run {member : GroupMember} {tokens : List Token}
    (phrase : MemberPhrase member tokens) (behind : startsAttribute rest = false)
    (holds : state.Holds (tokens ++ rest)) :
    Reader.member.Answers state tokens member := by
  cases phrase with
  | @member opcodes tokens token named attributes =>
      refine (name_run holds named .member).bind fun passesName => ?_
      refine (attributed_run attributes behind (passesName.holds holds) fun read passes => ?_).whole
      refine (lift_run passes.orderly read).bind fun same => ?_
      have region := regionFrom_run ((passesName.trans passes).still same)
      exact region.compute fun _ => rfl

theorem entryBehind_run {construct : Construct} {entry : LayoutEntry} {keyword : String}
    {tokens : List Token} (phrase : EntryPhrase entry keyword tokens) (behind : Fresh rest)
    (holds : state.Holds (tokens ++ rest)) (body : Body) :
    (entryBehind construct body keyword).Answers state tokens (body.addEntry entry) := by
  cases phrase with
  | source named attributes => exact (named_run named attributes behind holds).map _
  | dest named => exact (entryName_run named behind.noText holds).map _
  | staging named attributes => exact (named_run named attributes behind holds).map _
  | immediate attributes =>
      exact (attributed_lift_run attributes behind.noAttribute holds).map _
  | modifier attributes =>
      exact (attributed_lift_run attributes behind.noAttribute holds).map _
  | tag bare =>
      simp only [entryKeywords, List.mem_cons, List.not_mem_nil, or_false, not_or] at bare
      obtain ⟨notSrc, notDest, notSr, notImm, notMod, notIns⟩ := bare
      simp only [entryBehind]
      exact ⟨state, rfl, .refl holds.orderly⟩

theorem memberBehind_run {construct : Construct} {member : GroupMember} {keyword : String}
    {tokens : List Token} (isIns : keyword = "ins") (permitted : construct.hasMembers = true)
    (phrase : MemberPhrase member tokens) (behind : startsAttribute rest = false)
    (holds : state.Holds (tokens ++ rest)) (body : Body) :
    (entryBehind construct body keyword).Answers state tokens (body.addMember member) := by
  subst isIns
  simp only [entryBehind, permitted, if_true]
  exact (member_run phrase behind holds).map _

/-! ### Rounds of a body and of an enumeration -/

section Punctuated

variable {tokens more : List Token} {unclosed : SyntaxError} {closed again : Round β γ}
  {entry : Reader (Round β γ)}

theorem eat_then_run {token : Token} {kind : TokenKind} {answered : Round β γ}
    {other : Reader (Round β γ)} (holds : state.Holds (token :: rest))
    (same : token.kind = kind) :
    (eat kind >>= fun eaten => if eaten then pure answered else other).Answers state [token]
      answered := by
  subst same
  exact (eat_run holds).compute fun _ => rfl

theorem eat_else_run {kind : TokenKind} {answered value : Round β γ}
    {other : Reader (Round β γ)} (holds : state.Holds tokens) (differs : frontKind tokens ≠ kind)
    (behind : ∀ {next}, next.Holds tokens → other.Answers next more value) :
    (eat kind >>= fun eaten => if eaten then pure answered else other).Answers state more value :=
  (eat_run_other holds differs).bind fun passes => behind (holds.of_passes_nil passes)

theorem unfinished_run {value : Round β γ} {other : Reader (Round β γ)}
    (holds : state.Holds tokens) (differs : frontKind tokens ≠ .finish)
    (behind : ∀ {next}, next.Holds tokens → other.Answers next more value) :
    (check .finish >>= fun atEnd => if atEnd then fail unclosed else other).Answers state more
      value := by
  refine (check_run holds .finish).bind fun passes => ?_
  rw [decide_eq_false differs]
  exact behind (holds.of_passes_nil passes)

theorem punctuated_run_close {brace : Token} (isClose : brace.kind = .closeBrace)
    (holds : state.Holds (brace :: rest)) :
    (punctuated unclosed closed again entry).Answers state [brace] closed := by
  have front : frontKind (brace :: rest) = .closeBrace := isClose
  refine unfinished_run holds (by simp [front]) fun holds => ?_
  exact eat_then_run holds isClose

theorem punctuated_run_mark {mark : Token} (marks : isMark mark)
    (holds : state.Holds (mark :: rest)) :
    (punctuated unclosed closed again entry).Answers state [mark] again := by
  have front : frontKind (mark :: rest) = mark.kind := rfl
  rcases marks with comma | semicolon
  · refine unfinished_run holds (by simp [front, comma]) fun holds => ?_
    refine eat_else_run holds (by simp [front, comma]) fun holds => ?_
    exact eat_then_run holds comma
  · refine unfinished_run holds (by simp [front, semicolon]) fun holds => ?_
    refine eat_else_run holds (by simp [front, semicolon]) fun holds => ?_
    refine eat_else_run holds (by simp [front, semicolon]) fun holds => ?_
    exact eat_then_run holds semicolon

theorem punctuated_run_entry {keyword : Token} {value : Round β γ}
    (isKeyword : keyword.kind = .identifier) (holds : state.Holds (keyword :: rest))
    (behind : ∀ {next}, next.Holds (keyword :: rest) → entry.Answers next more value) :
    (punctuated unclosed closed again entry).Answers state more value := by
  have front : frontKind (keyword :: rest) = .identifier := isKeyword
  refine unfinished_run holds (by simp [front]) fun holds => ?_
  refine eat_else_run holds (by simp [front]) fun holds => ?_
  refine eat_else_run holds (by simp [front]) fun holds => ?_
  exact eat_else_run holds (by simp [front]) behind

end Punctuated

theorem nextEntry_run (construct : Construct) {body added : Body} {keyword : Token}
    {tokens : List Token} (isKeyword : keyword.kind = .identifier)
    (holds : state.Holds (keyword :: (tokens ++ rest)))
    (noSign : frontKind (tokens ++ rest) ≠ .equals)
    (entered : ∀ {middle : State}, middle.Holds (tokens ++ rest) →
      (entryBehind construct body keyword.lexeme).Answers middle tokens added) :
    (nextEntry construct body).Answers state (keyword :: tokens) (.again added) := by
  have notStray : startsAttribute (keyword :: (tokens ++ rest)) = false :=
    startsAttribute_cons noSign
  refine punctuated_run_entry isKeyword holds fun holds => ?_
  refine (atAttribute_run holds).bind fun looked => ?_
  rw [notStray]
  have behind := holds.of_passes_nil looked
  refine (identifier_run behind isKeyword .bodyEntry).bind fun passes => ?_
  exact (entered (passes.holds behind)).compute fun _ => rfl

theorem items_run {construct : Construct} {entries : List LayoutEntry}
    {members : List GroupMember} {tokens : List Token}
    (phrase : ItemsPhrase construct.hasMembers entries members tokens) {state : State}
    (holds : state.Holds (tokens ++ rest)) (body : Body) :
    (loop (nextEntry construct) (progresses_nextEntry construct) body).Answers state tokens
      (bodyWith body entries members) := by
  induction phrase generalizing state body with
  | close brace isClose =>
      rw [bodyWith_nil]
      exact Answers.done (punctuated_run_close isClose holds)
  | mark mark isMark _ ih =>
      exact (punctuated_run_mark isMark holds).again _ fun passes => ih (passes.holds holds) body
  | entry keyword isKeyword entry items ih =>
      rw [List.cons_append, List.append_assoc] at holds
      have fresh := items.fresh rest
      have once := nextEntry_run construct isKeyword holds (entry.noSign fresh.noSign)
        fun holds => entryBehind_run entry fresh holds body
      rw [← bodyWith_addEntry]
      exact once.again _ fun passes => ih (passes.holds holds) _
  | @member _ _ _ _ first keyword isKeyword isIns permitted member items ih =>
      rw [List.cons_append, List.append_assoc] at holds
      have fresh := items.fresh rest
      have once := nextEntry_run construct isKeyword holds member.noSign
        fun holds => memberBehind_run isIns permitted member fresh.noAttribute holds body
      rw [← bodyWith_addMember]
      exact once.again _ fun passes => ih (passes.holds holds) _

theorem body_run (construct : Construct) {entries : List LayoutEntry} {members : List GroupMember}
    {tokens : List Token} (phrase : BodyPhrase construct.hasMembers entries members tokens)
    (holds : state.Holds (tokens ++ rest)) (layout : Layout) :
    (body construct layout).Answers state tokens
      ⟨{ layout with entries := layout.entries ++ entries }, members⟩ := by
  cases phrase with
  | braces brace isOpen phrase =>
      refine (expect_run holds isOpen (.body construct)).bind fun passes => ?_
      exact items_run phrase (passes.holds holds) ⟨layout, []⟩

/-! ## Lookup tables and enumerations -/

theorem constants_run {table : String} {more : List UInt32} {tokens : List Token}
    (phrase : ConstantsPhrase more tokens) {state : State} (holds : state.Holds (tokens ++ rest))
    (values : List UInt32) :
    (loop (nextConstant table) (progresses_nextConstant table) values).Answers state tokens
      (values ++ more) := by
  induction phrase generalizing state values with
  | close brace isClose =>
      rw [List.append_nil]
      refine Answers.done ((consume_run_of_holds holds).compute fun _ => ?_)
      simp only [isClose]
      rfl
  | mark mark marks _ ih =>
      have once : (nextConstant table values).Answers state [mark] (.again values) := by
        refine (consume_run_of_holds holds).compute fun _ => ?_
        rcases marks with comma | semicolon
        · simp only [comma]
          rfl
        · simp only [semicolon]
          rfl
      exact once.again _ fun passes => ih (passes.holds holds) values
  | @number more _ value number isNumber read _ ih =>
      have once : (nextConstant table values).Answers state [number]
          (.again (values ++ [value])) := by
        refine (consume_run_of_holds holds).compute fun _ => ?_
        simp only [isNumber, read]
        rfl
      rw [List.append_cons]
      exact once.again _ fun passes => ih (passes.holds holds) (values ++ [value])

theorem enumerationValue_run {enumeration : String} {text : Token} {tokens : List Token}
    {isDefault : Bool} (isText : isAttributeValue text.kind = true)
    (attributes : Attributed .enumerationValue (·.isDefault) isDefault tokens)
    (behind : startsAttribute rest = false) (holds : state.Holds (text :: (tokens ++ rest))) :
    (enumerationValue enumeration).Answers state (text :: tokens)
      (.value text.lexeme isDefault) := by
  refine (consume_run_of_holds holds).bind fun passesText => ?_
  rw [if_pos isText]
  refine (attributed_run attributes behind (passesText.holds holds) fun read passes => ?_).whole
  exact (lift_run passes.orderly read).compute fun _ => rfl

theorem values_run {enumeration : String} {more : List EnumerationEntry} {tokens : List Token}
    (phrase : ValuesPhrase more tokens) {state : State} (holds : state.Holds (tokens ++ rest))
    (entries : List EnumerationEntry) :
    (loop (nextEnumerationEntry enumeration)
      (progresses_nextEnumerationEntry enumeration) entries).Answers state tokens
        (entries ++ more) := by
  induction phrase generalizing state entries with
  | close brace isClose =>
      rw [List.append_nil]
      exact Answers.done (punctuated_run_close isClose holds)
  | mark mark isMark _ ih =>
      exact (punctuated_run_mark isMark holds).again _ fun passes =>
        ih (passes.holds holds) entries
  | @value more tokens later isDefault keyword text isKeyword isValue isText attributes values ih =>
      rw [List.cons_append, List.cons_append, List.append_assoc] at holds
      have fresh := values.fresh rest
      have once : (nextEnumerationEntry enumeration entries).Answers state
          (keyword :: text :: tokens) (.again (entries ++ [.value text.lexeme isDefault])) := by
        refine punctuated_run_entry isKeyword holds fun holds => ?_
        refine (identifier_run holds isKeyword .enumerationEntry).bind fun passes => ?_
        rw [isValue]
        exact (enumerationValue_run isText attributes fresh.noAttribute
          (passes.holds holds)).compute fun _ => rfl
      rw [List.append_cons]
      exact once.again _ fun passes => ih (passes.holds holds) _
  | @reserved more later keyword isKeyword isReserved _ ih =>
      have once : (nextEnumerationEntry enumeration entries).Answers state [keyword]
          (.again (entries ++ [.reserved])) := by
        refine punctuated_run_entry isKeyword holds fun holds => ?_
        refine (identifier_run holds isKeyword .enumerationEntry).compute fun _ => ?_
        rw [isReserved]
        rfl
      rw [List.append_cons]
      exact once.again _ fun passes => ih (passes.holds holds) _

/-! ## Directives -/

theorem lookupTable_run {values : List UInt32} {constants : List Token} {name brace : Token}
    (named : isName name) (isOpen : brace.kind = .openBrace)
    (phrase : ConstantsPhrase values constants) (isNew : name.lexeme ∉ state.tables)
    (holds : state.Holds (name :: brace :: (constants ++ rest))) :
    ∃ next, lookupTable.run state =
        (.ok (.lookupTable ⟨name.lexeme, values, regionOver name (brace :: constants)⟩), next) ∧
      (state.noting [name.lexeme]).Passes (name :: brace :: constants) next := by
  obtain ⟨middle, ranName, passesName⟩ := name_run holds named .lookupTable
  have declared : (declareTable name.lexeme).run middle =
      (.ok true, middle.noting [name.lexeme]) := by
    have stillNew : name.lexeme ∉ middle.tables := passesName.tables ▸ isNew
    simp only [declareTable, if_neg stillNew]
    rfl
  have passesNoted := passesName.noting [name.lexeme]
  have holdsNoted : (middle.noting [name.lexeme]).Holds (brace :: (constants ++ rest)) :=
    (passesName.holds holds).noting _
  have behind : (expect .openBrace .lookupTableBlock >>= fun _ =>
      loop (nextConstant name.lexeme) (progresses_nextConstant name.lexeme) [] >>= fun values =>
      regionFrom name >>= fun region =>
        pure (Directive.lookupTable ⟨name.lexeme, values, region⟩)).Answers
          (middle.noting [name.lexeme]) (brace :: constants)
          (.lookupTable ⟨name.lexeme, values, regionOver name (brace :: constants)⟩) := by
    refine (expect_run holdsNoted isOpen .lookupTableBlock).bind fun passesBrace => ?_
    refine ((constants_run phrase (passesBrace.holds holdsNoted) []).bind fun passes => ?_).whole
    exact (regionFrom_run (passesNoted.trans (passesBrace.trans passes))).compute fun _ => rfl
  obtain ⟨last, ran, passes⟩ := behind
  refine ⟨last, ?_, passesNoted.trans passes⟩
  rw [lookupTable, run_bind_of_ok ranName, run_bind_of_ok declared]
  exact ran

theorem enumeration_run {entries : List EnumerationEntry} {values : List Token}
    {name brace : Token} (named : isName name) (isOpen : brace.kind = .openBrace)
    (phrase : ValuesPhrase entries values)
    (holds : state.Holds (name :: brace :: (values ++ rest))) :
    enumeration.Answers state (name :: brace :: values)
      (.enumeration ⟨name.lexeme, entries, regionOver name (brace :: values)⟩) := by
  refine (name_run holds named .enumeration).bind fun passesName => ?_
  have holdsBrace := passesName.holds holds
  refine (expect_run holdsBrace isOpen .enumerationBlock).bind fun passesBrace => ?_
  refine ((values_run phrase (passesBrace.holds holdsBrace) []).bind fun passes => ?_).whole
  exact (regionFrom_run (passesName.trans (passesBrace.trans passes))).compute fun _ => rfl

theorem bare_run {opcodes : Opcodes} {layout : Layout} {tokens : List Token} {name : Token}
    (named : isName name)
    (attributes : Attributed (.instruction name.lexeme) (·.header) (opcodes, layout) tokens)
    (noAttribute : startsAttribute rest = false) (noBody : frontKind rest ≠ .openBrace)
    (holds : state.Holds (name :: (tokens ++ rest))) :
    instruction.Answers state (name :: tokens)
      (.instruction ⟨name.lexeme, opcodes, layout, regionOver name tokens⟩) := by
  refine (name_run holds named .instruction).bind fun passesName => ?_
  have holdsHeader := passesName.holds holds
  refine (attributed_run attributes noAttribute holdsHeader fun read passes => ?_).whole
  refine (lift_run passes.orderly read).bind fun same => ?_
  have holdsRest := (passes.still same).holds holdsHeader
  refine (check_run holdsRest .openBrace).bind fun looked => ?_
  rw [decide_eq_false noBody]
  change (regionFrom name >>= fun region =>
    pure (Directive.instruction ⟨name.lexeme, opcodes, layout, region⟩)).Answers _ _ _
  have toEnd := (passesName.trans passes).still (same.still looked)
  exact (regionFrom_run toEnd).compute fun _ => rfl

theorem instruction_run {opcodes : Opcodes} {layout : Layout} {entries : List LayoutEntry}
    {members : List GroupMember} {tokens items : List Token} {name : Token} (named : isName name)
    (attributes : Attributed (.instruction name.lexeme) (·.header) (opcodes, layout) tokens)
    (phrase : BodyPhrase false entries members items)
    (holds : state.Holds (name :: (tokens ++ (items ++ rest)))) :
    instruction.Answers state (name :: (tokens ++ items))
      (.instruction ⟨name.lexeme, opcodes, { layout with entries := layout.entries ++ entries },
        regionOver name (tokens ++ items)⟩) := by
  have opens : frontKind (items ++ rest) = .openBrace := phrase.opens rest
  refine (name_run holds named .instruction).bind fun passesName => ?_
  have holdsHeader := passesName.holds holds
  have noAttribute : startsAttribute (items ++ rest) = false :=
    startsAttribute_eq_false (by simp [opens])
  refine attributed_run attributes noAttribute holdsHeader fun read passes => ?_
  refine (lift_run passes.orderly read).bind fun same => ?_
  have holdsBody := (passes.still same).holds holdsHeader
  refine (check_run holdsBody .openBrace).bind fun looked => ?_
  rw [decide_eq_true opens]
  have toBody := (passesName.trans passes).still (same.still looked)
  have read := body_run (.instruction name.lexeme) phrase
    (holdsBody.of_passes_nil looked) layout
  refine ((read.map Body.layout).bind fun passesBody => ?_).whole
  exact (regionFrom_run (toBody.trans passesBody)).compute fun _ => rfl

theorem groupName?_run {name? : Option String} {names : List Token} {first : Token}
    (phrase : GroupNamePhrase name? names) (noSign : frontKind rest ≠ .equals)
    (keyOrOpen : names = [] → startsAttribute rest = true ∨ frontKind rest = .openBrace)
    (holds : state.Holds (names ++ rest)) {later : List Token}
    (front : names ++ rest = first :: later) :
    (groupName? first).Answers state names name? := by
  cases phrase with
  | unnamed =>
      rcases keyOrOpen rfl with isKey | isOpen
      · unfold groupName?
        split
        next =>
          refine (atAttribute_run holds).compute fun _ => ?_
          rw [List.nil_append, isKey]
          rfl
        next => exact ⟨state, rfl, .refl holds.orderly⟩
      · have opens : first.kind = .openBrace := by
          rw [List.nil_append] at front
          rw [front] at isOpen
          exact isOpen
        unfold groupName?
        rw [if_neg (by simp [opens])]
        exact ⟨state, rfl, .refl holds.orderly⟩
  | named token named =>
      obtain ⟨rfl, rfl⟩ := List.cons.inj front
      have notKey : startsAttribute ([token] ++ rest) = false := startsAttribute_cons noSign
      have isName : token.kind = .identifier ∨ token.kind = .text := named
      unfold groupName?
      rw [if_pos isName]
      refine (atAttribute_run holds).bind fun looked => ?_
      rw [notKey]
      exact (consume_run_of_holds (holds.of_passes_nil looked)).compute fun _ => rfl

theorem peek_first_run {first : Token} (holds : state.Holds (first :: rest)) :
    peek.Answers state [] first := by
  obtain ⟨token, next, ran, passes, -, same⟩ := peek_run_of_holds holds
  rw [same first rest rfl] at ran
  exact ⟨next, ran, passes⟩

theorem group_run {name? : Option String} {opcodes : Opcodes} {layout : Layout}
    {entries : List LayoutEntry} {members : List GroupMember}
    {names tokens items later : List Token} {first : Token}
    (named : GroupNamePhrase name? names)
    (attributes : Attributed (.group name?) (·.header) (opcodes, layout) tokens)
    (phrase : BodyPhrase true entries members items) (listed : members ≠ [])
    (whole : names ++ (tokens ++ items) = first :: later)
    (holds : state.Holds (first :: (later ++ rest))) :
    group.Answers state (first :: later)
      (.group ⟨name?, opcodes, { layout with entries := layout.entries ++ entries }, members,
        regionOver first later⟩) := by
  have opens : frontKind (items ++ rest) = .openBrace := phrase.opens rest
  have noAttribute : startsAttribute (items ++ rest) = false :=
    startsAttribute_eq_false (by simp [opens])
  have front : names ++ (tokens ++ (items ++ rest)) = first :: (later ++ rest) := by
    rw [← List.cons_append, ← whole, List.append_assoc, List.append_assoc]
  have keyOrOpen : startsAttribute (tokens ++ (items ++ rest)) = true ∨
      frontKind (tokens ++ (items ++ rest)) = .openBrace := by
    obtain ⟨pairs, keys, -, -⟩ := attributes
    cases keys with
    | none => exact .inr opens
    | more key sign value isKey isSign isValue _ =>
        left
        simp [startsAttribute, isKey, isSign]
  rw [← whole]
  refine (peek_first_run holds).bind fun looked => ?_
  have holdsName := holds.of_passes_nil looked
  rw [← front] at holdsName
  have noSign : frontKind (tokens ++ (items ++ rest)) ≠ .equals :=
    attributes.noSign (by simp [opens])
  refine (groupName?_run named noSign (fun _ => keyOrOpen) holdsName front).bind
    fun passesName => ?_
  have holdsHeader := passesName.holds holdsName
  refine attributed_run attributes noAttribute holdsHeader fun read passes => ?_
  refine (lift_run passes.orderly read).bind fun same => ?_
  have holdsBody := (passes.still same).holds holdsHeader
  refine (check_run holdsBody .openBrace).bind fun seen => ?_
  rw [decide_eq_true opens]
  have toBody := (looked.trans passesName).trans (passes.still (same.still seen))
  refine ((body_run (.group name?) phrase (holdsBody.of_passes_nil seen) layout).bind
    fun passesBody => ?_).whole
  have toEnd := toBody.trans passesBody
  rw [List.nil_append, List.append_assoc, whole] at toEnd
  change (if members = [] then _ else _ : Reader Directive).Answers _ _ _
  rw [if_neg listed]
  exact (regionFrom_run toEnd).compute fun _ => rfl

/-- In front of a phrase that stands at the end of the source or in front of another directive, the
reader of its name reads it, if it declares no lookup table again. -/
theorem directiveNamed_run {directive : Directive} {keyword : String} {tokens : List Token}
    (phrase : NamedPhrase directive keyword tokens)
    (areNew : ∀ name ∈ tableNames directive, name ∉ state.tables)
    (noAttribute : startsAttribute rest = false) (noBody : frontKind rest ≠ .openBrace)
    (holds : state.Holds (tokens ++ rest)) :
    ∃ next, (directiveNamed keyword).run state = (.ok directive, next) ∧
      (state.noting (tableNames directive)).Passes tokens next := by
  cases phrase with
  | lookupTable name brace named isOpen constants =>
      exact lookupTable_run named isOpen constants (areNew _ List.mem_cons_self) holds
  | enumeration name brace named isOpen values =>
      exact enumeration_run named isOpen values holds
  | bare name named attributes => exact bare_run named attributes noAttribute noBody holds
  | instruction name named attributes body =>
      rw [List.cons_append, List.append_assoc] at holds
      exact instruction_run named attributes body holds
  | group named attributes body listed whole =>
      exact group_run named attributes body listed whole holds

theorem boundary_run (name : String) {tokens : List Token} (holds : state.Holds tokens)
    (ended : frontKind tokens = .colon ∨ frontKind tokens = .finish) :
    (boundary name).Answers state [] () := by
  obtain ⟨token, next, peeked, passes, same, -⟩ := peek_run_of_holds holds
  have atBoundary : token.kind = .finish ∨ token.kind = .colon := by
    rw [same]
    exact ended.symm
  have looked : insideDirective?.Answers state [] none :=
    Answers.compute ⟨next, peeked, passes⟩ fun _ => by rw [if_pos atBoundary]; rfl
  have looped : (loop nextTrailing progresses_nextTrailing []).Answers state [] [] :=
    Answers.done (looked.compute fun _ => rfl)
  exact looped.compute fun _ => rfl

theorem directive_run {found : Directive} {tokens : List Token}
    (phrase : DirectivePhrase found tokens)
    (areNew : ∀ name ∈ tableNames found, name ∉ state.tables)
    (ended : frontKind rest = .colon ∨ frontKind rest = .finish)
    (holds : state.Holds (tokens ++ rest)) :
    ∃ next, directive.run state = (.ok found, next) ∧
      (state.noting (tableNames found)).Passes tokens next := by
  cases phrase with
  | @directive tokens mark keyword isMark isKeyword named =>
      obtain ⟨first, ranMark, passesMark⟩ := expect_run holds isMark .directiveMark
      obtain ⟨second, ranKeyword, passesKeyword⟩ :=
        identifier_run (passesMark.holds holds) isKeyword .directive
      have before : state.Passes [mark, keyword] second := passesMark.trans passesKeyword
      have noBody : frontKind rest ≠ .openBrace := by
        rcases ended with colon | finish
        · simp [colon]
        · simp [finish]
      have noAttribute : startsAttribute rest = false := by
        rcases ended with colon | finish
        · exact startsAttribute_eq_false (by simp [colon])
        · exact startsAttribute_eq_false (by simp [finish])
      rw [← before.tables] at areNew
      have holdsNamed : second.Holds (tokens ++ rest) := before.holds holds
      obtain ⟨third, ranNamed, passesNamed⟩ :=
        directiveNamed_run named areNew noAttribute noBody holdsNamed
      have holdsRest : third.Holds rest :=
        passesNamed.holds (holdsNamed.noting _)
      obtain ⟨last, ranBoundary, passesBoundary⟩ :=
        boundary_run keyword.lexeme holdsRest ended
      refine ⟨last, ?_, ((before.noting _).trans passesNamed).still passesBoundary⟩
      rw [directive, run_bind_of_ok ranMark, run_bind_of_ok ranKeyword, run_bind_of_ok ranNamed,
        run_bind_of_ok ranBoundary]
      rfl

end Reader
end InstructionSet.Grammar
