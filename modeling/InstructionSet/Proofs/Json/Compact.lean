import InstructionSet.Json
import Mathlib.Data.List.TakeWhile

/-!
# The compact form can be read in one way

The compact form of a value is the compact form of no other one (`Json.compact_injective`). More is
true: it ends where the value ends, whatever is written behind it, if only a number is not followed
by a digit (`Json.Legible`). This is what carries over from the parts of a list or an object to the
whole, since a part is followed by a comma or by the closing bracket.

The first character tells what kind of value it is (`Json.Kind.ofChar`), and between quotation marks
every character is written in a way of its own (`Json.Escaped`).
-/

namespace InstructionSet.Json

set_option autoImplicit false

variable {rest rest' : List Char}

/-! ## Numbers -/

/-- The text does not go on with a digit. -/
def Ends (rest : List Char) : Prop :=
  ∀ c ∈ rest.head?, c.isDigit = false

/-- The text of a value can be read in one way in front of what does not go on with a digit. -/
def Legible {α : Type} (render : α → List Char) (value : α) : Prop :=
  ∀ other rest rest', Ends rest → Ends rest' → render value ++ rest = render other ++ rest' →
    value = other ∧ rest = rest'

theorem ends_nil : Ends [] := by
  rintro _ ⟨⟩

theorem ends_cons {c : Char} (noDigit : c.isDigit = false) : Ends (c :: rest) := by
  rintro _ ⟨⟩
  exact noDigit

theorem isDigit_of_mem_digits {value : Nat} {c : Char} (member : c ∈ digits value) :
    c.isDigit = true :=
  Nat.isDigit_of_mem_toDigits (by decide) (by decide) member

theorem takeWhile_digits (value : Nat) (ends : Ends rest) :
    (digits value ++ rest).takeWhile (·.isDigit) = digits value := by
  rw [List.takeWhile_append_of_pos fun _ => isDigit_of_mem_digits]
  cases rest with
  | nil => exact List.append_nil _
  | cons c rest =>
      have noDigit : c.isDigit = false := ends c rfl
      rw [List.takeWhile_cons_of_neg (by simp [noDigit]), List.append_nil]

theorem digits_append_inj {value other : Nat} (ends : Ends rest) (ends' : Ends rest')
    (same : digits value ++ rest = digits other ++ rest') : value = other ∧ rest = rest' := by
  have front : digits value = digits other := by
    rw [← takeWhile_digits value ends, same, takeWhile_digits other ends']
  refine ⟨?_, List.append_cancel_left (front ▸ same)⟩
  rw [← Nat.ofDigitChars_ten_toDigits (n := value), ← Nat.ofDigitChars_ten_toDigits (n := other)]
  exact congrArg (Nat.ofDigitChars 10 · 0) front

/-! ## Texts -/

/-- The characters with an escape of one letter, and their letters. -/
def letters : List (Char × Char) :=
  [ ('"', '"'), ('\\', '\\'), ('\x08', 'b'), ('\x0c', 'f'), ('\n', 'n'), ('\r', 'r'),
    ('\t', 't') ]

/-- The ways to write a character between quotation marks. -/
inductive Escaped (c : Char) : List Char → Prop where
  | letter {letter : Char} (listed : (c, letter) ∈ letters) : Escaped c ['\\', letter]
  | code (control : c < ' ') : Escaped c (escapeCode c)
  | plain (notQuote : c ≠ '"') (notBackslash : c ≠ '\\') : Escaped c [c]

theorem escaped_escape (c : Char) : Escaped c (escape c) := by
  unfold escape
  -- The first seven characters have letters.
  iterate 7
    split
    next same => exact .letter (by subst same; decide)
  split
  next control => exact .code control
  next notQuote notBackslash _ _ _ _ _ _ => exact .plain notQuote notBackslash

/-- Each of the sixteen hexadecimal digits is the digit of one number. -/
theorem digitChar_inj {value other : Nat} (small : value < 16) (small' : other < 16)
    (same : Nat.digitChar value = Nat.digitChar other) : value = other := by
  have all : ∀ value < 16, ∀ other < 16, value.digitChar = other.digitChar → value = other := by
    decide
  exact all value small other small' same

theorem escapeCode_inj {c d : Char} (control : c < ' ') (control' : d < ' ')
    (same : escapeCode c = escapeCode d) : c = d := by
  have below : c.toNat < 32 := control
  have below' : d.toNat < 32 := control'
  simp only [escapeCode, List.cons.injEq, and_true, true_and] at same
  have high := digitChar_inj (by omega) (by omega) same.1
  have low := digitChar_inj (by omega) (by omega) same.2
  exact Char.toNat_inj.1 (by omega)

/-- What is written for a character ends by itself, and is written for no other character. -/
theorem Escaped.append_inj {c d : Char} {text text' : List Char} (escaped : Escaped c text)
    (escaped' : Escaped d text') (same : text ++ rest = text' ++ rest') :
    c = d ∧ rest = rest' := by
  have unique : ∀ pair ∈ letters, ∀ pair' ∈ letters, pair.2 = pair'.2 → pair.1 = pair'.1 := by
    decide
  have noCode : ∀ pair ∈ letters, pair.2 ≠ 'u' := by decide
  cases escaped with
  | letter listed =>
      cases escaped' with
      | letter listed' =>
          obtain ⟨letter, rest⟩ := List.cons.inj (List.cons.inj same).2
          exact ⟨unique _ listed _ listed' letter, rest⟩
      | code => exact absurd (List.cons.inj (List.cons.inj same).2).1 (noCode _ listed)
      | plain _ notBackslash => exact absurd (List.cons.inj same).1.symm notBackslash
  | code control =>
      cases escaped' with
      | letter listed' =>
          exact absurd (List.cons.inj (List.cons.inj same).2).1.symm (noCode _ listed')
      | code control' =>
          obtain ⟨code, rest⟩ := List.append_inj same rfl
          exact ⟨escapeCode_inj control control' code, rest⟩
      | plain _ notBackslash => exact absurd (List.cons.inj same).1.symm notBackslash
  | plain notQuote notBackslash =>
      cases escaped' with
      | letter => exact absurd (List.cons.inj same).1 notBackslash
      | code => exact absurd (List.cons.inj same).1 notBackslash
      | plain => exact List.cons.inj same

/-- What is written for a character does not start with a quotation mark. -/
theorem Escaped.head_ne_quote {c : Char} {text : List Char} (escaped : Escaped c text) :
    text ++ rest ≠ '"' :: rest' := by
  cases escaped with
  | letter | code => exact fun same => absurd (List.cons.inj same).1 (by decide)
  | plain notQuote => exact fun same => notQuote (List.cons.inj same).1

theorem escapes_append_inj {characters others : List Char}
    (same : characters.flatMap escape ++ '"' :: rest = others.flatMap escape ++ '"' :: rest') :
    characters = others ∧ rest = rest' := by
  induction characters generalizing others with
  | nil =>
      cases others with
      | nil => exact ⟨rfl, (List.cons.inj same).2⟩
      | cons d others =>
          rw [List.flatMap_cons, List.append_assoc] at same
          exact absurd same.symm (escaped_escape d).head_ne_quote
  | cons c characters ih =>
      rw [List.flatMap_cons, List.append_assoc] at same
      cases others with
      | nil => exact absurd same (escaped_escape c).head_ne_quote
      | cons d others =>
          rw [List.flatMap_cons, List.append_assoc] at same
          obtain ⟨rfl, remaining⟩ := (escaped_escape c).append_inj (escaped_escape d) same
          obtain ⟨rfl, behind⟩ := ih remaining
          exact ⟨rfl, behind⟩

theorem quote_append_inj {value other : String}
    (same : quote value ++ rest = quote other ++ rest') : value = other ∧ rest = rest' := by
  simp only [quote, List.cons_append, List.append_assoc, List.cons.injEq, true_and,
    List.nil_append] at same
  obtain ⟨characters, behind⟩ := escapes_append_inj same
  exact ⟨String.toList_inj.1 characters, behind⟩

/-! ## Lists and objects -/

/-- The texts with commas between them. -/
def joined : List (List Char) → List Char
  | [] => []
  | first :: others => first ++ others.flatMap (',' :: ·)

/-- The text of a member of an object. -/
def memberText (member : String × Json) : List Char :=
  quote member.1 ++ ':' :: compact member.2

theorem compactItems_eq (items : List Json) : compactItems items = joined (items.map compact) := by
  induction items with
  | nil => rw [compactItems, List.map_nil, joined]
  | cons item rest ih =>
      cases rest with
      | nil => simp [compactItems, joined]
      | cons next rest =>
          rw [compactItems, ih]
          · simp [joined]
          · exact List.cons_ne_nil _ _

theorem compactMembers_eq (members : List (String × Json)) :
    compactMembers members = joined (members.map memberText) := by
  induction members with
  | nil => rw [compactMembers, List.map_nil, joined]
  | cons member rest ih =>
      obtain ⟨name, value⟩ := member
      cases rest with
      | nil => simp [compactMembers, joined, memberText]
      | cons next rest =>
          rw [compactMembers, ih]
          · simp [joined, memberText]
          · exact List.cons_ne_nil _ _

section Joined

variable {α : Type} {render : α → List Char} {close : Char} {values others : List α}

theorem ends_commas (noDigit : close.isDigit = false) (texts : List (List Char)) :
    Ends (texts.flatMap (',' :: ·) ++ close :: rest) := by
  cases texts with
  | nil => exact ends_cons noDigit
  | cons => exact ends_cons (by decide)

theorem commas_append_inj (notComma : close ≠ ',') (noDigit : close.isDigit = false)
    (each : ∀ value ∈ values, Legible render value)
    (same : (values.map render).flatMap (',' :: ·) ++ close :: rest =
      (others.map render).flatMap (',' :: ·) ++ close :: rest') :
    values = others ∧ rest = rest' := by
  induction values generalizing others with
  | nil =>
      cases others with
      | nil => exact ⟨rfl, (List.cons.inj same).2⟩
      | cons => exact absurd (List.cons.inj same).1 notComma
  | cons value values ih =>
      cases others with
      | nil => exact absurd (List.cons.inj same).1.symm notComma
      | cons other others =>
          simp only [List.map_cons, List.flatMap_cons, List.cons_append, List.append_assoc,
            List.cons.injEq, true_and] at same
          obtain ⟨first, remaining⟩ := each value List.mem_cons_self other _ _
            (ends_commas noDigit _) (ends_commas noDigit _) same
          obtain ⟨later, behind⟩ := ih (fun one member => each one (.tail _ member)) remaining
          exact ⟨congrArg₂ _ first later, behind⟩

/-- Values with commas between them can be read in one way in front of a closing bracket, when each
of them can and none starts with the bracket. -/
theorem joined_append_inj (notComma : close ≠ ',') (noDigit : close.isDigit = false)
    (starts : ∀ value rest rest', render value ++ rest ≠ close :: rest')
    (each : ∀ value ∈ values, Legible render value)
    (same : joined (values.map render) ++ close :: rest =
      joined (others.map render) ++ close :: rest') : values = others ∧ rest = rest' := by
  cases values with
  | nil =>
      cases others with
      | nil => exact ⟨rfl, (List.cons.inj same).2⟩
      | cons other others =>
          rw [List.map_cons, joined, List.append_assoc] at same
          exact absurd same.symm (starts other _ _)
  | cons value values =>
      rw [List.map_cons, joined, List.append_assoc] at same
      cases others with
      | nil => exact absurd same (starts value _ _)
      | cons other others =>
          rw [List.map_cons, joined, List.append_assoc] at same
          obtain ⟨first, remaining⟩ := each value List.mem_cons_self other _ _
            (ends_commas noDigit _) (ends_commas noDigit _) same
          obtain ⟨later, behind⟩ := commas_append_inj notComma noDigit
            (fun one member => each one (.tail _ member)) remaining
          exact ⟨congrArg₂ _ first later, behind⟩

end Joined

/-! ## Values -/

/-- The kinds of values. -/
inductive Kind where
  /-- The absent value. -/
  | null
  /-- A truth value. -/
  | boolean
  /-- A number. -/
  | number
  /-- A text. -/
  | text
  /-- A list. -/
  | list
  /-- An object. -/
  | object

/-- The kind of a value. -/
def kind : Json → Kind
  | .null => .null
  | .boolean _ => .boolean
  | .number _ => .number
  | .text _ => .text
  | .list _ => .list
  | .object _ => .object

/-- The kind of the values that start with a character. -/
def Kind.ofChar (c : Char) : Option Kind :=
  if c.isDigit then some .number
  else if c = 'n' then some .null
  else if c = 't' ∨ c = 'f' then some .boolean
  else if c = '"' then some .text
  else if c = '[' then some .list
  else if c = '\x7b' then some .object
  else none

/-- The first character of the compact form tells the kind of the value. -/
theorem compact_eq_cons (value : Json) :
    ∃ c text, compact value = c :: text ∧ Kind.ofChar c = some value.kind := by
  cases value with
  | null => exact ⟨'n', _, by rw [compact]; rfl, rfl⟩
  | boolean value => cases value <;> exact ⟨_, _, by rw [compact]; rfl, rfl⟩
  | number value =>
      cases written : digits value with
      | nil => exact absurd written Nat.toDigits_ne_nil
      | cons c text =>
          have digit : c.isDigit = true := isDigit_of_mem_digits (written ▸ List.mem_cons_self)
          exact ⟨c, text, by rw [compact, written], by rw [Kind.ofChar, if_pos digit]; rfl⟩
  | text value => exact ⟨'"', _, by rw [compact]; rfl, rfl⟩
  | list items => exact ⟨'[', _, by rw [compact]; rfl, rfl⟩
  | object members => exact ⟨'\x7b', _, by rw [compact]; rfl, rfl⟩

theorem kind_of_compact {value other : Json}
    (same : compact value ++ rest = compact other ++ rest') : value.kind = other.kind := by
  obtain ⟨c, text, written, kind⟩ := compact_eq_cons value
  obtain ⟨d, text', written', kind'⟩ := compact_eq_cons other
  rw [written, written'] at same
  obtain rfl : c = d := (List.cons.inj same).1
  exact Option.some.inj (kind.symm.trans kind')

theorem compact_ne_close (value : Json) (rest rest' : List Char) :
    compact value ++ rest ≠ ']' :: rest' := by
  obtain ⟨c, text, written, kind⟩ := compact_eq_cons value
  rw [written]
  intro same
  obtain rfl : c = ']' := (List.cons.inj same).1
  cases kind

theorem legible_memberText {member : String × Json} (legible : Legible compact member.2) :
    Legible memberText member := by
  intro other rest rest' ends ends' same
  obtain ⟨name, value⟩ := member
  obtain ⟨name', value'⟩ := other
  simp only [memberText, List.append_assoc, List.cons_append] at same
  obtain ⟨rfl, remaining⟩ := quote_append_inj same
  obtain ⟨rfl, behind⟩ := legible value' rest rest' ends ends' (List.cons.inj remaining).2
  exact ⟨rfl, behind⟩

/-- Induction over values, with hypotheses about all items and members. -/
theorem induction_parts {motive : Json → Prop} (null : motive .null)
    (boolean : ∀ value, motive (.boolean value)) (number : ∀ value, motive (.number value))
    (text : ∀ value, motive (.text value))
    (list : ∀ items, (∀ item ∈ items, motive item) → motive (.list items))
    (object : ∀ members, (∀ member ∈ members, motive member.2) → motive (.object members)) :
    ∀ value, motive value
  | .null => null
  | .boolean value => boolean value
  | .number value => number value
  | .text value => text value
  | .list items =>
      list items fun item _listed => induction_parts null boolean number text list object item
  | .object members =>
      object members fun member _listed =>
        induction_parts null boolean number text list object member.2
termination_by value => sizeOf value
decreasing_by
  · have smaller := List.sizeOf_lt_of_mem _listed
    simp only [Json.list.sizeOf_spec]
    omega
  · have smaller := List.sizeOf_lt_of_mem _listed
    have part : sizeOf member.2 < sizeOf member := by
      cases member
      simp only [Prod.mk.sizeOf_spec]
      omega
    simp only [Json.object.sizeOf_spec]
    omega

/-- The compact form of every value can be read in one way. -/
theorem legible_compact (value : Json) : Legible compact value := by
  induction value using induction_parts with
  | null =>
      intro other rest rest' _ _ same
      cases other with
      | null => exact ⟨rfl, List.append_cancel_left same⟩
      | _ => cases kind_of_compact same
  | boolean value =>
      intro other rest rest' _ _ same
      cases other with
      | boolean other =>
          simp only [compact] at same
          cases value <;> cases other
          · exact ⟨rfl, List.append_cancel_left same⟩
          · exact absurd (List.cons.inj same).1 (by decide)
          · exact absurd (List.cons.inj same).1 (by decide)
          · exact ⟨rfl, List.append_cancel_left same⟩
      | _ => cases kind_of_compact same
  | number value =>
      intro other rest rest' ends ends' same
      cases other with
      | number other =>
          simp only [compact] at same
          obtain ⟨rfl, behind⟩ := digits_append_inj ends ends' same
          exact ⟨rfl, behind⟩
      | _ => cases kind_of_compact same
  | text value =>
      intro other rest rest' _ _ same
      cases other with
      | text other =>
          simp only [compact] at same
          obtain ⟨rfl, behind⟩ := quote_append_inj same
          exact ⟨rfl, behind⟩
      | _ => cases kind_of_compact same
  | list items ih =>
      intro other rest rest' _ _ same
      cases other with
      | list others =>
          simp only [compact, compactItems_eq, List.append_assoc, List.cons_append,
            List.nil_append, List.cons.injEq, true_and] at same
          obtain ⟨rfl, behind⟩ :=
            joined_append_inj (by decide) (by decide) compact_ne_close ih same
          exact ⟨rfl, behind⟩
      | _ => cases kind_of_compact same
  | object members ih =>
      intro other rest rest' _ _ same
      cases other with
      | object others =>
          simp only [compact, compactMembers_eq, List.append_assoc, List.cons_append,
            List.nil_append, List.cons.injEq, true_and] at same
          have starts : ∀ member rest rest', memberText member ++ rest ≠ '\x7d' :: rest' :=
            fun _ _ _ same => absurd (List.cons.inj same).1 (by decide)
          obtain ⟨rfl, behind⟩ := joined_append_inj (by decide) (by decide) starts
            (fun member listed => legible_memberText (ih member listed)) same
          exact ⟨rfl, behind⟩
      | _ => cases kind_of_compact same

/-- **The compact form identifies the value.** -/
theorem compact_injective : Function.Injective compact := by
  intro value other same
  refine (legible_compact value other [] [] ends_nil ends_nil ?_).1
  rw [same]

end InstructionSet.Json
