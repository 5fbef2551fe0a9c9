import InstructionSet.Proofs.Text.LowerCase
import InstructionSet.Symbol

/-!
# Canonical names

The canonical form of a name has no capitals and nothing to replace, and it starts with a letter or
an underscore (`isCanonical_canonical`). So when its own canonical form is taken, only the start
matters: a canonical name that starts with a letter stays as it is, and one that starts with an
underscore gets another underscore in front (`canonical_of_starts`, `canonical_of_not_starts`).

Which of the two it is can be seen from the name itself: it is decided by the first character that
is not left out (`LeadsWithLetter`). How a name is spelled beside that, with which joints between
its words and with which punctuation, does not matter to its canonical form (`Respelled`). The main
statement is `canonical_laws`.
-/

namespace InstructionSet.Symbol

open InstructionSet.Text

set_option autoImplicit false

/-! ## Characters that are kept -/

/-- The character neither joins words nor is left out. -/
def Kept (c : Char) : Prop :=
  c ∉ joints ∧ c ∉ punctuation

instance : DecidablePred Kept :=
  fun c => inferInstanceAs (Decidable (c ∉ joints ∧ c ∉ punctuation))

theorem replace_of_kept {c : Char} (kept : Kept c) : replace c = [c] := by
  rw [replace, if_neg kept.1, if_neg kept.2]

theorem replace_of_mem_joints {c : Char} (joins : c ∈ joints) : replace c = ['_'] :=
  if_pos joins

theorem replace_of_mem_punctuation {c : Char} (leftOut : c ∈ punctuation) : replace c = [] := by
  have apart : punctuation.all (· ∉ joints) = true := by decide
  have notJoint : c ∉ joints := of_decide_eq_true (List.all_eq_true.1 apart c leftOut)
  rw [replace, if_neg notJoint, if_pos leftOut]

theorem flatMap_replace_of_kept {text : List Char} (kept : ∀ c ∈ text, Kept c) :
    text.flatMap replace = text := by
  induction text with
  | nil => rfl
  | cons c rest ih =>
      obtain ⟨here, others⟩ := List.forall_mem_cons.1 kept
      rw [List.flatMap_cons, replace_of_kept here, ih others]
      rfl

theorem kept_of_mem_replace {c replaced : Char} (member : replaced ∈ replace c) :
    Kept replaced := by
  unfold replace at member
  split at member
  next => rw [List.mem_singleton.1 member]; decide
  next notJoint =>
    split at member
    next => cases member
    next notLeftOut =>
      rw [List.mem_singleton.1 member]
      exact ⟨notJoint, notLeftOut⟩

/-- All characters that are replaced stand in front of the small letters in the table. -/
theorem kept_of_lt {c : Char} (above : 0x60 < c.toNat) : Kept c := by
  have below : (joints ++ punctuation).all (·.toNat ≤ 0x60) = true := by decide
  have notListed : c ∉ joints ++ punctuation := by
    intro listed
    exact Nat.not_lt.2 (of_decide_eq_true (List.all_eq_true.1 below c listed)) above
  exact ⟨fun joins => notListed (List.mem_append_left _ joins),
    fun leftOut => notListed (List.mem_append_right _ leftOut)⟩

theorem kept_smallSigma (before after : List Char) : Kept (smallSigma before after) := by
  unfold smallSigma
  split
  · decide
  · decide

/-- Lower case makes nothing that would be replaced. -/
theorem kept_of_mem_lowerCaseOf {c lowered : Char} (kept : Kept c)
    (member : lowered ∈ lowerCaseOf c) : Kept lowered := by
  rcases lowerCaseOf_cases c with ⟨same, -, -⟩ | ⟨run, among, small, found, same⟩ | same
  · rw [same, List.mem_singleton] at member
    rwa [member]
  · rw [same, List.mem_singleton] at member
    rw [member]
    refine kept_of_lt ?_
    rw [toNat_small among found]
    exact Nat.lt_of_lt_of_le (bounds_of_mem_capitalRuns run among).1 (le_of_small? found).1
  · rw [same, List.mem_cons, List.mem_singleton] at member
    rcases member with rfl | rfl
    · decide
    · decide

theorem kept_of_mem_lowerCase {text : List Char} (kept : ∀ c ∈ text, Kept c) {lowered : Char}
    (member : lowered ∈ lowerCase text) : Kept lowered := by
  rcases exists_of_mem_lowerCaseAfter member with ⟨front, behind, rfl⟩ | ⟨c, among, lowers⟩
  · exact kept_smallSigma front behind
  · exact kept_of_mem_lowerCaseOf (kept c among) lowers

/-! ## How canonical names start -/

/-- The text starts with a letter. -/
def StartsWithLetter : List Char → Prop
  | [] => False
  | c :: _ => isAlphabetic c = true

theorem anchor_of_starts {text : List Char} (starts : StartsWithLetter text) :
    anchor text = text := by
  cases text with
  | nil => cases starts
  | cons c rest => exact if_pos starts

theorem anchor_of_not_starts {text : List Char} (starts : ¬ StartsWithLetter text) :
    anchor text = '_' :: text := by
  cases text with
  | nil => rfl
  | cons c rest => exact if_neg starts

/-- What is known of a canonical name. -/
structure IsCanonical (text : List Char) : Prop where
  /-- Nothing of it is replaced. -/
  kept : ∀ c ∈ text, Kept c
  /-- Nothing of it is lowered. -/
  settled : ∀ c ∈ text, Settled c
  /-- It starts with a letter or an underscore. -/
  starts : StartsWithLetter text ∨ ∃ rest, text = '_' :: rest

theorem kept_of_mem_anchor {text : List Char} (kept : ∀ c ∈ text, Kept c) :
    ∀ c ∈ anchor text, Kept c := by
  by_cases starts : StartsWithLetter text
  · rwa [anchor_of_starts starts]
  · rw [anchor_of_not_starts starts]
    exact List.forall_mem_cons.2 ⟨by decide, kept⟩

/-- Lower case keeps a letter at the start. -/
theorem startsWithLetter_lowerCase {text : List Char} (starts : StartsWithLetter text) :
    StartsWithLetter (lowerCase text) := by
  cases text with
  | nil => cases starts
  | cons c rest =>
      obtain ⟨first, others, lowered, letter⟩ := exists_lowerCase_cons_of_isAlphabetic starts rest
      rw [lowered]
      exact letter

/-- Lower case keeps an underscore at the start. -/
theorem exists_lowerCase_underscore (text : List Char) :
    ∃ rest, lowerCase ('_' :: text) = '_' :: rest := by
  have underscore : Settled '_' := by decide
  rw [lowerCase, lowerCaseAfter, if_neg underscore.2, underscore.1]
  exact ⟨_, rfl⟩

theorem isCanonical_lowerCase_anchor {text : List Char} (kept : ∀ c ∈ text, Kept c) :
    IsCanonical (lowerCase (anchor text)) where
  kept _ member := kept_of_mem_lowerCase (kept_of_mem_anchor kept) member
  settled _ member := settled_of_mem_lowerCase member
  starts := by
    by_cases starts : StartsWithLetter text
    · rw [anchor_of_starts starts]
      exact .inl (startsWithLetter_lowerCase starts)
    · rw [anchor_of_not_starts starts]
      exact .inr (exists_lowerCase_underscore text)

theorem isCanonical_canonical (name : String) : IsCanonical (canonical name).toList := by
  rw [canonical, String.toList_ofList]
  refine isCanonical_lowerCase_anchor fun c member => ?_
  obtain ⟨original, -, replaces⟩ := List.mem_flatMap.1 member
  exact kept_of_mem_replace replaces

/-! ## Taking the canonical form again -/

section Again

variable {name : String} (isCanonical : IsCanonical name.toList)
include isCanonical

/-- A canonical name that starts with a letter stays as it is. -/
theorem canonical_of_starts (starts : StartsWithLetter name.toList) : canonical name = name := by
  rw [canonical, flatMap_replace_of_kept isCanonical.kept, anchor_of_starts starts,
    lowerCase_of_settled isCanonical.settled, String.ofList_toList]

/-- One that starts with an underscore gets another one. -/
theorem canonical_of_not_starts (starts : ¬ StartsWithLetter name.toList) :
    canonical name = "_" ++ name := by
  have settled : ∀ c ∈ '_' :: name.toList, Settled c :=
    List.forall_mem_cons.2 ⟨by decide, isCanonical.settled⟩
  rw [canonical, flatMap_replace_of_kept isCanonical.kept, anchor_of_not_starts starts,
    lowerCase_of_settled settled, ← List.singleton_append, String.ofList_append,
    String.ofList_toList]

theorem canonical_eq_self_iff : canonical name = name ↔ StartsWithLetter name.toList := by
  constructor
  · intro same
    apply Classical.byContradiction
    intro starts
    rw [canonical_of_not_starts isCanonical starts] at same
    have longer := congrArg (·.toList.length) same
    rw [String.toList_append, List.length_append] at longer
    exact absurd longer (Nat.ne_of_gt (Nat.lt_add_of_pos_left Nat.zero_lt_one))
  · exact canonical_of_starts isCanonical

end Again

/-! ## How the name itself starts -/

/-- The first character of a name that is not left out is a letter. -/
def LeadsWithLetter (name : List Char) : Prop :=
  ∃ c ∈ name.find? (· ∉ punctuation), isAlphabetic c = true

instance : DecidablePred LeadsWithLetter := fun name =>
  decidable_of_iff ((name.find? (· ∉ punctuation)).any isAlphabetic = true) (Option.any_eq_true _ _)

theorem not_isAlphabetic_of_mem_joints {c : Char} (joins : c ∈ joints) :
    isAlphabetic c = false := by
  have none : joints.all (fun c => !isAlphabetic c) = true := by decide +kernel
  simpa using List.all_eq_true.1 none c joins

theorem startsWithLetter_flatMap_replace_iff {text : List Char} :
    StartsWithLetter (text.flatMap replace) ↔ LeadsWithLetter text := by
  induction text with
  | nil => simp [StartsWithLetter, LeadsWithLetter]
  | cons c rest ih =>
      rw [List.flatMap_cons, LeadsWithLetter]
      by_cases leftOut : c ∈ punctuation
      · rw [replace_of_mem_punctuation leftOut, List.nil_append, ih,
          List.find?_cons_of_neg (by simpa using leftOut)]
        exact Iff.rfl
      · rw [List.find?_cons_of_pos (by simpa using leftOut)]
        by_cases joins : c ∈ joints
        · have underscore : isAlphabetic '_' = false := by decide +kernel
          rw [replace_of_mem_joints joins]
          simp [StartsWithLetter, underscore, not_isAlphabetic_of_mem_joints joins]
        · rw [replace_of_kept ⟨joins, leftOut⟩]
          simp [StartsWithLetter]

/-- A canonical name starts with a letter when the name leads with one. -/
theorem startsWithLetter_canonical_iff {name : String} :
    StartsWithLetter (canonical name).toList ↔ LeadsWithLetter name.toList := by
  rw [← startsWithLetter_flatMap_replace_iff, canonical, String.toList_ofList]
  constructor
  · intro starts
    apply Classical.byContradiction
    intro leads
    obtain ⟨rest, same⟩ := exists_lowerCase_underscore (name.toList.flatMap replace)
    have underscore : isAlphabetic '_' = false := by decide +kernel
    rw [anchor_of_not_starts leads, same, StartsWithLetter, underscore] at starts
    cases starts
  · intro leads
    rw [anchor_of_starts leads]
    exact startsWithLetter_lowerCase leads

/-! ## Spellings of one name -/

/-- The second name is another spelling of the first: it may join words in another way, and may have
more punctuation. -/
inductive Respelled : List Char → List Char → Prop where
  /-- Nothing is left to spell. -/
  | nil : Respelled [] []
  /-- A character is kept. -/
  | keep (c : Char) {name other : List Char} (behind : Respelled name other) :
      Respelled (c :: name) (c :: other)
  /-- Words are joined by another character. -/
  | rejoin {joint another : Char} {name other : List Char} (joins : joint ∈ joints)
      (joinsToo : another ∈ joints) (behind : Respelled name other) :
      Respelled (joint :: name) (another :: other)
  /-- A character that is left out is put in. -/
  | punctuate {mark : Char} {name other : List Char} (leftOut : mark ∈ punctuation)
      (behind : Respelled name other) : Respelled name (mark :: other)

/-- All spellings of a name are the same once their characters are replaced. -/
theorem Respelled.flatMap_replace {name other : List Char} (respelled : Respelled name other) :
    other.flatMap replace = name.flatMap replace := by
  induction respelled with
  | nil => rfl
  | keep c _ ih => rw [List.flatMap_cons, List.flatMap_cons, ih]
  | rejoin joins joinsToo _ ih =>
      rw [List.flatMap_cons, List.flatMap_cons, replace_of_mem_joints joins,
        replace_of_mem_joints joinsToo, ih]
  | punctuate leftOut _ ih =>
      rw [List.flatMap_cons, replace_of_mem_punctuation leftOut, List.nil_append, ih]

/-- **The laws of canonical names.** A canonical name is not empty, starts with a letter or an
underscore, and has none of the characters that are replaced. Its own canonical form is the same
again when the first character of the name that is not left out is a letter, and otherwise the same
behind another underscore. All spellings of a name have one canonical form. -/
theorem canonical_laws (name : String) :
    (∃ first rest, (canonical name).toList = first :: rest ∧
      (isAlphabetic first = true ∨ first = '_')) ∧
    (∀ c ∈ joints ++ punctuation, c ∉ (canonical name).toList) ∧
    (LeadsWithLetter name.toList → canonical (canonical name) = canonical name) ∧
    (¬ LeadsWithLetter name.toList → canonical (canonical name) = "_" ++ canonical name) ∧
    ∀ other : String, Respelled name.toList other.toList → canonical other = canonical name := by
  have isCanonical := isCanonical_canonical name
  refine ⟨?_, ?_, ?_, ?_, ?_⟩
  · rcases isCanonical.starts with letter | ⟨rest, underscore⟩
    · cases text : (canonical name).toList with
      | nil => rw [text] at letter; cases letter
      | cons first rest => rw [text] at letter; exact ⟨first, rest, rfl, .inl letter⟩
    · exact ⟨'_', rest, underscore, .inr rfl⟩
  · intro c replaced member
    obtain ⟨notJoint, notLeftOut⟩ := isCanonical.kept c member
    exact (List.mem_append.1 replaced).elim notJoint notLeftOut
  · exact fun leads => canonical_of_starts isCanonical (startsWithLetter_canonical_iff.2 leads)
  · exact fun leads =>
      canonical_of_not_starts isCanonical (mt startsWithLetter_canonical_iff.1 leads)
  · intro other respelled
    rw [canonical, canonical, respelled.flatMap_replace]

/-- Two names, one with a letter in front and one with a digit, and another spelling of the
first. -/
theorem canonical_laws_modes :
    LeadsWithLetter "(Round) mode".toList ∧
      canonical (canonical "(Round) mode") = canonical "(Round) mode" ∧
    ¬ LeadsWithLetter "[3]way".toList ∧
      canonical (canonical "[3]way") = "_" ++ canonical "[3]way" ∧
    canonical "(Round)/mode:" = canonical "(Round) mode" := by
  obtain ⟨-, -, letter, -, spellings⟩ := canonical_laws "(Round) mode"
  obtain ⟨-, -, -, digit, -⟩ := canonical_laws "[3]way"
  have leads : LeadsWithLetter "(Round) mode".toList := by decide +kernel
  have leadsNot : ¬ LeadsWithLetter "[3]way".toList := by decide +kernel
  have mode : Respelled "mode".toList "mode:".toList :=
    .keep 'm' <| .keep 'o' <| .keep 'd' <| .keep 'e' <| .punctuate (by decide) .nil
  have respelled : Respelled "(Round) mode".toList "(Round)/mode:".toList :=
    .keep '(' <| .keep 'R' <| .keep 'o' <| .keep 'u' <| .keep 'n' <| .keep 'd' <| .keep ')' <|
      .rejoin (by decide) (by decide) mode
  exact ⟨leads, letter leads, leadsNot, digit leadsNot, spellings _ respelled⟩

end InstructionSet.Symbol
