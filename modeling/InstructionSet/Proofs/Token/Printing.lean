import InstructionSet.Proofs.Token.Spelling

/-!
# Printing tokens

Tokens are printed with one blank between neighbours: a quoted text between quotation marks, with
its quotation marks, backslashes and newlines escaped, and every other token as its lexeme. Tokens
that are spelled well are scanned back from the printed text, without a fault and with the mark of
the end behind them; and the tokens of every source are spelled well, so printing those of a source
without faults and scanning them again leaves their kinds and lexemes as they are (`scan_print`).
-/

namespace InstructionSet.Scanner

open InstructionSet.Text

set_option autoImplicit false

/-- The text of tokens, with a blank between neighbours. -/
def print (tokens : List Token) : String :=
  String.ofList ([' '].intercalate (tokens.map spelling))

/-- A source is scanned without a fault to tokens of given kinds and lexemes, and then to the mark
of the end. -/
def ScansTo (source : String) (tokens : List Token) : Prop :=
  ∃ found position, (scan source).results = (found ++ [.finish position]).map .token ∧
    Alike found tokens

theorem readsAs_print {tokens : List Token} (spelled : ∀ token ∈ tokens, WellSpelled token) :
    ReadsAs ([' '].intercalate (tokens.map spelling)) tokens := by
  induction tokens with
  | nil => exact readsAs_nil
  | cons token tokens ih =>
      have first := spelled token List.mem_cons_self
      have later := ih fun found member => spelled found (List.mem_cons_of_mem _ member)
      cases tokens with
      | nil =>
          have alone : [' '].intercalate ([token].map spelling) = spelling token ++ [] := rfl
          rw [alone]
          exact readsAs_token first (fun _ => trivial) readsAs_nil
      | cons next tokens =>
          have ends : EndsAt token (' ' :: [' '].intercalate ((next :: tokens).map spelling)) :=
            fun _ => stops_of_blank (by decide)
          have whole : [' '].intercalate ((token :: next :: tokens).map spelling) =
              spelling token ++ ' ' :: [' '].intercalate ((next :: tokens).map spelling) := by
            rw [List.map_cons, List.map_cons, List.intercalate_cons_cons, List.append_assoc]
            rfl
          rw [whole]
          exact readsAs_token first ends (readsAs_blank (by decide) later)

theorem scansTo_print {tokens : List Token} (spelled : ∀ token ∈ tokens, WellSpelled token) :
    ScansTo (print tokens) tokens := by
  obtain ⟨found, entries, alike⟩ := readsAs_print spelled .origin
  refine ⟨found, (scan (print tokens)).finish, ?_, alike⟩
  rw [Stream.results, scan, print, String.toList_ofList, entries, List.map_append]
  rfl

/-- A token among the results of a scan is the mark of the end or one of the entries. -/
theorem mem_entries_of_mem_results {source : String} {token : Token}
    (member : .token token ∈ (scan source).results) (notFinish : token.kind ≠ .finish) :
    .token token ∈ (scan source).entries := by
  rcases List.mem_append.1 member with entry | atEnd
  · exact entry
  · cases List.mem_singleton.1 atEnd
    exact absurd rfl notFinish

/-- **Scanning undoes printing.** Tokens that are spelled well are scanned back from the text in
which they are printed. Every token of a source but the mark of the end is spelled well; so the
tokens of a source without faults are scanned back from their printed text. -/
theorem scan_print :
    (∀ tokens, (∀ token ∈ tokens, WellSpelled token) → ScansTo (print tokens) tokens) ∧
    ∀ source, (∀ token, .token token ∈ (scan source).results → token.kind ≠ .finish →
        WellSpelled token) ∧
      ∀ tokens position, (scan source).results = (tokens ++ [.finish position]).map .token →
        ScansTo (print tokens) tokens := by
  refine ⟨fun tokens => scansTo_print, fun source => ⟨?_, ?_⟩⟩
  · intro token member notFinish
    exact wellSpelled_of_mem_scan (mem_entries_of_mem_results member notFinish)
  · intro tokens position clean
    rw [Stream.results, List.map_append] at clean
    have entries : (scan source).entries = tokens.map .token := List.append_inj_left' clean rfl
    refine scansTo_print fun token member => @wellSpelled_of_mem_scan source token ?_
    rw [entries]
    exact List.mem_map_of_mem member

/-- A directive with numerals of several spellings and a text that needs escapes. -/
def assorted : List Token :=
  [⟨.colon, ":", .origin⟩, ⟨.identifier, "FADD.f32", .origin⟩, ⟨.number, "-0X1_f", .origin⟩,
    ⟨.number, "0b_1", .origin⟩, ⟨.number, "7_", .origin⟩, ⟨.text, "é\"\\\n#", .origin⟩]

theorem scan_print_assorted : (∀ token ∈ assorted, WellSpelled token) ∧
    print assorted = ": FADD.f32 -0X1_f 0b_1 7_ \"é\\\"\\\\\\n#\"" ∧
      ScansTo (print assorted) assorted := by
  have spelled : ∀ token ∈ assorted, WellSpelled token := by
    simp only [assorted, List.forall_mem_cons]
    refine ⟨.punctuation ':' rfl rfl, .identifier rfl (by decide +kernel), ?_, ?_, ?_, .text rfl,
      List.forall_mem_nil _⟩
    · have spells : Numeral.Spells ['0', 'X'] 16 ['1', '_', 'f'] := by decide
      exact .number rfl (.inr rfl) rfl spells
    · have spells : Numeral.Spells ['0', 'b'] 2 ['_', '1'] := by decide
      exact .number rfl (.inl rfl) rfl spells
    · have spells : Numeral.Spells [] 10 ['7', '_'] := by decide
      exact .number rfl (.inl rfl) rfl spells
  exact ⟨spelled, by decide +kernel, scan_print.1 assorted spelled⟩

end InstructionSet.Scanner
