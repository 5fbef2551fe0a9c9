import InstructionSet.Proofs.Grammar.GroupBodies
import InstructionSet.Proofs.Instruction.Built
import InstructionSet.Proofs.Table.Places

/-!
# Interleaved entries

What is built from a layout depends on the sequence of its entries of each kind, not on how these
sequences are interleaved (`Layout.SameSequences`). A count of sources or destinations stands for as
many entries of them without name and attributes, behind all the others (`Layout.spelledOut`). The
order of errors is kept too, since both hold of building as a computation, whatever tags are
resolved before.

In the body of a group the members may stand anywhere among the entries of the layout. Every member
is built with all entries, those in front of it and those behind it.
-/

namespace InstructionSet

set_option autoImplicit false

open InstructionSet.Scanner InstructionSet.Grammar Fallible

/-- Layouts with the same entries of each kind, in the same order, and the same counts. -/
structure Layout.SameSequences (first second : Layout) : Prop where
  /-- The counts of sources without an entry are the same. -/
  plainSources : first.plainSources = second.plainSources
  /-- The counts of destinations without an entry are the same. -/
  plainDests : first.plainDests = second.plainDests
  /-- The sources are the same. -/
  sources : first.sources = second.sources
  /-- The destinations are the same. -/
  dests : first.dests = second.dests
  /-- The staging registers are the same. -/
  staging : first.staging = second.staging
  /-- The immediate operands are the same. -/
  immediates : first.immediates = second.immediates
  /-- The modifiers are the same, be they placed or referred to by tags. -/
  modifiers : first.modifiers = second.modifiers

/-- The layout with an entry for each source and destination that it only counts, behind its own
entries. -/
def Layout.spelledOut (layout : Layout) : Layout where
  entries := layout.entries ++ (List.replicate layout.plainSources.toNat (.source {}) ++
    List.replicate layout.plainDests.toNat (.dest ""))

/-! ## Counted operands -/

theorem Source.resolveFrom_append (width : UInt8) (place : Nat) (forms more : List SourceForm) :
    Source.resolveFrom width place (forms ++ more) = do
      let declared ← Source.resolveFrom width place forms
      let further ← Source.resolveFrom width (place + forms.length) more
      return declared ++ further := by
  simp only [resolveFrom_eq_mapM, List.zipIdx_append, List.mapM_append]

/-- A source without an entry is one whose entry has neither a name nor attributes. -/
theorem Source.plainFrom_eq_resolveFrom (width : UInt8) (place count : Nat) :
    Source.plainFrom width place count =
      Source.resolveFrom width place (List.replicate count {}) := by
  induction count generalizing place with
  | zero => rfl
  | succ count ih =>
      rw [Source.plainFrom, ih, List.replicate_succ, Source.resolveFrom]
      rfl

namespace Layout

variable (layout : Layout)

theorem sources_spelledOut : layout.spelledOut.sources =
    layout.sources ++ List.replicate layout.plainSources.toNat ({} : SourceForm) := by
  simp [sources, spelledOut, LayoutEntry.source?]

theorem dests_spelledOut : layout.spelledOut.dests =
    layout.dests ++ List.replicate layout.plainDests.toNat "" := by
  simp [dests, spelledOut, LayoutEntry.dest?]

/-- Entries that are neither sources nor destinations are those that were there before. -/
theorem filterMap_spelledOut {α : Type} {kind : LayoutEntry → Option α}
    (noSource : kind (.source {}) = none) (noDest : kind (.dest "") = none) :
    layout.spelledOut.entries.filterMap kind = layout.entries.filterMap kind := by
  simp [spelledOut, noSource, noDest]

theorem resolvedSources_spelledOut (width : UInt8) :
    layout.spelledOut.resolvedSources width = layout.resolvedSources width := by
  have none : ∀ place,
      Source.plainFrom width place layout.spelledOut.plainSources.toNat = pure [] := fun _ => rfl
  rw [resolvedSources, resolvedSources, sources_spelledOut, Source.resolveFrom_append,
    ← Source.plainFrom_eq_resolveFrom, Nat.zero_add]
  simp only [none, bind_assoc, pure_bind, List.append_nil]

theorem resolvedDests_spelledOut : layout.spelledOut.resolvedDests = layout.resolvedDests := by
  have none : layout.spelledOut.plainDests.toNat = 0 := rfl
  rw [resolvedDests, resolvedDests, dests_spelledOut, none, List.replicate_zero, List.append_nil]

end Layout

/-! ## Building -/

namespace Expansion

variable {catalog : Catalog} {enums : Registry} {header : PartialHeader}

/-- Building looks at the registers, the destinations, the immediate operands and the modifiers of
a layout, and at nothing else. -/
theorem build_congr {first second : Layout}
    (sources : ∀ width, first.resolvedSources width = second.resolvedSources width)
    (dests : first.resolvedDests = second.resolvedDests) (staging : first.staging = second.staging)
    (immediates : first.immediates = second.immediates)
    (modifiers : first.modifiers = second.modifiers) :
    build catalog enums header first = build catalog enums header second := by
  simp only [build, Layout.registers, Header.assemble, sources, dests, staging, immediates,
    modifiers]

theorem build_of_sameSequences {first second : Layout} (same : first.SameSequences second) :
    build catalog enums header first = build catalog enums header second := by
  refine build_congr (fun width => ?_) ?_ same.staging same.immediates same.modifiers
  · rw [Layout.resolvedSources, Layout.resolvedSources, same.sources, same.plainSources]
  · rw [Layout.resolvedDests, Layout.resolvedDests, same.dests, same.plainDests]

theorem build_spelledOut (layout : Layout) :
    build catalog enums header layout.spelledOut = build catalog enums header layout :=
  build_congr layout.resolvedSources_spelledOut layout.resolvedDests_spelledOut
    (layout.filterMap_spelledOut rfl rfl) (layout.filterMap_spelledOut rfl rfl)
    (layout.filterMap_spelledOut rfl rfl)

/-- The members of a group are built with the entries among the parts of its body. -/
theorem group_of_parts {form : GroupForm} {parts : List BodyPart}
    (entries : form.layout.entries = entriesOf parts) (members : form.members = membersOf parts) :
    group catalog enums form = (membersOf parts).mapM fun member => instruction catalog enums
      ⟨member.name, member.opcodes.orElse form.opcodes,
        { form.layout with entries := entriesOf parts }, member.region⟩ := by
  rw [← entries, ← members]
  rfl

/-- **Only sequences matter.** Layouts with the same counts and the same sequence of entries of each
kind are built into the same instruction or refused with the same error. Counted operands are words
without name and attributes behind all entries. The members of every group of a source are built
with all entries among the parts of its body, and parts with the same entries and members, however
they are mixed, make the same description and the same table, up to places. -/
theorem build_by_sequences (catalog : Catalog) (enums : Registry) (header : PartialHeader) :
    (∀ first second : Layout, first.SameSequences second →
      build catalog enums header first = build catalog enums header second) ∧
    ((∀ layout : Layout,
        build catalog enums header layout.spelledOut = build catalog enums header layout) ∧
      EntryPhrase (.source {}) "src" [] ∧ EntryPhrase (.dest "") "dest" []) ∧
    ∀ path source document, Document.parse path source = .ok document →
      (∀ form, .group form ∈ document.directives →
        ∃ (context : GroupContext) (parts : List BodyPart),
          (scan source).entries = (context.fill parts).map .token ∧
            group catalog enums form =
              (membersOf parts).mapM fun member => instruction catalog enums
                ⟨member.name, member.opcodes.orElse form.opcodes,
                  { form.layout with entries := entriesOf parts }, member.region⟩) ∧
      ∀ (context : GroupContext) (parts others : List BodyPart),
        (scan source).entries = (context.fill parts).map .token → SameParts parts others →
          ∀ text tokens, (scan text).entries = tokens.map .token →
            Alike tokens (context.fill others) →
              ∃ again, Document.parse path text = .ok again ∧
                again.unplaced = document.unplaced ∧
                Parallel Failure.Alike Table.Alike (Table.ofDocument document catalog)
                  (Table.ofDocument again catalog) := by
  refine ⟨fun _ _ => build_of_sameSequences, ⟨build_spelledOut, ?_, ?_⟩, ?_⟩
  · exact .source .unnamed ⟨[], .none, List.nodup_nil, rfl⟩
  · exact .dest .unnamed
  · intro path source document read
    constructor
    · intro form listed
      obtain ⟨context, parts, whole, entries, members⟩ := GroupContext.exists_fill read listed
      exact ⟨context, parts, whole, group_of_parts entries members⟩
    · intro context parts others whole same text tokens entries alike
      obtain ⟨-, refilled⟩ := context.parse_fill whole read
      obtain ⟨again, parsed, unplaced⟩ := refilled others same text tokens entries alike
      exact ⟨again, parsed, unplaced, Table.parallel_ofDocument unplaced.symm catalog⟩

/-- A group whose members stand between its entries. -/
def mixedGroup : String :=
  ":group opcode=1 \x7b ins A src ins B dest \x7d"

/-- The group with its members behind all entries. -/
def sortedGroup : String :=
  ":group opcode=1 \x7b src; dest; ins A ins B \x7d"

/-- A word at a column of the first line. -/
def wordAt (word : String) (column : Nat) : Token :=
  ⟨.identifier, word, ⟨1, column⟩⟩

/-- The member with a name and nothing else. -/
def bareMember (name : String) (column : Nat) : BodyPart :=
  .member (wordAt "ins" column) [wordAt name (column + 4)]
    ⟨name, {}, regionOver (wordAt name (column + 4)) []⟩ rfl rfl
    (.member (wordAt name (column + 4)) (.inl rfl) ⟨[], .none, List.nodup_nil, rfl⟩)

/-- A source with neither name nor attributes. -/
def bareSource (column : Nat) : BodyPart :=
  .entry (wordAt "src" column) [] (.source {}) rfl
    (.source .unnamed ⟨[], .none, List.nodup_nil, rfl⟩)

/-- A destination without a name. -/
def bareDest (column : Nat) : BodyPart :=
  .entry (wordAt "dest" column) [] (.dest "") rfl (.dest .unnamed)

/-- A semicolon between entries. -/
def semicolonAt (column : Nat) : BodyPart :=
  .mark ⟨.semicolon, ";", ⟨1, column⟩⟩ (.inr rfl)

/-- What stands between the braces of the first group. -/
def mixedParts : List BodyPart :=
  [bareMember "A" 19, bareSource 25, bareMember "B" 29, bareDest 35]

/-- What stands between the braces of the second one. -/
def sortedParts : List BodyPart :=
  [bareSource 19, semicolonAt 22, bareDest 24, semicolonAt 28, bareMember "A" 30, bareMember "B" 36]

/-- The header of the groups and the braces of the first one. -/
def mixedContext : GroupContext where
  before := []
  mark := ⟨.colon, ":", ⟨1, 1⟩⟩
  keyword := wordAt "group" 2
  header := [wordAt "opcode" 8, ⟨.equals, "=", ⟨1, 14⟩⟩, ⟨.number, "1", ⟨1, 15⟩⟩]
  opening := ⟨.openBrace, "\x7b", ⟨1, 17⟩⟩
  closing := ⟨.closeBrace, "\x7d", ⟨1, 40⟩⟩
  after := []
  isMark := rfl
  isKeyword := rfl
  isGroup := rfl
  plain := plain_cons (by decide) (plain_cons (by decide) (plain_cons (by decide) plain_nil))
  isOpen := rfl
  isClose := rfl

/-- The header of the groups and the braces of the second one. -/
def sortedContext : GroupContext :=
  { mixedContext with closing := ⟨.closeBrace, "\x7d", ⟨1, 42⟩⟩, isClose := rfl }

theorem build_by_sequences_mixedGroup :
    build .empty .empty ⟨some "A", ⟨some 1, none⟩⟩ ⟨1, 0, [.source {}, .dest ""]⟩ =
      build .empty .empty ⟨some "A", ⟨some 1, none⟩⟩ ⟨1, 0, [.dest "", .source {}]⟩ ∧
    ∃ document again, Document.parse "" mixedGroup = .ok document ∧
      Document.parse "" sortedGroup = .ok again ∧
        Parallel Failure.Alike Table.Alike (Table.ofDocument document .empty)
          (Table.ofDocument again .empty) := by
  obtain ⟨interleaved, -, bodies⟩ :=
    build_by_sequences .empty .empty ⟨some "A", ⟨some 1, none⟩⟩
  refine ⟨interleaved _ _ ⟨rfl, rfl, rfl, rfl, rfl, rfl, rfl⟩, ?_⟩
  obtain ⟨document, read⟩ : ∃ document, Document.parse "" mixedGroup = .ok document :=
    exists_eq_ok (by decide +kernel)
  have whole : (scan mixedGroup).entries = (mixedContext.fill mixedParts).map .token := by
    decide +kernel
  have entries : (scan sortedGroup).entries = (sortedContext.fill sortedParts).map .token := by
    decide +kernel
  obtain ⟨again, parsed, -, tables⟩ := (bodies "" mixedGroup document read).2 mixedContext
    mixedParts sortedParts whole ⟨rfl, rfl⟩ sortedGroup (sortedContext.fill sortedParts) entries rfl
  exact ⟨document, again, read, parsed, tables⟩

end Expansion

end InstructionSet
