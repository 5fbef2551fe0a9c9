import InstructionSet.CommandLine.Response
import InstructionSet.Proofs.Expansion.Independence
import InstructionSet.Proofs.Fallible
import InstructionSet.Proofs.Grammar.Regions

/-!
# Every failure is located

When a source text comes to no table, one phase refuses it with a report of its own. Every
diagnostic of the report is an error and has a span in the file with the given label, which starts
at a real position of the text (`CommandLine.located_of_tableOf`).

Reading reports issues, each in its region. Each step behind it reports regions of declarations: of
lookup tables and enumerations that do not enter, of an instruction that cannot be built, of
instructions that do not pass validation.
-/

namespace InstructionSet

open InstructionSet.Text

set_option autoImplicit false

open Fallible

variable {path : String} {text : List Char}

/-- The diagnostic refuses a description in a span of its source. -/
structure Diagnostic.Located (path : String) (text : List Char) (diagnostic : Diagnostic) :
    Prop where
  /-- It is an error. -/
  severity : diagnostic.severity = .error
  /-- Its span starts at a real position of the source and does not end in front of it. -/
  span : ∃ span, diagnostic.span = some span ∧ span.path = path ∧ span.start.InLine text ∧
    span.start ≤ span.stop

/-- The phase whose report may hold a diagnostic of another one: reading also reports what keeps
characters from being tokens. -/
def Phase.Reports (phase found : Phase) : Prop :=
  found = phase ∨ phase = .parser ∧ found = .lexer

/-- The failure is the report of a phase that refuses a description, each diagnostic located. -/
inductive Failure.Located (path : String) (text : List Char) : Failure → Prop where
  | reported {phase : Phase} {diagnostics : List Diagnostic}
      (refuses : phase = .parser ∨ phase = .build ∨ phase = .validation)
      (nonempty : diagnostics ≠ [])
      (each : ∀ diagnostic ∈ diagnostics,
        diagnostic.Located path text ∧ phase.Reports diagnostic.phase) :
      Located path text (.reported phase diagnostics)

theorem Diagnostic.located_of_span {diagnostic : Diagnostic} {region : Region}
    (severity : diagnostic.severity = .error)
    (span : diagnostic.span = some (region.within path)) (lies : region.Lies text) :
    diagnostic.Located path text :=
  ⟨severity, region.within path, span, rfl, lies.start.inLine, lies.ordered⟩

theorem Diagnostic.located_errorAt {phase : Phase} {code message : String} {region : Region}
    (lies : region.Lies text) : (errorAt phase code message path region).Located path text :=
  located_of_span rfl rfl lies

/-- What a phase does not accept, it reports. -/
theorem Phase.located_of_accept {α : Type} {phase : Phase} {value : α}
    {diagnostics : List Diagnostic} {failure : Failure}
    (refuses : phase = .parser ∨ phase = .build ∨ phase = .validation)
    (failed : phase.accept value diagnostics = .error failure)
    (each : ∀ diagnostic ∈ diagnostics,
      diagnostic.Located path text ∧ phase.Reports diagnostic.phase) :
    failure.Located path text := by
  obtain ⟨nonempty, rfl⟩ := Phase.accept_eq_error_iff.1 failed
  exact .reported refuses nonempty each

/-! ## Reading -/

theorem Grammar.Issue.Placed.located {issue : Issue} (placed : issue.Placed text) :
    (issue.diagnostic path).Located path text ∧
      Phase.parser.Reports (issue.diagnostic path).phase := by
  cases placed with
  | spelling place =>
      exact ⟨Diagnostic.located_errorAt (Region.lies_point place), .inr ⟨rfl, rfl⟩⟩
  | grammar lies => exact ⟨Diagnostic.located_of_span rfl rfl lies, .inl rfl⟩

theorem Document.located_of_parse {source : String} {failure : Failure}
    (failed : parse path source = .error failure) : failure.Located path source.toList := by
  refine Phase.located_of_accept (.inl rfl) failed ?_
  refine List.forall_mem_map.2 fun issue member => Grammar.Issue.Placed.located ?_
  exact Grammar.placed_issues (Grammar.State.orderly_start (endless_scan source))
    (Grammar.State.placed_start (Scanner.placed_scan source)) issue member

/-! ## Lookup tables and enumerations -/

theorem Constants.enterAll_subset (constants : Constants) (tables : List LookupTable) :
    (constants.enterAll tables).2 ⊆ tables := by
  induction tables generalizing constants with
  | nil => exact List.Subset.refl _
  | cons table rest ih =>
      simp only [enterAll]
      split
      · exact List.cons_subset_cons table (ih _)
      · exact List.subset_cons_of_subset table (ih _)

theorem Registry.mem_of_enterAll {registry : Registry} {forms : List EnumerationForm}
    {fault : EnumerationForm × EnumerationError} (member : fault ∈ (registry.enterAll forms).2) :
    fault.1 ∈ forms := by
  induction forms generalizing registry with
  | nil => cases member
  | cons form rest ih =>
      rw [enterAll] at member
      split at member
      next extended entered => exact List.mem_cons_of_mem _ (ih member)
      next error refused =>
        rcases List.mem_cons.1 member with rfl | later
        · exact List.mem_cons_self
        · exact List.mem_cons_of_mem _ (ih later)

section Placed

variable {document : Document} {failure : Failure}

theorem Document.Placed.located_of_tables (placed : document.Placed text)
    (failed : Constants.ofTables document.path document.lookupTables = .error failure) :
    failure.Located document.path text := by
  refine Phase.located_of_accept (.inr (.inl rfl)) failed ?_
  refine List.forall_mem_map.2 fun table member => ?_
  exact ⟨Diagnostic.located_errorAt (placed.lookupTable (Constants.enterAll_subset _ _ member)),
    .inl rfl⟩

theorem Document.Placed.located_of_registry (placed : document.Placed text)
    (failed : document.registry = .error failure) : failure.Located document.path text := by
  refine Phase.located_of_accept (.inr (.inl rfl)) failed ?_
  refine List.forall_mem_map.2 fun fault member => ?_
  exact ⟨Diagnostic.located_errorAt (placed.enumeration (Registry.mem_of_enterAll member)),
    .inl rfl⟩

/-! ## Instructions -/

theorem InstructionForm.declare_eq_error {catalog : Catalog} {enums : Registry}
    {form : InstructionForm} {fault : BuildFault}
    (refused : form.declare catalog enums = .error fault) : fault.region = form.region := by
  unfold declare at refused
  split at refused
  next => cases refused
  next =>
    cases refused
    rfl

theorem Document.Placed.located_of_expand (placed : document.Placed text) {catalog : Catalog}
    {enums : Registry} (failed : Table.expand document catalog enums = .error failure) :
    failure.Located document.path text := by
  rw [Table.expand_eq, mapError_eq_error_iff] at failed
  obtain ⟨fault, refused, rfl⟩ := failed
  obtain ⟨before, form, after, whole, -, refused⟩ := mapM_eq_error_iff.1 refused
  have member : form ∈ document.instructions := by
    rw [whole]
    exact List.mem_append_right _ List.mem_cons_self
  refine .reported (.inr (.inl rfl)) (List.cons_ne_nil _ _) (List.forall_mem_singleton.2 ?_)
  refine ⟨Diagnostic.located_errorAt ?_, .inl rfl⟩
  rw [InstructionForm.declare_eq_error refused]
  exact placed.instruction member

/-- What is expanded has the regions of the declared instructions. -/
theorem Document.Placed.declared (placed : document.Placed text) {catalog : Catalog}
    {enums : Registry} {declared : List Declared}
    (expanded : Table.expand document catalog enums = .ok declared) :
    ∀ one ∈ declared, one.region.Lies text := by
  rw [Table.expand_eq, mapError_eq_ok_iff] at expanded
  intro one member
  obtain ⟨form, listed, declares⟩ := exists_of_mapM_eq_ok expanded member
  rw [(InstructionForm.declare_eq_ok declares).2]
  exact placed.instruction listed

end Placed

/-! ## Validation -/

/-- Every error of validation is at the declaration of one of the instructions. -/
theorem Validation.exists_of_mem_errors {entries : List Located} {diagnostic : Diagnostic}
    (member : diagnostic ∈ errors entries) :
    diagnostic.phase = .validation ∧ diagnostic.severity = .error ∧
      ∃ entry ∈ entries, diagnostic.span = entry.span := by
  rcases List.mem_append.1 member with repeated | stray
  · obtain ⟨name, -, found⟩ := List.mem_filterMap.1 repeated
    unfold duplicate? at found
    split at found
    next first second rest same =>
      cases found
      have among : second ∈ named name entries := by
        rw [same]
        exact List.mem_cons_of_mem _ List.mem_cons_self
      exact ⟨rfl, rfl, second, (List.mem_filter.1 among).1, rfl⟩
    next => cases found
  · obtain ⟨entry, listed, found⟩ := List.mem_filterMap.1 stray
    simp only [outsideMask?] at found
    split at found
    next => cases found
    next =>
      cases found
      exact ⟨rfl, rfl, entry, listed, rfl⟩

theorem Validation.located_of_check {declared : List Declared} {failure : Failure}
    (lie : ∀ one ∈ declared, one.region.Lies text)
    (failed : check (declared.map (Table.located path)) = .error failure) :
    failure.Located path text := by
  refine Phase.located_of_accept (.inr (.inr rfl)) failed fun diagnostic member => ?_
  obtain ⟨phase, severity, entry, listed, span⟩ := exists_of_mem_errors member
  obtain ⟨one, among, rfl⟩ := List.mem_map.1 listed
  exact ⟨Diagnostic.located_of_span severity span (lie one among), .inl phase⟩

/-! ## Tables -/

theorem Document.Placed.located_of_ofDocument {document : Document} {failure : Failure}
    (placed : document.Placed text) {catalog : Catalog}
    (failed : Table.ofDocument document catalog = .error failure) :
    failure.Located document.path text := by
  rcases bind_eq_error_iff.1 failed with tables | ⟨luts, -, failed⟩
  · exact placed.located_of_tables tables
  rcases bind_eq_error_iff.1 failed with registry | ⟨enums, -, failed⟩
  · exact placed.located_of_registry registry
  rcases bind_eq_error_iff.1 failed with unbuilt | ⟨declared, expanded, failed⟩
  · exact placed.located_of_expand unbuilt
  rcases bind_eq_error_iff.1 failed with invalid | ⟨_, -, impossible⟩
  · exact Validation.located_of_check (placed.declared expanded) invalid
  · cases impossible

/-- **Every failure is located**, whatever the source text, its label and the catalog: it is the
report of the phase that refuses the text, with at least one diagnostic, and every diagnostic is an
error of this phase in a span of the text. The report of reading may also hold errors of cutting the
text into tokens. -/
theorem CommandLine.located_of_tableOf {path source : String} {catalog : Catalog}
    {failure : Failure} (failed : tableOf path source catalog = .error failure) :
    failure.Located path source.toList := by
  rcases bind_eq_error_iff.1 failed with unread | ⟨document, read, refused⟩
  · exact Document.located_of_parse unread
  · obtain ⟨rfl, -⟩ := Document.parse_eq_ok_iff.1 read
    exact (Document.placed_of_parse read).located_of_ofDocument refused

/-- A description of two instructions of one name. -/
def CommandLine.repetition : String :=
  ":ins ADD opcode=1\n:group opcode=2 \x7b\n  ins ADD\n\x7d"

theorem CommandLine.located_of_tableOf_repetition :
    ∃ failure, tableOf "add.isa" repetition .standard = .error failure ∧
      failure.Located "add.isa" repetition.toList := by
  cases ran : tableOf "add.isa" repetition .standard with
  | ok table =>
      have fails : (tableOf "add.isa" repetition .standard).toOption.isSome = false := by
        decide +kernel
      rw [ran] at fails
      cases fails
  | error failure => exact ⟨failure, rfl, located_of_tableOf ran⟩

end InstructionSet
