import InstructionSet.Proofs.Expansion.Independence
import InstructionSet.Proofs.Fallible

/-!
# Resolved tags cannot be observed

A session is a sequence of calls on one expansion: to build an instruction from a template and what
overrides it, to build a declared instruction, to expand a group. Each call finds the tags resolved
that the calls before it have resolved, also those that failed half way. It answers as if it were
the first one all the same (`Expansion.run_session`).

For a description this means that its directives are expanded each by itself. When all of them can
be expanded, the instructions of the table are those of the directives, one part after the other;
when one cannot, the first such directive decides, and its fault is the whole report
(`Table.expand_eq_error_iff`).
-/

namespace InstructionSet

set_option autoImplicit false

open Fallible

namespace Expansion

variable {catalog : Catalog} {enums : Registry} {ε α β γ : Type}

/-! ## Sessions -/

/-- What can be asked of an expansion. -/
inductive Call where
  /-- To build the instruction of a template with overrides and a layout. -/
  | build (overrides template : PartialHeader) (layout : Layout)
  /-- To build a declared instruction. -/
  | instruction (form : InstructionForm)
  /-- To expand a group. -/
  | group (form : GroupForm)

/-- What a call comes to. -/
inductive Answer where
  /-- An instruction, or what keeps it from being built. -/
  | built (result : Except BuildError Instruction)
  /-- A declared instruction, or its fault. -/
  | declared (result : Except BuildFault Declared)
  /-- The members of a group, or the fault of one of them. -/
  | expanded (result : Except BuildFault (List Declared))

/-- Answers a call with the tags that are resolved so far, and keeps those that it resolves. -/
def answer (catalog : Catalog) (enums : Registry) : Call → StateM ResolvedTags Answer
  | .build overrides template layout =>
      .built <$> (build catalog enums (overrides.«over» template) layout).run
  | .instruction form => .declared <$> (instruction catalog enums form).run
  | .group form => .expanded <$> (group catalog enums form).run

/-- Answers calls one after the other, whether they fail or not. -/
def session (catalog : Catalog) (enums : Registry) (calls : List Call) :
    StateM ResolvedTags (List Answer) :=
  calls.mapM (answer catalog enums)

/-- The answer to a call when no tag is resolved. -/
def answerAlone (catalog : Catalog) (enums : Registry) (call : Call) : Answer :=
  ((answer catalog enums call).run .empty).1

/-- The result does not depend on which coherent tags a computation starts with, and it leaves
coherent tags behind. -/
def Settles (catalog : Catalog) (enums : Registry) (computation : StateM ResolvedTags α)
    (result : α) : Prop :=
  ∀ ⦃resolved : ResolvedTags⦄, Coherent catalog enums resolved →
    ∃ after, computation.run resolved = (result, after) ∧ Coherent catalog enums after

theorem Settles.alone {computation : StateM ResolvedTags α} {result : α}
    (settles : Settles catalog enums computation result) :
    (computation.run .empty).1 = result := by
  obtain ⟨after, ran, -⟩ := settles coherent_empty
  rw [ran]

theorem Settles.map {computation : StateM ResolvedTags α} {result : α}
    (settles : Settles catalog enums computation result) (f : α → β) :
    Settles catalog enums (f <$> computation) (f result) := by
  intro resolved coherent
  obtain ⟨after, ran, kept⟩ := settles coherent
  refine ⟨after, ?_, kept⟩
  rw [StateT.run_map, ran]
  rfl

/-- Computations that settle each by themselves settle one after the other. -/
theorem settles_mapM {step : γ → StateM ResolvedTags α} {result : γ → α}
    (each : ∀ value, Settles catalog enums (step value) (result value)) (values : List γ) :
    Settles catalog enums (values.mapM step) (values.map result) := by
  induction values with
  | nil => exact fun resolved coherent => ⟨resolved, rfl, coherent⟩
  | cons value rest ih =>
      intro resolved coherent
      obtain ⟨middle, first, kept⟩ := each value coherent
      obtain ⟨after, later, still⟩ := ih kept
      refine ⟨after, ?_, still⟩
      rw [List.mapM_cons, StateT.run_bind, first]
      show StateT.run (rest.mapM step >>= _) middle = _
      rw [StateT.run_bind, later]
      rfl

/-- What a computation comes to is its outcome. -/
theorem comesTo_outcome {computation : Expansion ε α} {result : Except ε α}
    (comes : ComesTo catalog enums computation result) :
    ComesTo catalog enums computation computation.outcome := by
  rw [comes.outcome]
  exact comes

theorem comesTo_group (form : GroupForm) :
    ComesTo catalog enums (group catalog enums form)
      (form.instructions.mapM (InstructionForm.declare catalog enums)) := by
  rw [group_eq_mapM]
  exact comesTo_mapM comesTo_instruction _

theorem comesTo_directive (directive : Directive) :
    ComesTo catalog enums (Expansion.directive catalog enums directive)
      (directive.instructions.mapM (InstructionForm.declare catalog enums)) := by
  rw [directive_eq_mapM]
  exact comesTo_mapM comesTo_instruction _

theorem settles_answer (call : Call) :
    Settles catalog enums (answer catalog enums call) (answerAlone catalog enums call) := by
  -- What a call comes to with coherent tags is what it comes to with none.
  have settles : ∃ found, Settles catalog enums (answer catalog enums call) found := by
    cases call with
    | build overrides template layout => exact ⟨_, Settles.map (comesTo_build _ layout) _⟩
    | instruction form => exact ⟨_, Settles.map (comesTo_instruction form) _⟩
    | group form => exact ⟨_, Settles.map (comesTo_group form) _⟩
  obtain ⟨found, settled⟩ := settles
  rw [answerAlone, settled.alone]
  exact settled

/-- In a session every call is answered as it is when no tag is resolved. -/
theorem run_session (calls : List Call) :
    ((session catalog enums calls).run .empty).1 = calls.map (answerAlone catalog enums) :=
  (settles_mapM settles_answer calls).alone

/-- The attempts at the instructions and groups of a description are independent of each other. -/
theorem attempts_eq_map (directives : List Directive) :
    attempts catalog enums directives =
      (directives.filter (·.declaresInstructions)).map
        fun directive => (Expansion.directive catalog enums directive).outcome := by
  have settles := fun directive : Directive =>
    comesTo_outcome (@comesTo_directive catalog enums directive)
  rw [attempts, each, List.mapM_map]
  exact (settles_mapM settles _).alone

/-! ## Directives -/

/-- The parts are what the directives are expanded to, each by itself. -/
def Parts (catalog : Catalog) (enums : Registry) (directives : List Directive)
    (parts : List (List Declared)) : Prop :=
  List.Forall₂
    (fun directive part => (Expansion.directive catalog enums directive).outcome = .ok part)
    directives parts

/-- The fault is that of the first directive that cannot be expanded by itself. -/
def FirstFault (catalog : Catalog) (enums : Registry) (directives : List Directive)
    (fault : BuildFault) : Prop :=
  ∃ before directive after, directives = before ++ directive :: after ∧
    (∀ earlier ∈ before, ∃ part, (Expansion.directive catalog enums earlier).outcome = .ok part) ∧
    (Expansion.directive catalog enums directive).outcome = .error fault

theorem outcome_directives_eq_mapM (directives : List Directive) :
    (Expansion.directives catalog enums directives).outcome =
      List.flatten <$> directives.mapM
        fun directive => (Expansion.directive catalog enums directive).outcome := by
  have each := fun directive : Directive =>
    comesTo_outcome (@comesTo_directive catalog enums directive)
  exact ((comesTo_mapM each directives).bind fun parts => comesTo_pure parts.flatten).outcome

theorem outcome_directives_eq_ok_iff {directives : List Directive} {declared : List Declared} :
    (Expansion.directives catalog enums directives).outcome = .ok declared ↔
      ∃ parts, Parts catalog enums directives parts ∧ parts.flatten = declared := by
  rw [outcome_directives_eq_mapM, map_eq_pure_bind, bind_eq_ok_iff]
  simp only [mapM_eq_ok_iff, pure_eq_ok_iff, Parts]

theorem outcome_directives_eq_error_iff {directives : List Directive} {fault : BuildFault} :
    (Expansion.directives catalog enums directives).outcome = .error fault ↔
      FirstFault catalog enums directives fault := by
  rw [outcome_directives_eq_mapM, map_eq_pure_bind, bind_eq_error_iff, mapM_eq_error_iff]
  constructor
  · rintro (first | ⟨_, -, impossible⟩)
    · exact first
    · cases impossible
  · exact .inl

end Expansion

/-! ## Tables -/

namespace Table

variable {document : Document} {catalog : Catalog} {enums : Registry}

theorem expand_eq_ok_iff {declared : List Declared} :
    expand document catalog enums = .ok declared ↔
      ∃ parts, Expansion.Parts catalog enums document.directives parts ∧
        parts.flatten = declared := by
  rw [expand, mapError_eq_ok_iff, Expansion.outcome_directives_eq_ok_iff]

theorem expand_eq_error_iff {failure : Failure} :
    expand document catalog enums = .error failure ↔
      ∃ fault, Expansion.FirstFault catalog enums document.directives fault ∧
        fault.failure document.path = failure := by
  rw [expand, mapError_eq_error_iff]
  simp only [Expansion.outcome_directives_eq_error_iff]

/-- Behind accepted lookup tables and enumerations, a table is made of its declared instructions. -/
theorem ofDocument_eq_bind {luts : Constants}
    (tables : Constants.ofTables document.path document.lookupTables = .ok luts)
    (registered : document.registry = .ok enums) :
    ofDocument document catalog = expand document catalog enums >>= fun declared =>
      Validation.check (declared.map (located document.path)) >>= fun warnings =>
        pure ⟨declared.map (·.instruction), enums, luts, warnings⟩ := by
  rw [ofDocument, tables, registered]
  rfl

end Table

/-- **Resolved tags cannot be observed.** In a session every call is answered as it is when no tag
is resolved, whichever of the calls before it have failed. Behind accepted lookup tables and
enumerations a description is therefore expanded directive by directive: when each of them can be
expanded by itself, the parts make up the table; and it is reported as unbuildable exactly for the
fault of the first directive that cannot be expanded by itself. -/
theorem Expansion.session_unobservable (catalog : Catalog) (enums : Registry) :
    (∀ calls, ((session catalog enums calls).run .empty).1 =
      calls.map (answerAlone catalog enums)) ∧
    ∀ (document : Document) (luts : Constants),
      Constants.ofTables document.path document.lookupTables = .ok luts →
      document.registry = .ok enums →
        (∀ parts, Parts catalog enums document.directives parts →
          Table.ofDocument document catalog =
            (fun warnings => ⟨parts.flatten.map (·.instruction), enums, luts, warnings⟩) <$>
              Validation.check (parts.flatten.map (Table.located document.path))) ∧
        (∀ table, Table.ofDocument document catalog = .ok table →
          ∃ parts, Parts catalog enums document.directives parts ∧
            table.instructions = parts.flatten.map (·.instruction)) ∧
        ∀ diagnostics, Table.ofDocument document catalog = .error (.reported .build diagnostics) ↔
          ∃ fault, FirstFault catalog enums document.directives fault ∧
            diagnostics = [fault.diagnostic document.path] := by
  refine ⟨run_session, ?_⟩
  intro document luts tables registered
  rw [Table.ofDocument_eq_bind tables registered]
  refine ⟨?_, ?_, ?_⟩
  · intro parts each
    rw [Table.expand_eq_ok_iff.2 ⟨parts, each, rfl⟩, map_eq_pure_bind]
    rfl
  · intro table accepts
    obtain ⟨declared, expanded, accepts⟩ := bind_eq_ok_iff.1 accepts
    obtain ⟨warnings, -, same⟩ := bind_eq_ok_iff.1 accepts
    obtain ⟨parts, each, rfl⟩ := Table.expand_eq_ok_iff.1 expanded
    cases pure_eq_ok_iff.1 same
    exact ⟨parts, each, rfl⟩
  · intro diagnostics
    rw [bind_eq_error_iff, Table.expand_eq_error_iff]
    constructor
    · rintro (⟨fault, first, same⟩ | ⟨declared, -, refused⟩)
      · cases same
        exact ⟨fault, first, rfl⟩
      · rcases bind_eq_error_iff.1 refused with invalid | ⟨_, -, impossible⟩
        · cases (Phase.accept_eq_error_iff.1 invalid).2
        · cases impossible
    · rintro ⟨fault, first, rfl⟩
      exact .inl ⟨fault, first, rfl⟩

/-- Two calls for instructions with one tag, of which the first fails behind the tag, on a tag that
is not in the catalog. -/
def Expansion.saturatingCalls : List Call :=
  [.instruction ⟨"FADD", { primary := some 1 }, { entries := [.tag "saturate", .tag "round"] },
      .point ⟨1, 1⟩⟩,
    .instruction ⟨"FMUL", { primary := some 2 }, { entries := [.tag "saturate"] }, .point ⟨2, 1⟩⟩]

/-- A description with a group that can be expanded, an instruction that cannot for want of a tag,
and another one that cannot for want of an opcode. -/
def Document.additions : Document where
  path := "add.isa"
  directives := [
    .group ⟨none, { primary := some 1 }, { entries := [.tag "saturate"] },
      [⟨"IADD", {}, .point ⟨1, 9⟩⟩], .point ⟨1, 1⟩⟩,
    .instruction ⟨"FADD", { primary := some 2 }, { entries := [.tag "round"] }, .point ⟨2, 1⟩⟩,
    .instruction ⟨"FMUL", {}, {}, .point ⟨3, 1⟩⟩]

theorem Expansion.session_unobservable_additions :
    ((session .standard .empty saturatingCalls).run .empty).1 =
        saturatingCalls.map (answerAlone .standard .empty) ∧
      ∃ fault, FirstFault .standard .empty Document.additions.directives fault ∧
        Table.ofDocument .additions .standard =
          .error (.reported .build [fault.diagnostic "add.isa"]) := by
  obtain ⟨answers, described⟩ := session_unobservable .standard .empty
  refine ⟨answers saturatingCalls, ?_⟩
  obtain ⟨-, -, reports⟩ := described .additions .empty rfl rfl
  have first : FirstFault .standard .empty Document.additions.directives
      ⟨"FADD", .unknownTag "round" Catalog.standard.names, .point ⟨2, 1⟩⟩ := by
    refine ⟨[_], _, [_], rfl, ?_, rfl⟩
    intro earlier member
    cases List.mem_singleton.1 member
    exact exists_eq_ok (by decide +kernel)
  exact ⟨_, first, (reports _).2 ⟨_, first, rfl⟩⟩

end InstructionSet
