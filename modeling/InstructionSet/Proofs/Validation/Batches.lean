import InstructionSet.Proofs.Validation.Errors
import InstructionSet.Validator

/-!
# Batches are validated one by one

What a validator reports is added to what was reported before (`Validator.Reports`), so each of its
steps is said by what it adds: the census adds the errors about repeated names in the order of their
first occurrences, an instruction adds the error about its secondary opcode and then its warnings.
At the end of a batch everything is taken out (`Validator.run_validate`). So nothing is left for the
next batch, and batches come to what each of them comes to by itself (`Validator.answers_eq`),
whether those in front of it were refused or not.
-/

namespace InstructionSet

open InstructionSet.Text

set_option autoImplicit false

/-! ## The census -/

namespace Census

open Validation

variable {census : Census} {before : List Located}

theorem tally_enter (census : Census) (entry : Located) (name : String) :
    (census.enter entry).tally name =
      if name = entry.instruction.name then (census.tally name).again entry.span
      else census.tally name := by
  rw [tally, enter, NameMap.find?_insert]
  split
  next same => rw [same, Option.getD_some]
  next => rfl

/-- The tally of a name with the instructions that have it. -/
def tallyOf (occurrences : List Located) : Tally :=
  ⟨occurrences.length, occurrences[1]?.bind (·.span)⟩

theorem again_tallyOf (occurrences : List Located) (entry : Located) :
    (tallyOf occurrences).again entry.span = tallyOf (occurrences ++ [entry]) := by
  cases occurrences with
  | nil => rfl
  | cons first rest =>
      cases rest with
      | nil => rfl
      | cons second rest => simp [Tally.again, tallyOf]

/-- A census of instructions knows how often each name occurs among them, where it does so for the
second time, and in which order names first occur. -/
structure Counts (census : Census) (before : List Located) : Prop where
  /-- The names come in the order of their first occurrences. -/
  order : census.order = firstBy id (before.map (·.instruction.name))
  /-- A name has a tally when it occurs. -/
  known : ∀ name, census.tallies.contains name = true ↔ name ∈ before.map (·.instruction.name)
  /-- The tally of a name is that of the instructions that have it. -/
  tally : ∀ name, census.tally name = tallyOf (named name before)

theorem counts_empty : Counts {} [] where
  order := rfl
  known name := by simp [NameMap.contains, NameMap.find?, NameMap.empty]
  tally _ := rfl

theorem Counts.enter (counts : Counts census before) (entry : Located) :
    Counts (census.enter entry) (before ++ [entry]) where
  order := by
    rw [List.map_append, List.map_singleton, firstBy_concat_id, ← counts.order]
    simp only [Census.enter, counts.known]
  known name := by
    rw [Census.enter, NameMap.contains, NameMap.find?_insert, List.map_append, List.mem_append,
      List.map_singleton, List.mem_singleton, ← counts.known, NameMap.contains]
    split
    next same => simp [same]
    next other => simp [other]
  tally name := by
    rw [tally_enter, named, List.filter_append, ← named, counts.tally]
    split
    next same => simp [same, again_tallyOf]
    next other => simp [Ne.symm other]

theorem Counts.foldl_enter (counts : Counts census before) (entries : List Located) :
    Counts (entries.foldl Census.enter census) (before ++ entries) := by
  induction entries generalizing census before with
  | nil => rwa [List.append_nil]
  | cons entry rest ih =>
      rw [List.foldl_cons, ← List.singleton_append, ← List.append_assoc]
      exact ih (counts.enter entry)

theorem counts_ofEntries (entries : List Located) : Counts (ofEntries entries) entries :=
  counts_empty.foldl_enter entries

end Census

/-! ## What a computation reports -/

/-- A computation comes to a result, and adds reports to those that were there before. -/
def Validator.Reports {α : Type} (computation : Validator α) (result : α)
    (found : List Diagnostic) : Prop :=
  ∀ pending, computation.run pending = (result, pending ++ found)

namespace Validator

open Validation

variable {α β : Type}

theorem reports_pure (result : α) : (pure result : Validator α).Reports result [] :=
  fun pending => congrArg (result, ·) (List.append_nil pending).symm

theorem Reports.bind {computation : Validator α} {next : α → Validator β} {result : α} {last : β}
    {found more : List Diagnostic} (first : computation.Reports result found)
    (later : (next result).Reports last more) :
    (computation >>= next).Reports last (found ++ more) := by
  intro pending
  rw [StateT.run_bind, first, ← List.append_assoc]
  exact later (pending ++ found)

theorem reports_report (violation : Violation) (span : Option Span) :
    (report violation span).Reports () [violation.diagnostic span] :=
  fun _ => rfl

/-- Steps that each report at most one thing report these in order. -/
theorem reports_forM {step : α → Validator Unit} {found? : α → Option Diagnostic} {values : List α}
    (each : ∀ value ∈ values, (step value).Reports () (found? value).toList) :
    Reports (forM values step) () (values.filterMap found?) := by
  rw [List.filterMap_eq_flatMap_toList]
  induction values with
  | nil => exact reports_pure ()
  | cons value rest ih =>
      obtain ⟨first, later⟩ := List.forall_mem_cons.1 each
      rw [List.flatMap_cons, List.forM_cons]
      exact first.bind (ih later)

/-! ## Repeated names -/

theorem reports_checkName (entries : List Located) {name : String}
    (occurs : name ∈ entries.map (·.instruction.name)) :
    (checkName (Census.ofEntries entries) name).Reports () (duplicate? entries name).toList := by
  have tally := (Census.counts_ofEntries entries).tally name
  have some : 0 < (named name entries).length := by
    rw [length_named]
    exact List.count_pos_iff.2 occurs
  rw [checkName, tally, duplicate?]
  generalize named name entries = occurrences at some
  cases occurrences with
  | nil => cases some
  | cons first rest =>
      cases rest with
      | nil => exact reports_pure ()
      | cons second rest => exact reports_report _ second.span

theorem reports_checkNames (entries : List Located) :
    (checkNames entries).Reports () (duplicates entries) := by
  rw [checkNames, (Census.counts_ofEntries entries).order]
  refine reports_forM fun name member => ?_
  exact reports_checkName entries (mem_of_mem_firstBy id member)

/-! ## Instructions in turn -/

theorem reports_checkMask (entry : Located) :
    (checkMask entry).Reports () (outsideMask? entry).toList := by
  rw [checkMask, outsideMask?]
  split
  next fits => simpa [fits] using reports_pure ()
  next notFits => simpa [notFits] using reports_report _ entry.span

/-- The values with new keys, each at the first occurrence of its key. -/
def fresh (key : α → String) (known : List String) (values : List α) : List α :=
  (firstBy key values).filter fun value => key value ∉ known

theorem fresh_nil (key : α → String) (values : List α) :
    fresh key [] values = firstBy key values := by
  simp [fresh, List.filter_true]

theorem fresh_cons (key : α → String) (known : List String) (value : α) (rest : List α) :
    fresh key known (value :: rest) = if key value ∈ known then fresh key known rest
      else value :: fresh key (key value :: known) rest := by
  rw [fresh, firstBy, List.filter_cons, List.filter_filter]
  by_cases listed : key value ∈ known
  · have other : ∀ later, (key later ∉ known ∧ key later ≠ key value) ↔ key later ∉ known := by
      intro later
      refine and_iff_left_of_imp fun fresh same => ?_
      exact fresh (same ▸ listed)
    simp only [listed, not_true_eq_false, decide_false, if_true, ← Bool.decide_and, other, fresh,
      Bool.false_eq_true, if_false]
  · have other : ∀ later, (key later ∉ known ∧ key later ≠ key value) ↔
        key later ∉ key value :: known := by
      intro later
      rw [List.mem_cons, not_or, and_comm]
    simp only [listed, not_false_eq_true, decide_true, if_true, ← Bool.decide_and, other, fresh,
      if_false]

theorem fresh_append (key : α → String) {known now : List String} {values : List α}
    (knows : ∀ name, name ∈ now ↔ name ∈ known ∨ name ∈ values.map key) (more : List α) :
    fresh key known (values ++ more) = fresh key known values ++ fresh key now more := by
  have both : ∀ value, (key value ∉ known ∧ key value ∉ values.map key) ↔ key value ∉ now := by
    intro value
    rw [knows, not_or]
  rw [fresh, firstBy_append, List.filter_append, List.filter_filter]
  simp only [fresh, ← Bool.decide_and, both]

/-- The overflowing ones of modifiers of an instruction. -/
def carriedBy (entry : Located) (modifiers : List Modifier) : List Carried :=
  (modifiers.filter overflows).map fun modifier => ⟨modifier, entry⟩

theorem reports_checkCapacity (entry : Located) (warned : List String) (modifiers : List Modifier) :
    ∃ now, (checkCapacity entry warned modifiers).Reports now
        ((fresh (·.modifier.name) warned (carriedBy entry modifiers)).map (·.warning)) ∧
      ∀ name, name ∈ now ↔
        name ∈ warned ∨ name ∈ (carriedBy entry modifiers).map (·.modifier.name) := by
  induction modifiers generalizing warned with
  | nil => exact ⟨warned, reports_pure warned, fun name => by simp [carriedBy]⟩
  | cons modifier rest ih =>
      by_cases wide : overflows modifier = true
      · have carried : carriedBy entry (modifier :: rest) =
            ⟨modifier, entry⟩ :: carriedBy entry rest := by
          rw [carriedBy, List.filter_cons_of_pos wide, List.map_cons]
          rfl
        rw [carried, fresh_cons]
        -- The name is known afterwards in both cases, but only a new one is warned about.
        by_cases listed : modifier.name ∈ warned
        · obtain ⟨now, reports, knows⟩ := ih warned
          refine ⟨now, ?_, fun name => ?_⟩
          · rw [checkCapacity, if_neg fun both => both.2 listed, if_pos listed]
            exact reports
          · have known : name = modifier.name → name ∈ warned := fun same => same ▸ listed
            rw [knows, List.map_cons, List.mem_cons, ← or_assoc, or_iff_left_of_imp known]
        · obtain ⟨now, reports, knows⟩ := ih (modifier.name :: warned)
          refine ⟨now, ?_, fun name => ?_⟩
          · rw [checkCapacity, if_pos ⟨wide, listed⟩, if_neg listed]
            exact (reports_report _ entry.span).bind reports
          · rw [knows, List.map_cons, List.mem_cons, List.mem_cons, or_assoc, or_left_comm]
      · obtain ⟨now, reports, knows⟩ := ih warned
        have carried : carriedBy entry (modifier :: rest) = carriedBy entry rest := by
          rw [carriedBy, List.filter_cons_of_neg wide]
          rfl
        rw [carried]
        refine ⟨now, ?_, knows⟩
        rw [checkCapacity, if_neg fun both => wide both.1]
        exact reports

theorem filters_of_errors {found : List Diagnostic}
    (each : ∀ diagnostic ∈ found, diagnostic.isError = true) :
    found.filter (·.isError) = found ∧
      found.filter (fun diagnostic => !diagnostic.isError) = [] := by
  refine ⟨List.filter_eq_self.2 each, List.filter_eq_nil_iff.2 fun diagnostic member => ?_⟩
  rw [each diagnostic member]
  decide

theorem filters_of_warnings (carried : List Carried) :
    (carried.map (·.warning)).filter (·.isError) = [] ∧
      (carried.map (·.warning)).filter (fun diagnostic => !diagnostic.isError) =
        carried.map (·.warning) := by
  have each : ∀ diagnostic ∈ carried.map (·.warning), diagnostic.isError = false := by
    intro diagnostic member
    obtain ⟨one, -, rfl⟩ := List.mem_map.1 member
    rfl
  refine ⟨List.filter_eq_nil_iff.2 fun diagnostic member => ?_,
    List.filter_eq_self.2 fun diagnostic member => ?_⟩
  · rw [each diagnostic member]
    decide
  · rw [each diagnostic member]
    decide

theorem isError_of_outsideMask? {entry : Located} {diagnostic : Diagnostic}
    (member : diagnostic ∈ (outsideMask? entry).toList) : diagnostic.isError = true := by
  rw [Option.mem_toList, outsideMask?] at member
  split at member
  next => cases member
  next =>
    cases member
    rfl

/-- The errors and the warnings about instructions come mixed, each kind in order. -/
theorem reports_checkEach (warned : List String) (entries : List Located) :
    ∃ found, (checkEach warned entries).Reports () found ∧
      found.filter (·.isError) = entries.filterMap outsideMask? ∧
      found.filter (fun diagnostic => !diagnostic.isError) =
        (fresh (·.modifier.name) warned (overflowing entries)).map (·.warning) := by
  induction entries generalizing warned with
  | nil => exact ⟨[], reports_pure (), rfl, rfl⟩
  | cons entry rest ih =>
      obtain ⟨now, warns, knows⟩ := reports_checkCapacity entry warned entry.instruction.modifiers
      obtain ⟨found, reports, errors, warnings⟩ := ih now
      obtain ⟨allErrors, noWarnings⟩ := filters_of_errors fun diagnostic =>
        @isError_of_outsideMask? entry diagnostic
      obtain ⟨noErrors, allWarnings⟩ := filters_of_warnings
        (fresh (·.modifier.name) warned (carriedBy entry entry.instruction.modifiers))
      have whole : overflowing (entry :: rest) =
          carriedBy entry entry.instruction.modifiers ++ overflowing rest := rfl
      refine ⟨_, (reports_checkMask entry).bind (warns.bind reports), ?_, ?_⟩
      · rw [List.filter_append, List.filter_append, errors, allErrors, noErrors, List.nil_append,
          List.filterMap_eq_flatMap_toList, List.filterMap_eq_flatMap_toList, List.flatMap_cons]
      · rw [List.filter_append, List.filter_append, warnings, noWarnings, allWarnings, whole,
          fresh_append _ knows, List.map_append, List.nil_append]

/-! ## One batch after the other -/

theorem isError_of_duplicates {entries : List Located} {diagnostic : Diagnostic}
    (member : diagnostic ∈ duplicates entries) : diagnostic.isError = true := by
  obtain ⟨name, -, reported⟩ := List.mem_filterMap.1 member
  rw [duplicate?] at reported
  split at reported
  next =>
    cases reported
    rfl
  next => cases reported

/-- What a validator answers about a batch, with reports that are left from before. It leaves no
reports behind. -/
theorem run_validate (entries : List Located) (pending : List Diagnostic) :
    (validate entries).run pending =
      (Phase.validation.accept
        (pending.filter (fun diagnostic => !diagnostic.isError) ++ warnings entries)
        (pending.filter (·.isError) ++ errors entries), []) := by
  obtain ⟨found, reports, masks, capacities⟩ := reports_checkEach [] entries
  have taken : (validate entries).run pending =
      (Phase.validation.accept
        ((pending ++ duplicates entries ++ found).filter (fun diagnostic => !diagnostic.isError))
        ((pending ++ duplicates entries ++ found).filter (·.isError)), []) := by
    rw [validate, StateT.run_bind, reports_checkNames]
    show StateT.run (checkEach [] entries >>= _) (pending ++ duplicates entries) = _
    rw [StateT.run_bind, reports]
    show (Phase.validation.accept ((pending ++ duplicates entries ++ found).partition _).2
      ((pending ++ duplicates entries ++ found).partition _).1, []) = _
    rw [List.partition_eq_filter_filter]
    rfl
  obtain ⟨allErrors, noWarnings⟩ := filters_of_errors fun diagnostic =>
    @isError_of_duplicates entries diagnostic
  rw [fresh_nil] at capacities
  simp only [taken, List.filter_append, masks, capacities, allErrors, noWarnings, List.nil_append,
    List.append_assoc, errors, warnings]

theorem run_validate_nil (entries : List Located) :
    (validate entries).run [] = (check entries, []) :=
  run_validate entries []

/-- Nothing that a batch comes to is left for the next one. -/
theorem run_mapM_validate (batches : List (List Located)) :
    (batches.mapM validate).run [] = (batches.map check, []) := by
  induction batches with
  | nil => rfl
  | cons entries rest ih =>
      rw [List.mapM_cons, StateT.run_bind, run_validate_nil]
      show StateT.run (rest.mapM validate >>= _) [] = _
      rw [StateT.run_bind, ih]
      rfl

theorem answers_eq (batches : List (List Located)) : answers batches = batches.map check := by
  rw [answers, run_mapM_validate]

end Validator

end InstructionSet
