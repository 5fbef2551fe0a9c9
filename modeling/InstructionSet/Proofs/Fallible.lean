import Mathlib.Data.List.Forall2

/-!
# Computations that may fail

A chain of computations succeeds exactly when each of them does, and a list of them succeeds with a
list of results, one for one. Two computations run in parallel when both succeed with related values
or both fail with related faults (`Parallel`); so do chains and lists of computations that do.
-/

namespace InstructionSet.Fallible

set_option autoImplicit false

variable {ε α β : Type}

theorem bind_eq_ok_iff {computation : Except ε α} {continuation : α → Except ε β} {value : β} :
    computation >>= continuation = .ok value ↔
      ∃ found, computation = .ok found ∧ continuation found = .ok value := by
  cases computation with
  | ok found =>
      constructor
      · exact fun continued => ⟨found, rfl, continued⟩
      · rintro ⟨_, same, continued⟩
        cases same
        exact continued
  | error fault =>
      constructor
      · exact fun failed => nomatch failed
      · rintro ⟨_, same, -⟩
        cases same

theorem pure_eq_ok_iff {found value : α} : (pure found : Except ε α) = .ok value ↔ found = value :=
  ⟨fun same => by cases same; rfl, fun same => by cases same; rfl⟩

/-- A chain succeeds when its first computation does and the others do with any of its values. -/
theorem exists_bind_eq_ok_iff {computation : Except ε α} {continuation : α → Except ε β}
    {first rest : Prop} (succeeds : (∃ value, computation = .ok value) ↔ first)
    (behind : ∀ value, (∃ result, continuation value = .ok result) ↔ rest) :
    (∃ result, computation >>= continuation = .ok result) ↔ first ∧ rest := by
  simp only [bind_eq_ok_iff]
  constructor
  · rintro ⟨result, value, found, continued⟩
    exact ⟨succeeds.1 ⟨value, found⟩, (behind value).1 ⟨result, continued⟩⟩
  · rintro ⟨both, continues⟩
    obtain ⟨value, found⟩ := succeeds.2 both
    obtain ⟨result, continued⟩ := (behind value).2 continues
    exact ⟨result, value, found, continued⟩

theorem exists_pure_eq_ok_iff {value : α} :
    (∃ result, (pure value : Except ε α) = .ok result) ↔ True :=
  iff_of_true ⟨value, rfl⟩ trivial

theorem map_eq_ok_iff {computation : Except ε α} {change : α → β} {result : β} :
    change <$> computation = .ok result ↔
      ∃ value, computation = .ok value ∧ change value = result := by
  cases computation with
  | ok value =>
      constructor
      · exact fun same => ⟨value, rfl, Except.ok.inj same⟩
      · rintro ⟨_, same, rfl⟩
        cases same
        rfl
  | error fault =>
      constructor
      · intro impossible
        cases impossible
      · rintro ⟨_, impossible, -⟩
        cases impossible

theorem exists_map_eq_ok_iff {computation : Except ε α} {change : α → β} :
    (∃ result, change <$> computation = .ok result) ↔ ∃ value, computation = .ok value := by
  simp only [map_eq_ok_iff]
  constructor
  · rintro ⟨_, value, succeeds, -⟩
    exact ⟨value, succeeds⟩
  · rintro ⟨value, succeeds⟩
    exact ⟨_, value, succeeds, rfl⟩

theorem bind_eq_error_iff {computation : Except ε α} {continuation : α → Except ε β} {fault : ε} :
    computation >>= continuation = .error fault ↔
      computation = .error fault ∨
        ∃ found, computation = .ok found ∧ continuation found = .error fault := by
  cases computation with
  | ok found =>
      constructor
      · exact fun continued => .inr ⟨found, rfl, continued⟩
      · rintro (failed | ⟨_, same, continued⟩)
        · cases failed
        · cases same
          exact continued
  | error other =>
      constructor
      · exact fun failed => .inl (congrArg _ (Except.error.inj failed))
      · rintro (failed | ⟨_, same, -⟩)
        · exact congrArg _ (Except.error.inj failed)
        · cases same

theorem mapError_eq_ok_iff {δ : Type} {computation : Except ε α} {change : ε → δ} {value : α} :
    computation.mapError change = .ok value ↔ computation = .ok value := by
  cases computation with
  | ok found =>
      constructor
      · exact fun same => congrArg _ (Except.ok.inj same)
      · exact fun same => congrArg _ (Except.ok.inj same)
  | error fault =>
      constructor
      · exact fun same => nomatch same
      · exact fun same => nomatch same

theorem mapError_eq_error_iff {δ : Type} {computation : Except ε α} {change : ε → δ} {fault : δ} :
    computation.mapError change = .error fault ↔
      ∃ original, computation = .error original ∧ change original = fault := by
  cases computation with
  | ok found =>
      constructor
      · exact fun same => nomatch same
      · rintro ⟨_, same, -⟩
        cases same
  | error original =>
      constructor
      · exact fun same => ⟨original, rfl, Except.error.inj same⟩
      · rintro ⟨_, same, rfl⟩
        cases same
        rfl

theorem mem_toOption_iff {computation : Except ε α} {value : α} :
    value ∈ computation.toOption.toList ↔ computation = .ok value := by
  cases computation with
  | ok found => simp [Except.toOption, eq_comm]
  | error fault => simp [Except.toOption]

theorem exists_eq_ok {computation : Except ε α} (succeeds : computation.toOption.isSome = true) :
    ∃ value, computation = .ok value := by
  cases computation with
  | ok value => exact ⟨value, rfl⟩
  | error fault => cases succeeds

/-- What is computed of the result of a computation says that there is one. -/
theorem exists_of_any {computation : Except ε α} {holds : α → Bool}
    (found : computation.toOption.any holds = true) :
    ∃ value, computation = .ok value ∧ holds value = true := by
  cases computation with
  | ok value => exact ⟨value, rfl, found⟩
  | error fault => cases found

theorem exists_eq_error {computation : Except ε α} (fails : computation.toOption.isSome = false) :
    ∃ fault, computation = .error fault := by
  cases computation with
  | ok value => cases fails
  | error fault => exact ⟨fault, rfl⟩

/-- A list of computations succeeds when each of them does, with their results in order. -/
theorem mapM_eq_ok_iff {step : α → Except ε β} {values : List α} {results : List β} :
    values.mapM step = .ok results ↔
      List.Forall₂ (fun value result => step value = .ok result) values results := by
  induction values generalizing results with
  | nil =>
      rw [List.mapM_nil, pure_eq_ok_iff]
      constructor
      · rintro rfl
        exact .nil
      · intro every
        cases every
        rfl
  | cons value rest ih =>
      rw [List.mapM_cons, bind_eq_ok_iff]
      constructor
      · rintro ⟨result, first, remaining⟩
        obtain ⟨later, others, same⟩ := bind_eq_ok_iff.1 remaining
        cases pure_eq_ok_iff.1 same
        exact .cons first (ih.1 others)
      · intro every
        cases every with
        | cons first others =>
            exact ⟨_, first, bind_eq_ok_iff.2 ⟨_, ih.2 others, rfl⟩⟩

/-- Steps that agree on the values of a list agree on the list. -/
theorem mapM_congr_of_mem {first second : α → Except ε β} {values : List α}
    (agree : ∀ value ∈ values, first value = second value) :
    values.mapM first = values.mapM second := by
  induction values with
  | nil => rfl
  | cons value rest ih =>
      rw [List.mapM_cons, List.mapM_cons, agree value List.mem_cons_self,
        ih fun other member => agree other (List.mem_cons_of_mem _ member)]

/-- A list of computations fails with the fault of the first one that fails. -/
theorem mapM_eq_error_iff {step : α → Except ε β} {values : List α} {fault : ε} :
    values.mapM step = .error fault ↔ ∃ before value after, values = before ++ value :: after ∧
      (∀ earlier ∈ before, ∃ result, step earlier = .ok result) ∧ step value = .error fault := by
  induction values with
  | nil =>
      rw [List.mapM_nil]
      constructor
      · exact fun failed => nomatch failed
      · rintro ⟨before, value, after, whole, -⟩
        cases List.append_eq_nil_iff.1 whole.symm |>.2
  | cons first rest ih =>
      rw [List.mapM_cons, bind_eq_error_iff]
      constructor
      · rintro (failed | ⟨result, succeeded, remaining⟩)
        · refine ⟨[], first, rest, rfl, ?_, failed⟩
          exact fun _ member => absurd member List.not_mem_nil
        · rcases bind_eq_error_iff.1 remaining with later | ⟨_, -, impossible⟩
          · obtain ⟨before, value, after, rfl, earlier, failed⟩ := ih.1 later
            refine ⟨first :: before, value, after, rfl, fun other member => ?_, failed⟩
            rcases List.mem_cons.1 member with rfl | member
            · exact ⟨result, succeeded⟩
            · exact earlier other member
          · cases impossible
      · rintro ⟨before, value, after, whole, earlier, failed⟩
        cases before with
        | nil =>
            obtain ⟨rfl, -⟩ := List.cons.inj whole
            exact .inl failed
        | cons front before =>
            obtain ⟨rfl, rfl⟩ := List.cons.inj whole
            obtain ⟨result, succeeded⟩ := earlier first List.mem_cons_self
            refine .inr ⟨result, succeeded, bind_eq_error_iff.2 (.inl (ih.2 ?_))⟩
            exact ⟨before, value, after, rfl,
              fun other member => earlier other (List.mem_cons_of_mem _ member), failed⟩

/-- Every second element of a list of pairs is paired with a first one. -/
theorem exists_of_forall₂ {related : α → β → Prop} {firsts : List α} {seconds : List β}
    (pairs : List.Forall₂ related firsts seconds) {second : β} (member : second ∈ seconds) :
    ∃ first ∈ firsts, related first second := by
  induction pairs with
  | nil => cases member
  | cons here _ ih =>
      rcases List.mem_cons.1 member with rfl | later
      · exact ⟨_, List.mem_cons_self, here⟩
      · obtain ⟨first, among, there⟩ := ih later
        exact ⟨first, List.mem_cons_of_mem _ among, there⟩

/-- An element in the middle of a list is paired with one in the middle of the other. -/
theorem exists_middle_of_forall₂ {related : α → β → Prop} {firsts : List α}
    {before after : List β} {second : β}
    (pairs : List.Forall₂ related firsts (before ++ second :: after)) :
    ∃ earlier first later, firsts = earlier ++ first :: later ∧
      List.Forall₂ related earlier before ∧ related first second ∧
        List.Forall₂ related later after := by
  have behind := List.forall₂_drop_append _ _ _ pairs
  obtain ⟨first, later, here, rest, same⟩ := List.forall₂_cons_right_iff.1 behind
  refine ⟨_, first, later, ?_, List.forall₂_take_append _ _ _ pairs, here, rest⟩
  rw [← same, List.take_append_drop]

/-- Values that are all related to something are related to a list, one by one. -/
theorem forall₂_of_exists {related : α → β → Prop} {firsts : List α}
    (each : ∀ first ∈ firsts, ∃ second, related first second) :
    ∃ seconds, List.Forall₂ related firsts seconds := by
  induction firsts with
  | nil => exact ⟨[], .nil⟩
  | cons first rest ih =>
      obtain ⟨second, here⟩ := each first List.mem_cons_self
      obtain ⟨seconds, there⟩ := ih fun other member => each other (List.mem_cons_of_mem _ member)
      exact ⟨second :: seconds, .cons here there⟩

/-- Lists that are mapped to one list are so one by one. -/
theorem map_eq_map_iff {γ : Type} {change : α → γ} {change' : β → γ} {firsts : List α}
    {seconds : List β} : firsts.map change = seconds.map change' ↔
      List.Forall₂ (fun first second => change first = change' second) firsts seconds := by
  rw [← List.forall₂_eq_eq_eq, List.forall₂_map_left_iff, List.forall₂_map_right_iff]

/-- Every result of a list of computations is the result of one of them. -/
theorem exists_of_mapM_eq_ok {step : α → Except ε β} {values : List α} {results : List β}
    (succeeded : values.mapM step = .ok results) {result : β} (member : result ∈ results) :
    ∃ value ∈ values, step value = .ok result :=
  exists_of_forall₂ (mapM_eq_ok_iff.1 succeeded) member

/-- A list of steps that each succeed under a condition, with a value of their own, succeeds under
all of these conditions, with these values. -/
theorem mapM_eq_ok_iff_of_step {step : α → Except ε β} {permitted : α → Prop} {made : α → β}
    (each : ∀ value result, step value = .ok result ↔ permitted value ∧ made value = result)
    {values : List α} {results : List β} : values.mapM step = .ok results ↔
      (∀ value ∈ values, permitted value) ∧ values.map made = results := by
  simp only [mapM_eq_ok_iff, each]
  constructor
  · intro every
    refine ⟨fun value member => ?_, ?_⟩
    · obtain ⟨result, -, here, -⟩ := exists_of_forall₂ every.flip member
      exact here
    · rw [← List.forall₂_eq_eq_eq, List.forall₂_map_left_iff]
      exact every.imp fun _ _ both => both.2
  · rintro ⟨permits, rfl⟩
    rw [List.forall₂_map_right_iff, List.forall₂_same]
    exact fun value member => ⟨permits value member, rfl⟩

/-- A list of computations succeeds when each of them does. -/
theorem exists_mapM_eq_ok_iff {step : α → Except ε β} {values : List α} :
    (∃ results, values.mapM step = .ok results) ↔
      ∀ value ∈ values, ∃ result, step value = .ok result := by
  simp only [mapM_eq_ok_iff]
  constructor
  · rintro ⟨results, every⟩ value member
    obtain ⟨result, -, here⟩ := exists_of_forall₂ every.flip member
    exact ⟨result, here⟩
  · exact forall₂_of_exists

/-! ## Two computations side by side -/

/-- Both computations succeed, with related values, or both fail, with related faults. -/
inductive Parallel {δ : Type} (faults : ε → δ → Prop) (values : α → β → Prop) :
    Except ε α → Except δ β → Prop where
  | ok {value : α} {other : β} (related : values value other) :
      Parallel faults values (.ok value) (.ok other)
  | error {fault : ε} {other : δ} (related : faults fault other) :
      Parallel faults values (.error fault) (.error other)

section Parallel

variable {δ γ η : Type} {faults : ε → δ → Prop} {values : α → β → Prop}
  {computation : Except ε α} {other : Except δ β}

theorem Parallel.imp {looser : ε → δ → Prop} {weaker : α → β → Prop}
    (parallel : Parallel faults values computation other)
    (fault : ∀ fault fault', faults fault fault' → looser fault fault')
    (value : ∀ value value', values value value' → weaker value value') :
    Parallel looser weaker computation other := by
  cases parallel with
  | ok related => exact .ok (value _ _ related)
  | error related => exact .error (fault _ _ related)

theorem Parallel.bind {results : γ → η → Prop} {continuation : α → Except ε γ}
    {further : β → Except δ η} (parallel : Parallel faults values computation other)
    (behind : ∀ value value', values value value' →
      Parallel faults results (continuation value) (further value')) :
    Parallel faults results (computation >>= continuation) (other >>= further) := by
  cases parallel with
  | ok related => exact behind _ _ related
  | error related => exact .error related

theorem Parallel.mapError {ζ ξ : Type} {changed : ζ → ξ → Prop} {change : ε → ζ} {change' : δ → ξ}
    (parallel : Parallel faults values computation other)
    (each : ∀ fault fault', faults fault fault' → changed (change fault) (change' fault')) :
    Parallel changed values (computation.mapError change) (other.mapError change') := by
  cases parallel with
  | ok related => exact .ok related
  | error related => exact .error (each _ _ related)

/-- Steps that run in parallel on related values run in parallel on lists of them. -/
theorem parallel_mapM {inputs : γ → η → Prop} {step : γ → Except ε α} {step' : η → Except δ β}
    {firsts : List γ} {seconds : List η} (pairs : List.Forall₂ inputs firsts seconds)
    (each : ∀ input input', inputs input input' →
      Parallel faults values (step input) (step' input')) :
    Parallel faults (List.Forall₂ values) (firsts.mapM step) (seconds.mapM step') := by
  induction pairs with
  | nil => exact .ok .nil
  | cons first _ ih =>
      rw [List.mapM_cons, List.mapM_cons]
      exact (each _ _ first).bind fun _ _ here => ih.bind fun _ _ there => .ok (.cons here there)

theorem Parallel.exists_ok {value : α} (parallel : Parallel faults values (.ok value) other) :
    ∃ value', other = .ok value' ∧ values value value' := by
  cases parallel with
  | ok related => exact ⟨_, rfl, related⟩

theorem Parallel.exists_error {fault : ε} (parallel : Parallel faults values (.error fault) other) :
    ∃ fault', other = .error fault' ∧ faults fault fault' := by
  cases parallel with
  | error related => exact ⟨_, rfl, related⟩

end Parallel

/-! ## Computations that agree -/

/-- Both computations succeed with one value, or both fail. -/
def Agree (computation other : Except ε α) : Prop :=
  Parallel (fun _ _ => True) Eq computation other

section Agree

variable {computation other : Except ε α}

theorem Agree.refl (computation : Except ε α) : Agree computation computation := by
  cases computation with
  | ok value => exact .ok rfl
  | error fault => exact .error trivial

theorem Agree.bind {continuation further : α → Except ε β} (agree : Agree computation other)
    (behind : ∀ value, Agree (continuation value) (further value)) :
    Agree (computation >>= continuation) (other >>= further) :=
  Parallel.bind agree fun value _ same => same ▸ behind value

theorem Agree.map {change : α → β} (agree : Agree computation other) :
    Agree (change <$> computation) (change <$> other) := by
  cases agree with
  | ok same => exact .ok (congrArg change same)
  | error => exact .error trivial

theorem Agree.eq_ok {value : α} (agree : Agree computation other)
    (succeeds : computation = .ok value) : other = .ok value := by
  subst succeeds
  cases agree with
  | ok same => rw [same]

/-- Computations agree when each comes to the value that the other comes to. -/
theorem Agree.of_ok (there : ∀ value, computation = .ok value → other = .ok value)
    (back : ∀ value, other = .ok value → computation = .ok value) : Agree computation other := by
  cases first : computation with
  | ok value =>
      rw [there value first]
      exact .refl _
  | error fault =>
      cases second : other with
      | ok value =>
          have impossible := back value second
          rw [first] at impossible
          cases impossible
      | error fault' => exact .error trivial

end Agree

/-! ## A computation that is made again -/

/-- A computation that is made again comes to what it came to, unless it failed with a fault that
may have been remedied. -/
inductive Persists (remediable : ε → Prop) (computation : Except ε α) : Except ε α → Prop where
  | same : Persists remediable computation computation
  | failed {fault : ε} {again : Except ε α} (failed : computation = .error fault)
      (may : remediable fault) : Persists remediable computation again

section Persists

variable {remediable : ε → Prop} {computation again : Except ε α}

theorem Persists.bind {continuation further : α → Except ε β}
    (persists : Persists remediable computation again)
    (behind : ∀ value, Persists remediable (continuation value) (further value)) :
    Persists remediable (computation >>= continuation) (again >>= further) := by
  cases persists with
  | same =>
      cases computation with
      | ok value => exact behind value
      | error fault => exact .same
  | failed failed may =>
      rw [failed]
      exact .failed rfl may

theorem persists_mapM {step step' : α → Except ε β}
    (each : ∀ value, Persists remediable (step value) (step' value)) (values : List α) :
    Persists remediable (values.mapM step) (values.mapM step') := by
  induction values with
  | nil => exact .same
  | cons value rest ih =>
      rw [List.mapM_cons, List.mapM_cons]
      exact (each value).bind fun _ => ih.bind fun _ => .same

end Persists

/-! ## Lists of computations that grow -/

/-- Where a list of computations succeeds, fewer of them succeed with the fewer results. -/
theorem mapM_of_sublist {step : α → Except ε β} {fewer values : List α} {results : List β}
    (sublist : fewer.Sublist values) (succeeds : values.mapM step = .ok results) :
    ∃ found, fewer.mapM step = .ok found ∧ found.Sublist results := by
  induction sublist generalizing results with
  | slnil => exact ⟨results, succeeds, .refl _⟩
  | cons value _ ih =>
      rw [List.mapM_cons] at succeeds
      obtain ⟨result, -, succeeds⟩ := bind_eq_ok_iff.1 succeeds
      obtain ⟨others, remaining, same⟩ := bind_eq_ok_iff.1 succeeds
      cases pure_eq_ok_iff.1 same
      obtain ⟨found, fewer, sublist⟩ := ih remaining
      exact ⟨found, fewer, .cons result sublist⟩
  | cons_cons value _ ih =>
      rw [List.mapM_cons] at succeeds
      obtain ⟨result, first, succeeds⟩ := bind_eq_ok_iff.1 succeeds
      obtain ⟨others, remaining, same⟩ := bind_eq_ok_iff.1 succeeds
      cases pure_eq_ok_iff.1 same
      obtain ⟨found, fewer, sublist⟩ := ih remaining
      refine ⟨result :: found, ?_, .cons_cons result sublist⟩
      rw [List.mapM_cons, first, fewer]
      rfl

theorem mapM_of_isPrefix {step : α → Except ε β} {front values : List α} {found results : List β}
    (first : front <+: values) (succeeds : values.mapM step = .ok results)
    (finds : front.mapM step = .ok found) : found <+: results := by
  obtain ⟨behind, rfl⟩ := first
  rw [List.mapM_append, finds] at succeeds
  obtain ⟨_, here, succeeds⟩ := bind_eq_ok_iff.1 succeeds
  cases here
  obtain ⟨further, -, same⟩ := bind_eq_ok_iff.1 succeeds
  cases pure_eq_ok_iff.1 same
  exact List.prefix_append _ _

end InstructionSet.Fallible
