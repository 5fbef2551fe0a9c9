import InstructionSet.Document
import Mathlib.Data.List.Induction
import InstructionSet.Proofs.Enumeration.Registry
import InstructionSet.Proofs.Fallible

/-!
# What a registry is made of, and refused for

A declaration is valid when it marks at most one value as the default. Declarations make a registry
when all of them are valid and no two have names of one canonical form. The registry then has one
entry for each of them, which is found under every name of that canonical form
(`Registry.Records`).

Otherwise every declaration is judged by those that stand in front of it: an invalid one is reported
for its defaults, and a valid one when the canonical form of its name is that of a valid one before
it (`Registry.FaultAt`). An invalid declaration does not take its name, so the two kinds of faults
do not hide each other, and the diagnostics are exactly these, in order
(`Document.registry_exact`).
-/

namespace InstructionSet

set_option autoImplicit false

/-! ## Declarations -/

/-- The text of an entry that is marked as the default. -/
def EnumerationEntry.default? : EnumerationEntry → Option String
  | .value text true => some text
  | .value _ false => none
  | .reserved => none

/-- The value that an entry declares. A reserved code is a value that says so, and is never the
default. -/
inductive EnumerationEntry.Declares : EnumerationEntry → EnumerationValue → Prop where
  | value (text : String) (isDefault : Bool) : Declares (.value text isDefault) ⟨text, isDefault⟩
  | reserved : Declares .reserved ⟨"reserved", false⟩

namespace EnumerationForm

/-- The texts of the values that are marked as the default. -/
def defaults (form : EnumerationForm) : List String :=
  form.entries.filterMap (·.default?)

/-- At most one value is marked as the default. -/
def Valid (form : EnumerationForm) : Prop :=
  form.defaults.length ≤ 1

/-- An enumeration has the name that is declared, and the values at their places. -/
structure Declares (form : EnumerationForm) (enumeration : Enumeration) : Prop where
  /-- The name is kept as it is written. -/
  name : enumeration.name = form.name
  /-- Every entry, reserved or not, is a value at its place. -/
  values : List.Forall₂ EnumerationEntry.Declares form.entries enumeration.values

theorem defaultTexts_toEnumeration (form : EnumerationForm) :
    form.toEnumeration.defaultTexts = form.defaults := by
  obtain ⟨name, entries, region⟩ := form
  show ((entries.map _).filter _).map _ = entries.filterMap _
  induction entries with
  | nil => rfl
  | cons entry rest ih =>
      rw [List.map_cons, List.filter_cons, List.filterMap_cons]
      cases entry with
      | reserved => exact ih
      | value text isDefault =>
          cases isDefault with
          | false => exact ih
          | true => exact congrArg (text :: ·) ih

theorem singleDefault_iff {form : EnumerationForm} :
    form.toEnumeration.SingleDefault ↔ form.Valid := by
  rw [Enumeration.SingleDefault, ← Enumeration.length_defaultTexts, defaultTexts_toEnumeration]
  rfl

theorem declares_toEnumeration (form : EnumerationForm) : form.Declares form.toEnumeration where
  name := rfl
  values := by
    show List.Forall₂ _ form.entries (form.entries.map _)
    rw [List.forall₂_map_right_iff, List.forall₂_same]
    intro entry member
    cases entry with
    | value text isDefault => exact .value text isDefault
    | reserved => exact .reserved

end EnumerationForm

namespace Registry

variable {registry : Registry} {path : String} {forms : List EnumerationForm}

/-! ## What a registry records -/

/-- A registry has one entry for each declaration, under the canonical form of its name, and finds
it under all names of this canonical form. -/
structure Records (registry : Registry) (forms : List EnumerationForm) : Prop where
  /-- There is one entry for each declaration. -/
  entries : registry.entries.Perm
    (forms.map fun form => (Symbol.canonical form.name, form.toEnumeration))
  /-- It has the name and the values that are declared. -/
  declared : ∀ form ∈ forms, form.Declares form.toEnumeration
  /-- It is found under the names of one canonical form, and under no others. -/
  found : ∀ form ∈ forms, ∀ name, registry.named? name = some form.toEnumeration ↔
    Symbol.canonical name = Symbol.canonical form.name

theorem records_of_ofForms (registered : ofForms path forms = .ok registry) :
    registry.Records forms := by
  obtain ⟨-, distinct, lists⟩ := ofForms_eq_ok_iff.1 registered
  constructor
  case entries =>
    have nodupEntries : registry.entries.Nodup :=
      registry.ascending.imp fun {first second} ahead same => by
        subst same
        exact ahead.irrefl
    have nodupForms : (forms.map (·.entry)).Nodup := by
      refine List.Nodup.of_map Prod.fst ?_
      rwa [List.map_map]
    refine (List.perm_ext_iff_of_nodup nodupEntries nodupForms).2 fun entry => ?_
    rw [← lists entry.1 entry.2]
    exact NameMap.find?_eq_some_iff.symm
  case declared => exact fun form _ => form.declares_toEnumeration
  case found =>
    intro form member name
    rw [named?, lists, List.mem_map]
    constructor
    · rintro ⟨other, -, same⟩
      -- Declarations of one enumeration have one name.
      have names : other.name = form.name := congrArg (·.2.name) same
      have keys : Symbol.canonical other.name = Symbol.canonical name := congrArg Prod.fst same
      rw [← keys, names]
    · intro same
      exact ⟨form, member, Prod.ext same.symm rfl⟩

/-! ## What declarations are refused for -/

/-- The error about a declaration of a file with several defaults. -/
def manyDefaults (path : String) (form : EnumerationForm) : Diagnostic where
  phase := .build
  severity := .error
  code := "build.enum.multiple-defaults"
  message := "enum '" ++ form.name ++ "' marks " ++ toString form.defaults.length ++
    " values as default: " ++ ", ".intercalate form.defaults
  span := some ⟨form.region, path⟩

/-- The error about a declaration of a file whose name is taken in its canonical form. -/
def takenName (path : String) (form : EnumerationForm) : Diagnostic where
  phase := .build
  severity := .error
  code := "build.enum.duplicate"
  message := "enum '" ++ form.name ++ "' normalizes to '" ++ Symbol.canonical form.name ++
    "' which is already declared"
  span := some ⟨form.region, path⟩

/-- What is wrong with the declaration at a place among others of a file. -/
inductive FaultAt (path : String) (forms : List EnumerationForm) (place : Nat) :
    Diagnostic → Prop where
  /-- Several of its values are marked as the default. -/
  | multipleDefaults {form : EnumerationForm} (declared : forms[place]? = some form)
      (invalid : ¬ form.Valid) : FaultAt path forms place (manyDefaults path form)
  /-- It is valid, but a valid one in front of it has a name of the same canonical form. -/
  | duplicate {form earlier : EnumerationForm} {ahead : Nat} (declared : forms[place]? = some form)
      (valid : form.Valid) (before : ahead < place) (declaredAhead : forms[ahead]? = some earlier)
      (validAhead : earlier.Valid)
      (same : Symbol.canonical earlier.name = Symbol.canonical form.name) :
      FaultAt path forms place (takenName path form)

/-- The faults of declarations, each once and in the order of the declarations. -/
structure Faults (path : String) (forms : List EnumerationForm) (places : List Nat)
    (diagnostics : List Diagnostic) : Prop where
  /-- The places ascend. -/
  ascending : places.Pairwise (· < ·)
  /-- They are those at which something is wrong. -/
  faulty : ∀ place, place ∈ places ↔ ∃ diagnostic, FaultAt path forms place diagnostic
  /-- The diagnostics say what. -/
  exact : List.Forall₂ (FaultAt path forms) places diagnostics

theorem FaultAt.lt {place : Nat} {diagnostic : Diagnostic}
    (fault : FaultAt path forms place diagnostic) : place < forms.length := by
  cases fault with
  | multipleDefaults declared invalid => exact (List.getElem?_eq_some_iff.1 declared).1
  | duplicate declared valid before declaredAhead validAhead same =>
      exact (List.getElem?_eq_some_iff.1 declared).1

/-- What is wrong with a declaration is told by what stands up to it. -/
theorem FaultAt.of_agree {others : List EnumerationForm} {place : Nat} {diagnostic : Diagnostic}
    (fault : FaultAt path forms place diagnostic)
    (agree : ∀ ahead ≤ place, others[ahead]? = forms[ahead]?) :
    FaultAt path others place diagnostic := by
  cases fault with
  | multipleDefaults declared invalid =>
      exact .multipleDefaults ((agree place (Nat.le_refl _)).trans declared) invalid
  | duplicate declared valid before declaredAhead validAhead same =>
      exact .duplicate ((agree place (Nat.le_refl _)).trans declared) valid before
        ((agree _ (Nat.le_of_lt before)).trans declaredAhead) validAhead same

/-- What stands behind a declaration does not matter to it. -/
theorem faultAt_append_iff (more : List EnumerationForm) {place : Nat}
    (inside : place < forms.length) {diagnostic : Diagnostic} :
    FaultAt path (forms ++ more) place diagnostic ↔ FaultAt path forms place diagnostic := by
  have same : ∀ ahead ≤ place, (forms ++ more)[ahead]? = forms[ahead]? := fun ahead le =>
    List.getElem?_append_left (Nat.lt_of_le_of_lt le inside)
  exact ⟨fun fault => fault.of_agree fun ahead le => (same ahead le).symm,
    fun fault => fault.of_agree same⟩

/-- Behind other declarations one more is faulty or not, and the others are what they were. -/
theorem exists_faultAt_concat_iff {form : EnumerationForm} {place : Nat} :
    (∃ diagnostic, FaultAt path (forms ++ [form]) place diagnostic) ↔
      (∃ diagnostic, FaultAt path forms place diagnostic) ∨
        place = forms.length ∧
          ∃ diagnostic, FaultAt path (forms ++ [form]) forms.length diagnostic := by
  constructor
  · rintro ⟨diagnostic, fault⟩
    have inside := fault.lt
    rw [List.length_append, List.length_singleton] at inside
    rcases Nat.lt_succ_iff_lt_or_eq.1 inside with front | rfl
    · exact .inl ⟨diagnostic, (faultAt_append_iff _ front).1 fault⟩
    · exact .inr ⟨rfl, diagnostic, fault⟩
  · rintro (⟨diagnostic, fault⟩ | ⟨rfl, diagnostic, fault⟩)
    · exact ⟨diagnostic, (faultAt_append_iff _ fault.lt).2 fault⟩
    · exact ⟨diagnostic, fault⟩

/-! ## One declaration after the other -/

/-- A registry has the keys that valid declarations have taken. -/
def Holds (registry : Registry) (forms : List EnumerationForm) : Prop :=
  ∀ key, registry.contains key = true ↔
    ∃ form ∈ forms, form.Valid ∧ Symbol.canonical form.name = key

/-- What comes of a declaration behind others: it is valid and enters, or it is faulty and the
registry stays as it is. -/
theorem enter_cases (path : String) (holds : registry.Holds forms) (form : EnumerationForm) :
    (∃ extended, registry.enter form = .ok extended ∧ extended.Holds (forms ++ [form]) ∧
      ∀ diagnostic, ¬ FaultAt path (forms ++ [form]) forms.length diagnostic) ∨
    ∃ error, registry.enter form = .error error ∧ registry.Holds (forms ++ [form]) ∧
      FaultAt path (forms ++ [form]) forms.length (error.diagnostic path form.region) := by
  have last : (forms ++ [form])[forms.length]? = some form := List.getElem?_concat_length
  have split : ∀ key, (∃ other ∈ forms ++ [form], other.Valid ∧ Symbol.canonical other.name = key) ↔
      registry.contains key = true ∨ form.Valid ∧ Symbol.canonical form.name = key := by
    intro key
    rw [holds key]
    simp only [List.mem_append, List.mem_singleton, or_and_right, exists_or, exists_eq_left]
  have opened : registry.enter form = if 1 < form.defaults.length then
      .error (.multipleDefaults form.name form.defaults)
      else if registry.contains (Symbol.canonical form.name) then
        .error (.duplicate form.name (Symbol.canonical form.name))
      else .ok (registry.insert (Symbol.canonical form.name) form.toEnumeration) := by
    rw [enter, form.defaultTexts_toEnumeration]
  rw [opened]
  by_cases valid : form.Valid
  · rw [if_neg (Nat.not_lt.2 valid)]
    by_cases taken : registry.contains (Symbol.canonical form.name) = true
    · rw [if_pos taken]
      refine .inr ⟨_, rfl, fun key => ?_, ?_⟩
      · rw [split key]
        refine (or_iff_left_of_imp ?_).symm
        rintro ⟨-, rfl⟩
        exact taken
      · obtain ⟨earlier, member, validAhead, same⟩ := (holds _).1 taken
        obtain ⟨ahead, inside, rfl⟩ := List.mem_iff_getElem.1 member
        refine .duplicate last valid inside ?_ validAhead same
        rw [List.getElem?_append_left inside, List.getElem?_eq_getElem inside]
    · rw [if_neg taken]
      refine .inl ⟨_, rfl, fun key => ?_, ?_⟩
      · rw [split key, NameMap.contains, NameMap.find?_insert]
        by_cases here : key = Symbol.canonical form.name
        · simp [here, valid]
        · simp [here, Ne.symm here, NameMap.contains]
      · intro diagnostic fault
        cases fault with
        | multipleDefaults declared invalid =>
            obtain rfl := Option.some.inj (last.symm.trans declared)
            exact invalid valid
        | duplicate declared _ before declaredAhead validAhead same =>
            obtain rfl := Option.some.inj (last.symm.trans declared)
            rw [List.getElem?_append_left before] at declaredAhead
            exact taken ((holds _).2 ⟨_, List.mem_of_getElem? declaredAhead, validAhead, same⟩)
  · rw [if_pos (Nat.not_le.1 valid)]
    refine .inr ⟨_, rfl, fun key => ?_, .multipleDefaults last valid⟩
    rw [split key]
    refine (or_iff_left_of_imp ?_).symm
    rintro ⟨impossible, -⟩
    exact absurd impossible valid

theorem enterAll_concat (registry : Registry) (forms : List EnumerationForm)
    (form : EnumerationForm) :
    registry.enterAll (forms ++ [form]) =
      ((((registry.enterAll forms).1.enterAll [form]).1),
        (registry.enterAll forms).2 ++ ((registry.enterAll forms).1.enterAll [form]).2) := by
  induction forms generalizing registry with
  | nil => rfl
  | cons first rest ih =>
      simp only [List.cons_append, enterAll.eq_2 registry]
      cases registry.enter first with
      | ok extended => exact ih extended
      | error error => simp only [ih, List.cons_append]

/-- The faults that are found are those of the declarations, whatever their number. -/
theorem faults_enterAll (path : String) (forms : List EnumerationForm) :
    (enterAll .empty forms).1.Holds forms ∧ ∃ places, Faults path forms places
      ((enterAll .empty forms).2.map fun fault => fault.2.diagnostic path fault.1.region) := by
  induction forms using List.reverseRecOn with
  | nil =>
      have free : (enterAll .empty []).1.Holds [] := fun key => by
        simp [enterAll, NameMap.contains, NameMap.find?_empty]
      refine ⟨free, [], .nil, fun place => ?_, .nil⟩
      refine iff_of_false List.not_mem_nil ?_
      rintro ⟨diagnostic, fault⟩
      exact absurd fault.lt (Nat.not_lt_zero place)
  | append_singleton forms form ih =>
      obtain ⟨holds, places, ascending, faulty, exact⟩ := ih
      have before : ∀ place ∈ places, place < forms.length := by
        intro place member
        obtain ⟨diagnostic, fault⟩ := (faulty place).1 member
        exact fault.lt
      have kept := exact.imp fun place diagnostic found =>
        (faultAt_append_iff [form] found.lt).2 found
      rw [enterAll_concat]
      rcases enter_cases path holds form with ⟨extended, entered, holdsNow, clean⟩ |
        ⟨error, refused, holdsNow, found⟩
      · simp only [enterAll, entered, List.append_nil]
        refine ⟨holdsNow, places, ascending, fun place => ?_, kept⟩
        rw [exists_faultAt_concat_iff, faulty]
        refine (or_iff_left ?_).symm
        rintro ⟨-, diagnostic, fault⟩
        exact clean diagnostic fault
      · simp only [enterAll, refused, List.map_append]
        refine ⟨holdsNow, places ++ [forms.length], ?_, fun place => ?_,
          List.rel_append kept (.cons found .nil)⟩
        · refine List.pairwise_append.2 ⟨ascending, List.pairwise_singleton _ _, ?_⟩
          intro place member last isLast
          rw [List.mem_singleton.1 isLast]
          exact before place member
        · rw [List.mem_append, List.mem_singleton, faulty, exists_faultAt_concat_iff]
          refine or_congr_right (and_iff_left ?_).symm
          exact ⟨_, found⟩

theorem faults_of_ofForms {failure : Failure} (refused : ofForms path forms = .error failure) :
    ∃ places diagnostics, failure = .reported .build diagnostics ∧
      Faults path forms places diagnostics := by
  obtain ⟨-, places, faults⟩ := faults_enterAll path forms
  obtain ⟨-, rfl⟩ := Phase.accept_eq_error_iff.1 refused
  exact ⟨places, _, rfl, faults⟩

end Registry

/-- **The registry of a description is exact**: when there is one, what it records, and what is
reported otherwise. -/
theorem Document.registry_exact (document : Document) :
    ((∃ registry, document.registry = .ok registry) ↔
      (∀ form ∈ document.enumerations, form.Valid) ∧
        (document.enumerations.map fun form => Symbol.canonical form.name).Nodup) ∧
    (∀ registry, document.registry = .ok registry → registry.Records document.enumerations) ∧
    ∀ failure, document.registry = .error failure →
      ∃ places diagnostics, failure = .reported .build diagnostics ∧
        Registry.Faults document.path document.enumerations places diagnostics := by
  refine ⟨?_, fun _ => Registry.records_of_ofForms, fun _ => Registry.faults_of_ofForms⟩
  simp only [← EnumerationForm.singleDefault_iff]
  exact Registry.exists_ofForms_iff

/-- An enumeration of two values and a reserved code. -/
def EnumerationForm.pair (name : String) (first second : Bool) : EnumerationForm :=
  ⟨name, [.value "low" first, .reserved, .value "high" second], .point ⟨1, 1⟩⟩

/-- Two enumerations whose names have different canonical forms. -/
def Document.halves : Document where
  path := "halves.isa"
  directives := [.enumeration (.pair "Lane half" true false),
    .enumeration (.pair "lanehalf" false false)]

/-- Four enumerations of one canonical name. The first and the last one have two defaults. -/
def Document.clashingHalves : Document where
  path := "halves.isa"
  directives := [.enumeration (.pair "lane_half" true true),
    .enumeration (.pair "Lane half" true false), .enumeration (.pair "lane/half" false false),
    .enumeration (.pair "[lane-half]" true true)]

theorem Document.registry_exact_halves :
    (∃ registry, halves.registry = .ok registry ∧ registry.Records halves.enumerations) ∧
      ∃ places diagnostics, clashingHalves.registry = .error (.reported .build diagnostics) ∧
        Registry.Faults "halves.isa" clashingHalves.enumerations places diagnostics := by
  constructor
  · obtain ⟨registry, registered⟩ : ∃ registry, halves.registry = .ok registry :=
      Fallible.exists_eq_ok (by decide +kernel)
    exact ⟨registry, registered, (registry_exact halves).2.1 registry registered⟩
  · obtain ⟨failure, refused⟩ : ∃ failure, clashingHalves.registry = .error failure :=
      Fallible.exists_eq_error (by decide +kernel)
    obtain ⟨places, diagnostics, rfl, faults⟩ :=
      (registry_exact clashingHalves).2.2 failure refused
    exact ⟨places, diagnostics, refused, faults⟩

example : (Registry.enterAll .empty Document.clashingHalves.enumerations).2.map (·.2.code) =
    ["build.enum.multiple-defaults", "build.enum.duplicate", "build.enum.multiple-defaults"] := by
  decide +kernel

end InstructionSet
