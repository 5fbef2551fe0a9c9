import InstructionSet.Enumeration
import InstructionSet.Proofs.NameMap

/-!
# Registries of enumerations

Declarations make a registry when each of them marks at most one value as the default and no two
have names of one canonical form; the registry then lists what they declare
(`Registry.ofForms_eq_ok_iff`), in whatever order they stand. So every enumeration of a registry has
at most one default value, and the code of the default is the place of the one value that is marked
(`Enumeration.default?_eq_some_iff`).
-/

namespace InstructionSet

set_option autoImplicit false

namespace Enumeration

/-- At most one value is the default. -/
def SingleDefault (enumeration : Enumeration) : Prop :=
  enumeration.values.countP (·.isDefault) ≤ 1

theorem length_defaultTexts (enumeration : Enumeration) :
    enumeration.defaultTexts.length = enumeration.values.countP (·.isDefault) := by
  rw [defaultTexts, List.length_map, List.countP_eq_length_filter]

/-- The code of the default is the place of the value that is marked. -/
theorem default?_eq_some_iff {enumeration : Enumeration} (single : enumeration.SingleDefault)
    (code : Nat) :
    enumeration.default? = some code ↔
      ∃ value, enumeration.values[code]? = some value ∧ value.isDefault = true := by
  obtain ⟨name, values⟩ := enumeration
  simp only [SingleDefault] at single
  simp only [default?]
  induction values generalizing code with
  | nil => simp
  | cons value rest ih =>
      rw [List.countP_cons] at single
      rw [List.findIdx?_cons]
      by_cases marked : value.isDefault = true
      · have none : rest.countP (·.isDefault) = 0 := by
          rw [if_pos marked] at single
          omega
        rw [if_pos marked, Option.some.injEq]
        cases code with
        | zero => simp [marked]
        | succ code =>
            simp only [Nat.zero_ne_add_one, List.getElem?_cons_succ, false_iff, not_exists, not_and]
            intro other found
            exact List.countP_eq_zero.1 none other (List.mem_of_getElem? found)
      · rw [if_neg marked] at single ⊢
        cases code with
        | zero => simp [marked]
        | succ code =>
            simp only [Option.map_eq_some_iff, Nat.add_right_cancel_iff, exists_eq_right,
              List.getElem?_cons_succ]
            exact ih code single

theorem default?_lt {enumeration : Enumeration} {code : Nat}
    (default : enumeration.default? = some code) : code < enumeration.texts.length := by
  rw [texts, List.length_map]
  exact (List.findIdx?_eq_some_iff_findIdx_eq.1 default).1

end Enumeration

/-- What a form enters in a registry: an enumeration under the canonical form of its name. -/
def EnumerationForm.entry (form : EnumerationForm) : String × Enumeration :=
  (Symbol.canonical form.name, form.toEnumeration)

namespace Registry

variable {registry extended final : Registry} {path : String} {forms : List EnumerationForm}

/-! ## When declarations make a registry -/

theorem enter_eq_ok_iff {form : EnumerationForm} :
    registry.enter form = .ok extended ↔ form.toEnumeration.SingleDefault ∧
      registry.find? (Symbol.canonical form.name) = none ∧
        registry.insert (Symbol.canonical form.name) form.toEnumeration = extended := by
  have free : registry.find? (Symbol.canonical form.name) = none ↔
      ¬ registry.contains (Symbol.canonical form.name) := by simp [NameMap.contains]
  rw [free, Enumeration.SingleDefault, ← Enumeration.length_defaultTexts, enter]
  split
  next many => simp [Nat.not_le.2 many]
  next few =>
    split
    next taken => simp [taken]
    next free => simp [Nat.not_lt.1 few, free]

/-- All declarations enter a registry when none has several defaults and their names are free. -/
theorem enterAll_eq_iff : registry.enterAll forms = (final, []) ↔
    (∀ form ∈ forms, form.toEnumeration.SingleDefault) ∧
      NameMap.Enters registry (forms.map (·.entry)) final := by
  induction forms generalizing registry with
  | nil =>
      rw [enterAll, Prod.mk.injEq, List.map_nil]
      constructor
      · rintro ⟨rfl, -⟩
        exact ⟨fun _ member => absurd member List.not_mem_nil, .nil registry⟩
      · rintro ⟨-, enters⟩
        cases enters
        exact ⟨rfl, rfl⟩
  | cons form rest ih =>
      rw [enterAll, List.forall_mem_cons, List.map_cons]
      cases entered : registry.enter form with
      | ok extended =>
          obtain ⟨few, free, rfl⟩ := enter_eq_ok_iff.1 entered
          simp only [ih]
          constructor
          · rintro ⟨single, enters⟩
            exact ⟨⟨few, single⟩, .cons free enters⟩
          · rintro ⟨⟨-, single⟩, enters⟩
            cases enters with
            | cons _ others => exact ⟨single, others⟩
      | error error =>
          simp only [Prod.mk.injEq, reduceCtorEq, and_false, false_iff, not_and]
          rintro ⟨few, -⟩ enters
          cases enters with
          | cons free _ =>
              rw [enter_eq_ok_iff.2 ⟨few, free, rfl⟩] at entered
              cases entered

/-- Declarations make the registry that lists them when none has several defaults and no two have
names of one canonical form. -/
theorem ofForms_eq_ok_iff : ofForms path forms = .ok registry ↔
    (∀ form ∈ forms, form.toEnumeration.SingleDefault) ∧
      (forms.map fun form => Symbol.canonical form.name).Nodup ∧
        registry.Lists (forms.map (·.entry)) := by
  have keys : (forms.map (·.entry)).map (·.1) = forms.map fun form => Symbol.canonical form.name :=
    List.map_map
  rw [← keys, ← NameMap.enters_empty_iff, ← enterAll_eq_iff, ofForms]
  simp only [Phase.accept_eq_ok_iff, List.map_eq_nil_iff, Prod.ext_iff]
  exact and_comm

theorem exists_ofForms_iff : (∃ registry, ofForms path forms = .ok registry) ↔
    (∀ form ∈ forms, form.toEnumeration.SingleDefault) ∧
      (forms.map fun form => Symbol.canonical form.name).Nodup := by
  have keys : (forms.map (·.entry)).map (·.1) = forms.map fun form => Symbol.canonical form.name :=
    List.map_map
  simp only [ofForms_eq_ok_iff, ← keys, ← NameMap.enters_empty_iff, exists_and_left,
    NameMap.exists_enters_empty_iff]

/-! ## Defaults -/

/-- Every enumeration of the registry has at most one default value. -/
def SingleDefaults (registry : Registry) : Prop :=
  ∀ entry ∈ registry.entries, entry.2.SingleDefault

theorem singleDefaults_of_ofForms (registered : ofForms path forms = .ok registry) :
    SingleDefaults registry := by
  obtain ⟨single, -, lists⟩ := ofForms_eq_ok_iff.1 registered
  rintro ⟨name, enumeration⟩ member
  obtain ⟨form, among, same⟩ := List.mem_map.1 ((lists _ _).1 (NameMap.find?_eq_some_iff.2 member))
  cases same
  exact single form among

/-- What is found in a registry has at most one default value. -/
theorem SingleDefaults.named (single : SingleDefaults registry)
    {name : String} {enumeration : Enumeration} (found : registry.named? name = some enumeration) :
    enumeration.SingleDefault :=
  single _ (NameMap.mem_entries_of_find? found)

/-! ## Leaving an enumeration out -/

/-- The second registry is the first one without what it has under a key. -/
def Without (key : String) (registry fewer : Registry) : Prop :=
  ∀ name, fewer.find? name = if name = key then none else registry.find? name

/-- The declarations that are not under a key make the registry without it. -/
theorem ofForms_without (registered : ofForms path forms = .ok registry) (key : String) :
    ∃ fewer, ofForms path (forms.filter fun form => Symbol.canonical form.name ≠ key) = .ok fewer ∧
      Without key registry fewer := by
  obtain ⟨single, distinct, lists⟩ := ofForms_eq_ok_iff.1 registered
  have fewerForms := List.filter_sublist (p := fun form : EnumerationForm =>
    Symbol.canonical form.name ≠ key) (l := forms)
  obtain ⟨fewer, made⟩ := (@exists_ofForms_iff path _).2
    ⟨fun form member => single form (fewerForms.subset member), distinct.sublist (fewerForms.map _)⟩
  obtain ⟨-, -, fewerLists⟩ := ofForms_eq_ok_iff.1 made
  refine ⟨fewer, made, fun name => Option.ext fun enumeration => ?_⟩
  rw [fewerLists name enumeration, Option.ite_none_left_eq_some, lists name enumeration]
  simp only [List.mem_map, List.mem_filter, decide_eq_true_eq, EnumerationForm.entry,
    Prod.mk.injEq]
  grind

end Registry
end InstructionSet
