import InstructionSet.Proofs.Enumeration.Faults
import InstructionSet.Proofs.Symbol
import InstructionSet.Proofs.Table.Accepted

/-!
# Keys of registries

The keys of a registry are canonical names, but not all of them are their own canonical forms. A key
that starts with a letter is, and what is filed under it is found by it. A key that starts with an
underscore is not, since the underscore stands there for want of a letter and another one is put in
front of it: what is filed under such a key is found by the name of its declaration, and never by
the key (`Document.filed_of_registry`).
-/

namespace InstructionSet

open InstructionSet.Symbol

set_option autoImplicit false

namespace Registry

/-- How an enumeration of a registry is found, by its key and by its name. -/
structure Filed (registry : Registry) (key : String) (enumeration : Enumeration) : Prop where
  /-- The key starts with a letter or an underscore. -/
  starts : StartsWithLetter key.toList ∨ ∃ rest, key.toList = '_' :: rest
  /-- It is its own canonical form when it starts with a letter. -/
  own : canonical key = key ↔ StartsWithLetter key.toList
  /-- Otherwise its canonical form has one more underscore. -/
  further : ¬ StartsWithLetter key.toList → canonical key = "_" ++ key
  /-- The enumeration is found by its key when this starts with a letter. -/
  byKey : registry.named? key = some enumeration ↔ StartsWithLetter key.toList
  /-- It is found by its name. -/
  byName : registry.named? enumeration.name = some enumeration

theorem Records.filed {registry : Registry} {forms : List EnumerationForm}
    (records : registry.Records forms) {key : String} {enumeration : Enumeration}
    (member : (key, enumeration) ∈ registry.entries) : registry.Filed key enumeration := by
  obtain ⟨form, declared, same⟩ := List.mem_map.1 (records.entries.mem_iff.1 member)
  cases same
  have isCanonical : IsCanonical (canonical form.name).toList := isCanonical_canonical form.name
  have own := canonical_eq_self_iff isCanonical
  constructor
  case starts => exact isCanonical.starts
  case own => exact own
  case further => exact canonical_of_not_starts isCanonical
  case byKey => exact (records.found form declared _).trans own
  case byName => exact (records.found form declared _).2 rfl

end Registry

/-- **The keys of a registry**, which are those that the table of its description shows: each is
found as it is when it starts with a letter, and no other. -/
theorem Document.filed_of_registry {document : Document} {registry : Registry}
    (registered : document.registry = .ok registry) :
    (∀ entry ∈ registry.entries, registry.Filed entry.1 entry.2) ∧
      ∀ catalog table, Table.ofDocument document catalog = .ok table → table.enums = registry := by
  constructor
  · intro entry member
    exact (Registry.records_of_ofForms registered).filed member
  · intro catalog table accepts
    have same := (Table.accepted_of_ofDocument accepts).enums
    rw [registered] at same
    cases same
    rfl

/-- Two enumerations, one with a name that starts with a digit. -/
def Document.ways : Document where
  path := "ways.isa"
  directives := [.enumeration (.pair "Round mode" true false),
    .enumeration (.pair "3way" false false)]

/-- One of the two is found by its key. -/
theorem Document.filed_of_registry_ways : ∃ registry, ways.registry = .ok registry ∧
    ("round_mode", (EnumerationForm.pair "Round mode" true false).toEnumeration) ∈
      registry.entries ∧
    registry.named? "round_mode" =
      some (EnumerationForm.pair "Round mode" true false).toEnumeration := by
  obtain ⟨registry, registered⟩ : ∃ registry, ways.registry = .ok registry :=
    Fallible.exists_eq_ok (by decide +kernel)
  have listed : ("round_mode", (EnumerationForm.pair "Round mode" true false).toEnumeration) ∈
      registry.entries := by
    refine (Registry.records_of_ofForms registered).entries.mem_iff.2 ?_
    decide +kernel
  have starts : StartsWithLetter "round_mode".toList := by
    show Text.isAlphabetic 'r' = true
    decide +kernel
  have filed := (filed_of_registry registered).1 _ listed
  exact ⟨registry, registered, listed, filed.byKey.2 starts⟩

/-- **A key of an accepted description need not be its own canonical form**: the enumeration that is
filed under the key with an underscore is not found by this key. -/
theorem Document.key_unlike_canonical : ∃ registry, ways.registry = .ok registry ∧
    ∃ entry ∈ registry.entries, entry.1 = "_3way" ∧ canonical entry.1 = "__3way" ∧
      registry.named? entry.1 = none := by
  have computed : ways.registry.toOption.any (fun registry =>
      registry.entries.any fun entry => entry.1 = "_3way" ∧ canonical entry.1 = "__3way" ∧
        registry.named? entry.1 = none) = true := by
    decide +kernel
  obtain ⟨registry, registered, found⟩ := Fallible.exists_of_any computed
  obtain ⟨entry, member, holds⟩ := List.any_eq_true.1 found
  exact ⟨registry, registered, entry, member, of_decide_eq_true holds⟩

end InstructionSet
