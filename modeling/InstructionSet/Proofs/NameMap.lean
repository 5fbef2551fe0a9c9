import InstructionSet.NameMap
import Mathlib.Data.List.Sort

/-!
# What a map holds

The entries of a map are in order, so they are determined by what is found under each name
(`NameMap.ext`). What is found is stated by a list of entries in any order (`NameMap.Lists`): two
maps that list the same entries are the same map, in whatever order these were inserted.

Entries enter a map one after the other, each under a name that is still free
(`NameMap.Enters`). All of them enter the empty map exactly when their names are distinct, and the
map then lists them (`NameMap.enters_empty_iff`).
-/

namespace InstructionSet

set_option autoImplicit false

variable {α : Type}

theorem Ahead.irrefl (entry : String × α) : ¬ Ahead entry entry :=
  String.lt_irrefl entry.1

theorem Ahead.asymm {first second : String × α} (ahead : Ahead first second) :
    ¬ Ahead second first :=
  String.lt_asymm ahead

namespace NameMap

variable {map first second final : NameMap α} {name : String} {value : α}
  {pairs : List (String × α)}

/-! ## A map is what is found in it -/

/-- What is looked up under a name is the entry with that name, where no two have one name. -/
theorem lookup_eq_some_iff {entries : List (String × α)} (distinct : (entries.map (·.1)).Nodup) :
    entries.lookup name = some value ↔ (name, value) ∈ entries := by
  refine ⟨mem_of_lookup, fun member => ?_⟩
  induction entries with
  | nil => cases member
  | cons entry rest ih =>
      obtain ⟨isNew, distinct⟩ := List.nodup_cons.1 distinct
      rw [lookup_cons_ite]
      rcases List.mem_cons.1 member with rfl | later
      · exact if_pos rfl
      · have other : name ≠ entry.1 := by
          rintro rfl
          exact isNew (List.mem_map.2 ⟨_, later, rfl⟩)
        rw [if_neg other]
        exact ih distinct later

theorem nodup_of_ascending {entries : List (String × α)} (ascending : entries.Pairwise Ahead) :
    (entries.map (·.1)).Nodup :=
  List.pairwise_map.2 (ascending.imp fun ahead => String.ne_of_lt ahead)

/-- What is found under a name is the entry with that name. -/
theorem find?_eq_some_iff : map.find? name = some value ↔ (name, value) ∈ map.entries :=
  lookup_eq_some_iff (nodup_of_ascending map.ascending)

/-- Maps in which the same is found under each name are the same. -/
theorem ext (same : ∀ name, first.find? name = second.find? name) : first = second := by
  have irrefl : Std.Irrefl (Ahead (α := α)) := ⟨Ahead.irrefl⟩
  have antisymm : Std.Antisymm (Ahead (α := α)) :=
    ⟨fun _ _ ahead behind => absurd behind ahead.asymm⟩
  obtain ⟨entries, ascending⟩ := first
  obtain ⟨others, ascendingOthers⟩ := second
  congr 1
  refine ascending.eq_of_mem_iff ascendingOthers fun entry => ?_
  have listed : ∀ map : NameMap α, entry ∈ map.entries ↔ map.find? entry.1 = some entry.2 :=
    fun _ => find?_eq_some_iff.symm
  rw [listed ⟨entries, ascending⟩, same, ← listed ⟨others, ascendingOthers⟩]

/-! ## Maps and lists of entries -/

/-- The map has the listed entries and no others. -/
def Lists (map : NameMap α) (pairs : List (String × α)) : Prop :=
  ∀ name value, map.find? name = some value ↔ (name, value) ∈ pairs

theorem find?_empty (name : String) : (empty : NameMap α).find? name = none := rfl

theorem lists_empty : (empty : NameMap α).Lists [] := by
  intro name value
  simp [find?_empty]

theorem Lists.insert (lists : map.Lists pairs) (free : map.find? name = none) (value : α) :
    (map.insert name value).Lists ((name, value) :: pairs) := by
  intro wanted found
  rw [find?_insert, List.mem_cons, ← lists wanted found, Prod.mk.injEq]
  by_cases here : wanted = name
  · rw [if_pos here, here, free]
    simp [eq_comm]
  · simp [here]

/-- Maps that list the same entries are the same. -/
theorem Lists.unique (lists : first.Lists pairs) (alike : second.Lists pairs) : first = second := by
  refine ext fun name => Option.ext fun value => ?_
  rw [lists name value, alike name value]

/-- Entries are listed in any order. -/
theorem lists_iff_of_perm {others : List (String × α)} (same : pairs.Perm others) :
    map.Lists pairs ↔ map.Lists others := by
  simp only [Lists, same.mem_iff]

theorem Lists.mono {others : List (String × α)} (lists : first.Lists pairs)
    (larger : second.Lists others) (subset : pairs ⊆ others) : first.entries ⊆ second.entries := by
  intro entry member
  refine find?_eq_some_iff.1 ((larger _ _).2 (subset ((lists _ _).1 ?_)))
  exact find?_eq_some_iff.2 member

/-! ## Entries that enter a map -/

/-- The entries enter the map one after the other, each under a name that is free. -/
inductive Enters : NameMap α → List (String × α) → NameMap α → Prop where
  | nil (map : NameMap α) : Enters map [] map
  | cons {map final : NameMap α} {name : String} {value : α} {pairs : List (String × α)}
      (free : map.find? name = none) (others : Enters (map.insert name value) pairs final) :
      Enters map ((name, value) :: pairs) final

theorem Enters.lists {before : List (String × α)} (enters : Enters map pairs final)
    (lists : map.Lists before) : final.Lists (pairs.reverse ++ before) := by
  induction enters generalizing before with
  | nil map => exact lists
  | cons free others ih =>
      rw [List.reverse_cons, List.append_assoc]
      exact ih (lists.insert free _)

/-- Entries that enter a map are inserted one after the other. -/
theorem Enters.foldl_insert (enters : Enters map pairs final) :
    pairs.foldl (fun map pair => map.insert pair.1 pair.2) map = final := by
  induction enters with
  | nil map => rfl
  | cons free others ih => exact ih

/-- Entries enter a map when their names are distinct and none of them is taken. -/
theorem exists_enters_iff : (∃ final, Enters map pairs final) ↔
    (pairs.map (·.1)).Nodup ∧ ∀ pair ∈ pairs, map.find? pair.1 = none := by
  induction pairs generalizing map with
  | nil => exact ⟨fun _ => ⟨.nil, by simp⟩, fun _ => ⟨map, .nil map⟩⟩
  | cons pair pairs ih =>
      obtain ⟨name, value⟩ := pair
      have others : (∀ pair ∈ pairs, (map.insert name value).find? pair.1 = none) ↔
          name ∉ pairs.map (·.1) ∧ ∀ pair ∈ pairs, map.find? pair.1 = none := by
        simp only [find?_insert, List.mem_map, not_exists, not_and]
        constructor
        · intro free
          refine ⟨fun pair member same => ?_, fun pair member => ?_⟩
          · simpa [same] using free pair member
          · by_cases same : pair.1 = name
            · simpa [same] using free pair member
            · simpa [same] using free pair member
        · rintro ⟨apart, free⟩ pair member
          rw [if_neg (apart pair member)]
          exact free pair member
      rw [List.map_cons, List.nodup_cons, List.forall_mem_cons]
      constructor
      · rintro ⟨final, enters⟩
        cases enters with
        | cons free rest =>
            obtain ⟨distinct, rest⟩ := ih.1 ⟨final, rest⟩
            obtain ⟨apart, rest⟩ := others.1 rest
            exact ⟨⟨apart, distinct⟩, free, rest⟩
      · rintro ⟨⟨apart, distinct⟩, free, rest⟩
        obtain ⟨final, enters⟩ := ih.2 ⟨distinct, others.2 ⟨apart, rest⟩⟩
        exact ⟨final, .cons free enters⟩

/-- Entries enter the empty map when their names are distinct, and make the map that lists them. -/
theorem enters_empty_iff : Enters .empty pairs final ↔
    (pairs.map (·.1)).Nodup ∧ final.Lists pairs := by
  have listed : ∀ {made : NameMap α}, Enters .empty pairs made → made.Lists pairs := by
    intro made enters name value
    rw [enters.lists lists_empty name value, List.append_nil, List.mem_reverse]
  constructor
  · intro enters
    exact ⟨(exists_enters_iff.1 ⟨final, enters⟩).1, listed enters⟩
  · rintro ⟨distinct, lists⟩
    obtain ⟨made, enters⟩ := exists_enters_iff.2 ⟨distinct, fun pair _ => find?_empty pair.1⟩
    rwa [lists.unique (listed enters)]

theorem exists_enters_empty_iff :
    (∃ final, Enters .empty pairs final) ↔ (pairs.map (·.1)).Nodup :=
  exists_enters_iff.trans (and_iff_left fun pair _ => find?_empty pair.1)

end NameMap
end InstructionSet
