/-!
# Maps by name

A finite map from names to values, kept as the list of its entries in strictly ascending order of
names. The order makes the representation canonical: a map is determined by what is found under
each name, in whatever order its entries were inserted. Names are compared by code points, which
is also the order of their UTF-8 bytes.
-/

namespace InstructionSet

set_option autoImplicit false

variable {α : Type}

/-- Two entries with the name of the first in front of the name of the second. -/
def Ahead (first second : String × α) : Prop := first.1 < second.1

/-- A finite map from names to values. -/
structure NameMap (α : Type) where
  /-- The entries in ascending order of names. -/
  entries : List (String × α)
  /-- No name occurs twice, and the names ascend. -/
  ascending : entries.Pairwise Ahead

namespace NameMap

/-- The map without entries. -/
def empty : NameMap α := ⟨[], .nil⟩

/-- Puts an entry at its place among ascending entries, in place of one with the same name. -/
def place (name : String) (value : α) : List (String × α) → List (String × α)
  | [] => [(name, value)]
  | entry :: rest =>
      if name < entry.1 then (name, value) :: entry :: rest
      else if entry.1 < name then entry :: place name value rest
      else (name, value) :: rest

theorem mem_place {name : String} {value : α} {entries : List (String × α)}
    {found : String × α} (member : found ∈ place name value entries) :
    found = (name, value) ∨ found ∈ entries := by
  induction entries with
  | nil => simpa [place] using member
  | cons entry rest ih =>
      simp only [place] at member
      split at member
      · simpa using member
      · split at member
        · rcases List.mem_cons.1 member with same | later
          · exact .inr (same ▸ List.mem_cons_self)
          · exact (ih later).imp_right (List.mem_cons_of_mem _)
        · rcases List.mem_cons.1 member with same | later
          · exact .inl same
          · exact .inr (List.mem_cons_of_mem _ later)

theorem eq_of_not_lt {first second : String} (notBelow : ¬ first < second)
    (notAbove : ¬ second < first) : first = second :=
  String.le_antisymm (String.not_lt.1 notAbove) (String.not_lt.1 notBelow)

theorem ascending_place {name : String} {value : α} {entries : List (String × α)}
    (ascending : entries.Pairwise Ahead) : (place name value entries).Pairwise Ahead := by
  induction entries with
  | nil => simp [place]
  | cons entry rest ih =>
      obtain ⟨ahead, ascendingRest⟩ := List.pairwise_cons.1 ascending
      simp only [place]
      split
      next below =>
        refine List.pairwise_cons.2 ⟨fun found member => ?_, ascending⟩
        rcases List.mem_cons.1 member with rfl | later
        · exact below
        · exact String.lt_trans below (ahead found later)
      next notBelow =>
        split
        next above =>
          refine List.pairwise_cons.2 ⟨fun found member => ?_, ih ascendingRest⟩
          rcases mem_place member with rfl | later
          · exact above
          · exact ahead found later
        next notAbove =>
          have same : name = entry.1 := eq_of_not_lt notBelow notAbove
          refine List.pairwise_cons.2 ⟨fun found member => ?_, ascendingRest⟩
          show name < found.1
          rw [same]
          exact ahead found member

/-- The map with a value under a name, in place of what was there before. -/
def insert (map : NameMap α) (name : String) (value : α) : NameMap α :=
  ⟨place name value map.entries, ascending_place map.ascending⟩

/-- The value under a name. -/
def find? (map : NameMap α) (name : String) : Option α :=
  map.entries.lookup name

theorem lookup_cons_ite (wanted : String) (entry : String × α) (rest : List (String × α)) :
    (entry :: rest).lookup wanted =
      if wanted = entry.1 then some entry.2 else rest.lookup wanted := by
  obtain ⟨name, value⟩ := entry
  by_cases here : wanted = name
  · simp [here]
  · simp [List.lookup_cons, beq_eq_false_iff_ne.2 here, here]

theorem lookup_place (name wanted : String) (value : α) (entries : List (String × α)) :
    (place name value entries).lookup wanted =
      if wanted = name then some value else entries.lookup wanted := by
  induction entries with
  | nil => exact lookup_cons_ite wanted (name, value) []
  | cons entry rest ih =>
      simp only [place]
      split
      next => exact lookup_cons_ite wanted (name, value) (entry :: rest)
      next =>
        split
        next above =>
          rw [lookup_cons_ite, lookup_cons_ite, ih]
          by_cases here : wanted = entry.1
          · have other : wanted ≠ name := here ▸ String.ne_of_lt above
            simp only [if_pos here, if_neg other]
          · simp only [if_neg here]
        next notBelow notAbove =>
          rw [lookup_cons_ite, lookup_cons_ite]
          have same : name = entry.1 := eq_of_not_lt notBelow notAbove
          by_cases here : wanted = name
          · simp only [if_pos here]
          · simp only [if_neg here, if_neg (same ▸ here)]

/-- After an insertion the inserted name has the inserted value, and every other name has what it
had before. -/
theorem find?_insert (map : NameMap α) (name wanted : String) (value : α) :
    (map.insert name value).find? wanted = if wanted = name then some value else map.find? wanted :=
  lookup_place name wanted value map.entries

theorem mem_of_lookup {name : String} {value : α} {entries : List (String × α)}
    (found : entries.lookup name = some value) : (name, value) ∈ entries := by
  induction entries with
  | nil => cases found
  | cons entry rest ih =>
      rw [lookup_cons_ite] at found
      split at found
      next same =>
        cases found
        rw [same]
        exact List.mem_cons_self
      next => exact List.mem_cons_of_mem _ (ih found)

/-- What is found under a name is an entry of the map. -/
theorem mem_entries_of_find? {map : NameMap α} {name : String} {value : α}
    (found : map.find? name = some value) : (name, value) ∈ map.entries :=
  mem_of_lookup found

/-- Whether there is a value under a name. -/
def contains (map : NameMap α) (name : String) : Bool :=
  (map.find? name).isSome

/-- The names in ascending order. -/
def names (map : NameMap α) : List String :=
  map.entries.map (·.1)

/-- The number of entries. -/
def size (map : NameMap α) : Nat :=
  map.entries.length

end NameMap
end InstructionSet
