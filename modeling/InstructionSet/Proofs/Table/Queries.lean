import InstructionSet.Proofs.Expansion.Desugaring
import InstructionSet.Proofs.Table.Arrangement
import InstructionSet.Proofs.Table.WellFormed

/-!
# What a table answers

A table finds instructions by name through an index of their places. In the index every instruction
would take over the name of an earlier one, but in an accepted document no two instructions have one
name, so each of them is in it at its own place (`Table.find?_index_iff`) and is found under its
name (`Table.get?_eq_some_iff`). The other queries go through the instructions or the lookup tables
themselves. What all of them answer is said by the instructions of the table and the lookup tables
of the document alone (`Table.Answers`).
-/

namespace InstructionSet

set_option autoImplicit false

open Fallible

namespace Table

variable {table : Table}

/-! ## By name -/

/-- An instruction is indexed at its own place when no two have one name. -/
theorem find?_index_iff (distinct : (table.instructions.map (·.name)).Nodup) {name : String}
    {place : Nat} : table.index.find? name = some place ↔
      ∃ instruction, table.instructions[place]? = some instruction ∧ instruction.name = name := by
  have names : (table.instructions.zipIdx.map fun entry => (entry.1.name, entry.2)).map (·.1) =
      table.instructions.map (·.name) := by
    rw [List.map_map, ← List.zipIdx_map_fst 0 table.instructions, List.map_map]
    simp
  obtain ⟨index, enters⟩ := NameMap.exists_enters_empty_iff.2 (names ▸ distinct)
  have same : table.index = index := by
    rw [← enters.foldl_insert, List.foldl_map]
    rfl
  rw [same, (NameMap.enters_empty_iff.1 enters).2 name place, List.mem_map]
  constructor
  · rintro ⟨⟨instruction, found⟩, member, rfl, rfl⟩
    exact ⟨instruction, List.mem_zipIdx_iff_getElem?.1 member, rfl⟩
  · rintro ⟨instruction, found, rfl⟩
    exact ⟨(instruction, place), List.mem_zipIdx_iff_getElem?.2 found, rfl⟩

/-- The index leads to no place outside the table. -/
theorem lt_of_find?_index (distinct : (table.instructions.map (·.name)).Nodup) {name : String}
    {place : Nat} (indexed : table.index.find? name = some place) :
    place < table.instructions.length := by
  obtain ⟨instruction, found, -⟩ := (find?_index_iff distinct).1 indexed
  exact (List.getElem?_eq_some_iff.1 found).1

/-- An instruction is found under its own name and no other when no two have one name. -/
theorem get?_eq_some_iff (distinct : (table.instructions.map (·.name)).Nodup) {name : String}
    {instruction : Instruction} : table.get? name = some instruction ↔
      instruction ∈ table.instructions ∧ instruction.name = name := by
  rw [get?, Option.bind_eq_some_iff]
  constructor
  · rintro ⟨place, indexed, found⟩
    obtain ⟨named, same, rfl⟩ := (find?_index_iff distinct).1 indexed
    obtain rfl : named = instruction := Option.some.inj (same.symm.trans found)
    exact ⟨List.mem_of_getElem? found, rfl⟩
  · rintro ⟨member, named⟩
    obtain ⟨place, found⟩ := List.getElem?_of_mem member
    exact ⟨place, (find?_index_iff distinct).2 ⟨instruction, found, named⟩, found⟩

/-! ## By opcode -/

theorem mem_byOpcode_iff {opcode : UInt32} {instruction : Instruction} :
    instruction ∈ table.byOpcode opcode ↔
      instruction ∈ table.instructions ∧ instruction.opcode = opcode := by
  rw [byOpcode, List.mem_filter, decide_eq_true_eq]

/-- The instruction has the opcodes; lacking a secondary one is having none. -/
def HasOpcodes (opcode : UInt32) (opcode2 : Option UInt32) (instruction : Instruction) : Prop :=
  instruction.opcode = opcode ∧ instruction.opcode2 = opcode2

theorem lookup?_eq_find? (opcode : UInt32) (opcode2 : Option UInt32) :
    table.lookup? opcode opcode2 = table.instructions.find? fun instruction =>
      instruction.opcode = opcode ∧ instruction.opcode2 = opcode2 := by
  rw [lookup?, byOpcode, List.find?_filter]
  simp only [Bool.decide_and, Bool.decide_eq_true]

/-- Looking opcodes up answers the first instruction that has them. -/
theorem lookup?_eq_some_iff {opcode : UInt32} {opcode2 : Option UInt32}
    {instruction : Instruction} : table.lookup? opcode opcode2 = some instruction ↔
      HasOpcodes opcode opcode2 instruction ∧
        ∃ before behind, table.instructions = before ++ instruction :: behind ∧
          ∀ earlier ∈ before, ¬ HasOpcodes opcode opcode2 earlier := by
  rw [lookup?_eq_find?, List.find?_eq_some_iff_append]
  simp only [decide_eq_true_eq, Bool.not_eq_true', decide_eq_false_iff_not, HasOpcodes]

theorem lookup?_eq_none_iff {opcode : UInt32} {opcode2 : Option UInt32} :
    table.lookup? opcode opcode2 = none ↔
      ∀ instruction ∈ table.instructions, ¬ HasOpcodes opcode opcode2 instruction := by
  rw [lookup?_eq_find?, List.find?_eq_none]
  simp only [decide_eq_true_eq, HasOpcodes]

/-! ## Constants -/

/-- The immediate constants of an accepted document are those of its lookup table of this name. -/
theorem Accepted.immediates_eq {document : Document} {catalog : Catalog}
    (accepted : Accepted document catalog table) {lut : LookupTable}
    (member : lut ∈ document.lookupTables) (named : lut.name = immediatesName) :
    table.immediates = lut.values := by
  have lists := (Constants.ofTables_eq_ok_iff.1 accepted.luts).2
  have found : table.luts.find? immediatesName = some lut.values :=
    (lists _ _).2 (List.mem_map.2 ⟨lut, member, Prod.ext named rfl⟩)
  rw [immediates, found, Option.getD_some]

theorem Accepted.immediates_eq_nil {document : Document} {catalog : Catalog}
    (accepted : Accepted document catalog table)
    (absent : ∀ lut ∈ document.lookupTables, lut.name ≠ immediatesName) :
    table.immediates = [] := by
  have lists := (Constants.ofTables_eq_ok_iff.1 accepted.luts).2
  have missing : table.luts.find? immediatesName = none := by
    refine Option.eq_none_iff_forall_ne_some.2 fun values found => ?_
    obtain ⟨lut, member, same⟩ := List.mem_map.1 ((lists _ _).1 found)
    exact absent lut member (congrArg Prod.fst same)
  rw [immediates, missing, Option.getD_none]

/-! ## All queries -/

/-- The queries of a table answer what its instructions and the lookup tables of its document
say. -/
structure Answers (document : Document) (table : Table) : Prop where
  /-- An instruction is found under its own name and no other. -/
  get : ∀ name instruction, table.get? name = some instruction ↔
    instruction ∈ table.instructions ∧ instruction.name = name
  /-- A name leads to no place outside the table. -/
  index : ∀ name place, table.index.find? name = some place → place < table.instructions.length
  /-- The instructions with a primary opcode come in the order of the table. -/
  byOpcode : ∀ opcode, (table.byOpcode opcode).Sublist table.instructions ∧
    ∀ instruction, instruction ∈ table.byOpcode opcode ↔
      instruction ∈ table.instructions ∧ instruction.opcode = opcode
  /-- Looking opcodes up answers the first instruction that has them. -/
  lookup : ∀ opcode opcode2 instruction, table.lookup? opcode opcode2 = some instruction ↔
    HasOpcodes opcode opcode2 instruction ∧
      ∃ before behind, table.instructions = before ++ instruction :: behind ∧
        ∀ earlier ∈ before, ¬ HasOpcodes opcode opcode2 earlier
  /-- Looking opcodes up answers nothing when no instruction has them. -/
  lookupNone : ∀ opcode opcode2, table.lookup? opcode opcode2 = none ↔
    ∀ instruction ∈ table.instructions, ¬ HasOpcodes opcode opcode2 instruction
  /-- The immediate constants are those of the lookup table of this name. -/
  immediates : ∀ lut ∈ document.lookupTables, lut.name = "Immediates" →
    table.immediates = lut.values
  /-- Without such a lookup table there are no immediate constants. -/
  noImmediates : (∀ lut ∈ document.lookupTables, lut.name ≠ "Immediates") → table.immediates = []

/-- **A table answers by its instructions and lookup tables**, whatever document and catalog it was
made from. -/
theorem answers_of_ofDocument {document : Document} {catalog : Catalog}
    (accepts : ofDocument document catalog = .ok table) : table.Answers document where
  get _ _ := get?_eq_some_iff (accepted_of_ofDocument accepts).valid.1
  index _ _ := lt_of_find?_index (accepted_of_ofDocument accepts).valid.1
  byOpcode _ := ⟨List.filter_sublist, fun _ => mem_byOpcode_iff⟩
  lookup _ _ _ := lookup?_eq_some_iff
  lookupNone _ _ := lookup?_eq_none_iff
  immediates _ := (accepted_of_ofDocument accepts).immediates_eq
  noImmediates := (accepted_of_ofDocument accepts).immediates_eq_nil

end Table

/-- Moves of one primary opcode, behind a table of constants. -/
def Document.movesOfConstants : Document where
  path := "moves.isa"
  directives := .constants :: moves.directives

theorem Table.answers_of_ofDocument_moves :
    ∃ table, ofDocument .movesOfConstants .standard = .ok table ∧
      table.Answers .movesOfConstants ∧ table.immediates = [0, 1] := by
  obtain ⟨table, accepts⟩ : ∃ table, ofDocument .movesOfConstants .standard = .ok table :=
    exists_eq_ok (by decide +kernel)
  have answers := answers_of_ofDocument accepts
  exact ⟨table, accepts, answers, answers.immediates _ List.mem_cons_self rfl⟩

end InstructionSet
