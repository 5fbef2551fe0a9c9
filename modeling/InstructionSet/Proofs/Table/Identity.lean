import InstructionSet.Proofs.Json.Compact
import InstructionSet.Table.Canonical
import Mathlib.Data.List.Basic
import Mathlib.Logic.Function.Iterate

/-!
# The canonical form identifies a table

Two tables have one canonical form exactly when they have the same instructions, enumerations and
lookup tables (`Table.canonical_eq_iff`): every part of a table has a JSON value of its own, and the
compact form of a value can be read in one way. The fingerprint is the digest of the canonical form,
and its sixty-four digits tell all the bits of the digest (`Digest.Words.hex_injective`). So two
tables that differ in anything but their warnings have different fingerprints, unless SHA-256 has
one digest for two messages (`Table.fingerprint_eq_iff`).
-/

namespace InstructionSet

set_option autoImplicit false

open Function

/-! ## Values from values -/

namespace Json

theorem byte_injective : Injective byte :=
  fun _ _ same => UInt8.toNat_inj.1 (number.inj same)

theorem word_injective : Injective word :=
  fun _ _ same => UInt32.toNat_inj.1 (number.inj same)

theorem ofList_injective {α : Type} {form : α → Json} (injective : Injective form) :
    Injective (ofList form) :=
  fun _ _ same => List.map_injective_iff.2 injective (list.inj same)

/-- An optional value is told from an absent one when no value has the form of the absent one. -/
theorem ofOption_injective {α : Type} {form : α → Json} (injective : Injective form)
    (present : ∀ value, form value ≠ .null) : Injective (ofOption form) := by
  intro first second same
  cases first with
  | none =>
      cases second with
      | none => rfl
      | some other => exact absurd same.symm (present other)
  | some value =>
      cases second with
      | none => exact absurd same (present value)
      | some other => exact congrArg some (injective same)

theorem dest_injective : Injective dest := by
  intro first second same
  simpa [dest] using same

end Json

/-! ## Parts of a table -/

/-- The sixty-four sets of capabilities have different texts. -/
theorem SourceTraits.json_injective : Injective SourceTraits.json := by
  have texts : ∀ a b c d e f a' b' c' d' e' f' : Bool,
      " | ".intercalate (names ⟨a, b, c, d, e, f⟩) =
          " | ".intercalate (names ⟨a', b', c', d', e', f'⟩) →
        mk a b c d e f = mk a' b' c' d' e' f' := by
    decide +kernel
  exact fun _ _ same => texts _ _ _ _ _ _ _ _ _ _ _ _ (Json.text.inj same)

theorem Source.json_injective : Injective Source.json := by
  intro first second same
  obtain ⟨name, index, size, traits, lane⟩ := first
  obtain ⟨name', index', size', traits', lane'⟩ := second
  simp only [json, Json.object.injEq, List.cons.injEq, Prod.mk.injEq, true_and, and_true,
    Json.text.injEq] at same
  obtain ⟨rfl, index, size, traits, lane, -⟩ := same
  cases Json.byte_injective index
  cases Json.byte_injective size
  cases SourceTraits.json_injective traits
  cases Json.ofOption_injective Json.byte_injective (by rintro _ ⟨⟩) lane
  rfl

theorem Staging.json_injective : Injective Staging.json := by
  intro first second same
  obtain ⟨⟨name, read, write, count, flags⟩, index⟩ := first
  obtain ⟨⟨name', read', write', count', flags'⟩, index'⟩ := second
  simp only [json, Json.object.injEq, List.cons.injEq, Prod.mk.injEq, true_and, and_true,
    Json.text.injEq, Json.boolean.injEq] at same
  obtain ⟨rfl, index, rfl, rfl, count, rfl, -⟩ := same
  cases Json.byte_injective index
  cases Json.byte_injective count
  rfl

theorem Immediate.json_injective : Injective Immediate.json := by
  intro first second same
  obtain ⟨name, start, size, signed⟩ := first
  obtain ⟨name', start', size', signed'⟩ := second
  simp only [json, Json.object.injEq, List.cons.injEq, Prod.mk.injEq, true_and, and_true,
    Json.text.injEq, Json.boolean.injEq] at same
  obtain ⟨rfl, start, size, rfl⟩ := same
  cases Json.byte_injective start
  cases Json.byte_injective size
  rfl

theorem Modifier.json_injective : Injective Modifier.json := by
  intro first second same
  obtain ⟨⟨name, start, size, implied⟩, values, default⟩ := first
  obtain ⟨⟨name', start', size', implied'⟩, values', default'⟩ := second
  simp only [json, ModifierPlacement.members, List.cons_append, List.nil_append,
    Json.object.injEq, List.cons.injEq, Prod.mk.injEq, true_and, and_true, Json.text.injEq,
    Json.boolean.injEq] at same
  obtain ⟨rfl, start, size, rfl, values, default⟩ := same
  cases Json.byte_injective start
  cases Json.byte_injective size
  cases Json.ofList_injective (fun _ _ => Json.text.inj) values
  cases Json.ofOption_injective (fun _ _ => Json.number.inj) (by rintro _ ⟨⟩) default
  rfl

theorem Instruction.json_injective : Injective Instruction.json := by
  intro first second same
  obtain ⟨name, opcode, opcode2, sources, dests, staging, immediates, modifiers⟩ := first
  obtain ⟨name', opcode', opcode2', sources', dests', staging', immediates', modifiers'⟩ := second
  simp only [json, Json.object.injEq, List.cons.injEq, Prod.mk.injEq, true_and, and_true,
    Json.text.injEq] at same
  obtain ⟨rfl, opcode, opcode2, sources, dests, staging, immediates, modifiers, -⟩ := same
  cases Json.word_injective opcode
  cases Json.ofOption_injective Json.word_injective (by rintro _ ⟨⟩) opcode2
  cases Json.ofList_injective Source.json_injective sources
  cases Json.ofList_injective Json.dest_injective dests
  cases Json.ofList_injective Staging.json_injective staging
  cases Json.ofList_injective Immediate.json_injective immediates
  cases Json.ofList_injective Modifier.json_injective modifiers
  rfl

theorem EnumerationValue.json_injective : Injective EnumerationValue.json := by
  intro first second same
  simp only [json, Json.object.injEq, List.cons.injEq, Prod.mk.injEq, true_and, and_true,
    Json.text.injEq, Json.boolean.injEq] at same
  exact congrArg₂ mk same.1 same.2

theorem Enumeration.json_injective : Injective Enumeration.json := by
  intro first second same
  simp only [json, Json.object.injEq, List.cons.injEq, Prod.mk.injEq, true_and, and_true,
    Json.text.injEq] at same
  exact congrArg₂ mk same.1 (Json.ofList_injective EnumerationValue.json_injective same.2)

theorem NameMap.json_injective {α : Type} {form : α → Json} (injective : Injective form) :
    Injective (NameMap.json form) := by
  intro first second same
  obtain ⟨entries, ascending⟩ := first
  obtain ⟨others, ascendingOthers⟩ := second
  congr 1
  refine List.map_injective_iff.2 ?_ (Json.object.inj same)
  rintro ⟨name, value⟩ ⟨name', value'⟩ same
  cases (Prod.mk.inj same).1
  cases injective (Prod.mk.inj same).2
  rfl

/-! ## Digests -/

namespace Digest

/-- Bytes are listed behind those that are listed already. -/
theorem toListLoop_eq (bytes : ByteArray) (place : Nat) (listed : List UInt8) :
    ByteArray.toList.loop bytes place listed =
      listed.reverse ++ bytes.data.toList.drop place := by
  fun_induction ByteArray.toList.loop bytes place listed with
  | case1 place listed inside ih =>
      have here : place < bytes.data.toList.length := by simpa using inside
      rw [ih, List.drop_eq_getElem_cons here]
      simp [ByteArray.get!, inside]
  | case2 place listed outside =>
      rw [List.drop_eq_nil_of_le (by simpa using Nat.le_of_not_lt outside), List.append_nil]

/-- A text is told by its bytes. -/
theorem bytes_injective : Injective fun text : String => text.toUTF8.toList := by
  intro text other same
  have data : text.toUTF8.data.toList = other.toUTF8.data.toList := by
    simpa only [ByteArray.toList, toListLoop_eq, List.reverse_nil, List.nil_append, List.drop_zero]
      using same
  exact String.toByteArray_inj.1 (ByteArray.ext (Array.toList_inj.1 data))

theorem length_hexDigits (count number : Nat) : (hexDigits count number).length = count := by
  induction count generalizing number with
  | zero => rfl
  | succ count ih => rw [hexDigits, List.length_append, ih, List.length_singleton]

/-- Numbers that agree above their last digits, and in these digits, are the same. -/
theorem hexDigits_inj {count number other : Nat}
    (above : Nat.iterate (· / 16) count number = Nat.iterate (· / 16) count other)
    (same : hexDigits count number = hexDigits count other) : number = other := by
  induction count generalizing number other with
  | zero => exact above
  | succ count ih =>
      have lengths := (length_hexDigits count (number / 16)).trans
        (length_hexDigits count (other / 16)).symm
      obtain ⟨high, low⟩ := List.append_inj same lengths
      have quotients : number / 16 = other / 16 := ih above high
      have remainders := Json.digitChar_inj (Nat.mod_lt number (by decide))
        (Nat.mod_lt other (by decide)) (List.cons.inj low).1
      omega

theorem hexDigits_word_inj {word other : UInt32}
    (same : hexDigits 8 word.toNat = hexDigits 8 other.toNat) : word = other := by
  have none : ∀ word : UInt32, Nat.iterate (· / 16) 8 word.toNat = 0 := by
    intro word
    have small := word.toNat_lt
    show word.toNat / 16 / 16 / 16 / 16 / 16 / 16 / 16 / 16 = 0
    omega
  exact UInt32.toNat_inj.1 (hexDigits_inj ((none word).trans (none other).symm) same)

theorem flatMap_hexDigits_inj {words others : List UInt32}
    (same : words.flatMap (fun word => hexDigits 8 word.toNat) =
      others.flatMap fun word => hexDigits 8 word.toNat)
    (count : words.length = others.length) : words = others := by
  induction words generalizing others with
  | nil => exact (List.length_eq_zero_iff.1 count.symm).symm
  | cons word words ih =>
      cases others with
      | nil => cases count
      | cons other others =>
          rw [List.flatMap_cons, List.flatMap_cons] at same
          obtain ⟨first, further⟩ := List.append_inj same
            ((length_hexDigits 8 _).trans (length_hexDigits 8 _).symm)
          exact congrArg₂ _ (hexDigits_word_inj first) (ih further (Nat.succ.inj count))

/-- The hexadecimal digits of a digest tell all its words. -/
theorem Words.hex_injective : Injective Words.hex := by
  intro first second same
  have words : first.toList = second.toList :=
    flatMap_hexDigits_inj (String.ofList_inj.1 same) rfl
  obtain ⟨a, b, c, d, e, f, g, h⟩ := first
  simp only [toList, List.cons.injEq, and_true] at words
  obtain ⟨rfl, rfl, rfl, rfl, rfl, rfl, rfl, rfl⟩ := words
  rfl

/-- Two messages that have one digest. -/
def Collision (message other : List UInt8) : Prop :=
  message ≠ other ∧ Sha256.digest message = Sha256.digest other

end Digest

/-! ## Tables -/

namespace Table

variable {first second : Table}

theorem json_eq_iff : first.json = second.json ↔
    first.instructions = second.instructions ∧ first.enums = second.enums ∧
      first.luts = second.luts := by
  simp only [json, Json.object.injEq, List.cons.injEq, Prod.mk.injEq, true_and, and_true,
    (Json.ofList_injective Instruction.json_injective).eq_iff,
    (NameMap.json_injective Enumeration.json_injective).eq_iff,
    (NameMap.json_injective (Json.ofList_injective Json.word_injective)).eq_iff]

theorem canonical_eq_iff : first.canonical = second.canonical ↔
    first.instructions = second.instructions ∧ first.enums = second.enums ∧
      first.luts = second.luts := by
  rw [canonical, canonical, String.ofList_inj, Json.compact_injective.eq_iff, json_eq_iff]

/-- Tables have one fingerprint when their canonical forms are the same or have one digest. -/
theorem fingerprint_eq_iff : first.fingerprint = second.fingerprint ↔
    first.canonical = second.canonical ∨
      Digest.Collision first.canonical.toUTF8.toList second.canonical.toUTF8.toList := by
  rw [fingerprint, fingerprint, Digest.Words.hex_injective.eq_iff]
  constructor
  · intro same
    by_cases equal : first.canonical = second.canonical
    · exact .inl equal
    · exact .inr ⟨fun bytes => equal (Digest.bytes_injective bytes), same⟩
  · rintro (equal | ⟨-, same⟩)
    · rw [digest, digest, equal]
    · exact same

/-- **The canonical form identifies the table.** Tables have one canonical form when they have the
same instructions, enumerations and lookup tables. The digits of a digest tell the whole digest, so
tables with one fingerprint are the same but for their warnings, unless their canonical forms are
two messages with one digest. -/
theorem canonical_identifies (first second : Table) :
    (first.canonical = second.canonical ↔
      first.instructions = second.instructions ∧ first.enums = second.enums ∧
        first.luts = second.luts) ∧
    (first.fingerprint = second.fingerprint ↔
      (first.instructions = second.instructions ∧ first.enums = second.enums ∧
        first.luts = second.luts) ∨
      Digest.Collision first.canonical.toUTF8.toList second.canonical.toUTF8.toList) ∧
    Injective Digest.Words.hex := by
  refine ⟨canonical_eq_iff, ?_, Digest.Words.hex_injective⟩
  rw [fingerprint_eq_iff, canonical_eq_iff]

end Table
end InstructionSet
