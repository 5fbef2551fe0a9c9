import Mathlib.Data.List.Perm.Basic
import InstructionSet.Proofs.Grammar.Parameters
import InstructionSet.Proofs.Grammar.Writing

/-!
# Attributes in another order

The order of attributes plays no part, nor does the case in which a truth value is written. The same
is found under each key when attributes are rearranged (`Rearranged.lookup`), so they are read as
the same (`Construct.Reads.eq_ok_of_rearranged`), or refused as well. A key may stand for a truth
value with one construct and not be known to another, but no two constructs read it in different
ways (`IsTruthKey`): what may be rearranged can be said without knowing which construct will read
it.
-/

namespace InstructionSet.Grammar

open InstructionSet.Text

set_option autoImplicit false

/-! ## Attributes that are rearranged -/

/-- Whether every construct that knows a key reads true or false under it. -/
def IsTruthKey (key : String) : Prop :=
  ∀ construct : Construct, ∀ parameter ∈ construct.parameters, parameter.key = key →
    parameter.type = .truth ∨ parameter.type = .lane

/-- A construct of each kind. -/
def kindsOfConstruct : List Construct :=
  [.instruction "", .group none, .member "", .source, .staging, .immediate, .modifier,
    .enumerationValue]

theorem exists_kind (construct : Construct) :
    ∃ kind ∈ kindsOfConstruct, kind.parameters = construct.parameters := by
  cases construct with
  | instruction name => exact ⟨.instruction "", by decide, rfl⟩
  | group name? => exact ⟨.group none, by decide, rfl⟩
  | member name => exact ⟨.member "", by decide, rfl⟩
  | source => exact ⟨.source, by decide, rfl⟩
  | staging => exact ⟨.staging, by decide, rfl⟩
  | immediate => exact ⟨.immediate, by decide, rfl⟩
  | modifier => exact ⟨.modifier, by decide, rfl⟩
  | enumerationValue => exact ⟨.enumerationValue, by decide, rfl⟩

instance : DecidablePred IsTruthKey := fun key =>
  decidable_of_iff (∀ kind ∈ kindsOfConstruct, ∀ parameter ∈ kind.parameters,
      parameter.key = key → parameter.type = .truth ∨ parameter.type = .lane) <| by
    refine ⟨fun all construct parameter known => ?_, fun all kind _ => all kind⟩
    obtain ⟨kind, listed, same⟩ := exists_kind construct
    exact all kind listed parameter (same ▸ known)

/-- Values that say the same under a key: an identifier under the key of a truth value may be
written in another case. -/
inductive SameValue (key : String) (token other : Token) : Prop where
  | alike (alike : token.Alike other)
  | truth (isTruth : IsTruthKey key) (isIdentifier : token.kind = .identifier)
      (isIdentifier' : other.kind = .identifier)
      (same : token.lexeme.toLower = other.lexeme.toLower)

/-- Attributes under one key with values that say the same. -/
structure SamePair (pair other : String × Token) : Prop where
  key : pair.1 = other.1
  value : SameValue pair.1 pair.2 other.2

/-- The same attributes in any order, whose keys are in lower case. -/
def Rearranged (pairs others : AttributePairs) : Prop :=
  ∃ middle, pairs.Perm middle ∧ List.Forall₂ SamePair middle others

theorem SameValue.symm {key : String} {token other : Token} (same : SameValue key token other) :
    SameValue key other token := by
  cases same with
  | alike alike => exact .alike alike.symm
  | truth isTruth isIdentifier isIdentifier' same =>
      exact .truth isTruth isIdentifier' isIdentifier same.symm

theorem SameValue.alike_of_not {key : String} {token other : Token}
    (same : SameValue key token other) (plain : ¬ IsTruthKey key) : token.Alike other := by
  cases same with
  | alike alike => exact alike
  | truth isTruth => exact absurd isTruth plain

theorem SamePair.symm {pair other : String × Token} (same : SamePair pair other) :
    SamePair other pair :=
  ⟨same.key.symm, same.key ▸ same.value.symm⟩

theorem SamePair.refl (pair : String × Token) : SamePair pair pair :=
  ⟨rfl, .alike rfl⟩

namespace Rearranged

variable {pairs others : AttributePairs}

theorem refl (pairs : AttributePairs) : Rearranged pairs pairs :=
  ⟨pairs, .refl pairs, List.forall₂_same.2 fun pair _ => .refl pair⟩

theorem symm (rearranged : Rearranged pairs others) : Rearranged others pairs := by
  obtain ⟨middle, perm, same⟩ := rearranged
  obtain ⟨middle', same', perm'⟩ := List.perm_comp_forall₂ perm same
  exact ⟨middle', perm'.symm, same'.flip.imp fun _ _ => .symm⟩

theorem append {more further : AttributePairs} (first : Rearranged pairs others)
    (rest : Rearranged more further) : Rearranged (pairs ++ more) (others ++ further) := by
  obtain ⟨middle, perm, same⟩ := first
  obtain ⟨middle', perm', same'⟩ := rest
  exact ⟨middle ++ middle', perm.append perm', List.rel_append same same'⟩

theorem keys (rearranged : Rearranged pairs others) :
    (pairs.map (·.1)).Perm (others.map (·.1)) := by
  obtain ⟨middle, perm, same⟩ := rearranged
  have keys : middle.map (·.1) = others.map (·.1) :=
    Fallible.map_eq_map_iff.2 (same.imp fun _ _ same => same.key)
  exact keys ▸ perm.map _

theorem lookup_of_perm {middle : AttributePairs} (perm : pairs.Perm middle)
    (distinct : (pairs.map (·.1)).Nodup) (key : String) :
    pairs.lookup key = middle.lookup key := by
  have distinct' : (middle.map (·.1)).Nodup := (perm.map _).nodup_iff.1 distinct
  refine Option.ext fun value => ?_
  rw [NameMap.lookup_eq_some_iff distinct, NameMap.lookup_eq_some_iff distinct', perm.mem_iff]

/-- Under each key the same is found in attributes that are rearranged. -/
theorem lookup (rearranged : Rearranged pairs others) (distinct : (pairs.map (·.1)).Nodup)
    (key : String) : Option.Rel (SameValue key) (pairs.lookup key) (others.lookup key) := by
  obtain ⟨middle, perm, same⟩ := rearranged
  rw [lookup_of_perm perm distinct]
  clear perm distinct
  induction same with
  | nil => exact .none
  | @cons pair other middle others same _ ih =>
      rw [NameMap.lookup_cons_ite, NameMap.lookup_cons_ite, ← same.key]
      split
      next here => exact .some (here ▸ same.value)
      next => exact ih

end Rearranged

/-! ## Attributes that are rearranged are read as the same -/

namespace Attributes

open Fallible

/-- Attributes under whose keys the same is found. -/
structure Same (attributes others : Attributes) : Prop where
  /-- The values under a key say the same. -/
  values : ∀ key, Option.Rel (SameValue key) (attributes.find? key) (others.find? key)
  /-- The keys are the same. -/
  keys : (attributes.pairs.map (·.1)).Perm (others.pairs.map (·.1))

variable {α : Type} {attributes others : Attributes} (same : attributes.Same others) (key : String)

theorem agree_truth {token other : Token} (value : SameValue key token other) :
    Agree (attributes.truth key token) (others.truth key other) := by
  have truths : truthOf? token = truthOf? other := by
    cases value with
    | alike alike => rw [truthOf?, alike.kind, alike.lexeme, truthOf?]
    | truth _ isIdentifier isIdentifier' same =>
        rw [truthOf?, isIdentifier, same, truthOf?, isIdentifier']
  rw [truth, truth, truths]
  cases truthOf? other with
  | some value => exact .ok rfl
  | none => exact .error trivial

theorem agree_numeral (numeral : String → Except NumeralError α) {token other : Token}
    (alike : token.Alike other) :
    Agree (attributes.numeral numeral key token) (others.numeral numeral key other) := by
  rw [Attributes.numeral, Attributes.numeral, alike.lexeme]
  cases numeral other.lexeme with
  | ok value => exact .ok rfl
  | error error => exact .error trivial

theorem agree_number (numeral : String → Except NumeralError α) {token other : Token}
    (alike : token.Alike other) :
    Agree (attributes.number numeral key token) (others.number numeral key other) := by
  rw [number, number, alike.kind]
  split
  · exact agree_numeral key numeral alike
  · exact .error trivial

theorem agree_nameOf {token other : Token} (alike : token.Alike other) :
    Agree (attributes.nameOf key token) (others.nameOf key other) := by
  rw [nameOf, nameOf, alike.kind, alike.lexeme]
  split
  · exact .ok rfl
  · exact .error trivial

theorem agree_laneOf {token other : Token} (value : SameValue key token other) :
    Agree (attributes.laneOf key token) (others.laneOf key other) := by
  have truth : Agree (attributes.truth key token) (others.truth key other) := agree_truth key value
  cases value with
  | alike alike =>
      rw [laneOf, laneOf, alike.kind]
      split
      · exact (agree_numeral key _ alike).bind fun _ => .refl _
      · exact truth.bind fun _ => .refl _
  | truth _ isIdentifier isIdentifier' _ =>
      rw [laneOf, laneOf, isIdentifier, isIdentifier']
      exact truth.bind fun _ => .refl _

section Same

include same

theorem Same.optional {reading reading' : String → Token → Except SyntaxError α}
    (each : ∀ token other, SameValue key token other →
      Agree (reading key token) (reading' key other)) :
    Agree (attributes.optional reading key) (others.optional reading' key) := by
  have values := same.values key
  rw [Attributes.optional, Attributes.optional]
  generalize attributes.find? key = found, others.find? key = found' at values
  cases values with
  | none => exact .refl _
  | some value => exact (each _ _ value).map

theorem Same.required {reading reading' : String → Token → Except SyntaxError α}
    (each : ∀ token other, SameValue key token other →
      Agree (reading key token) (reading' key other)) :
    Agree (attributes.required reading key) (others.required reading' key) := by
  refine (same.optional key each).bind fun value? => ?_
  cases value? with
  | none => exact .error trivial
  | some value => exact .refl _

theorem Same.flag (assumed : Bool) :
    Agree (attributes.flag key assumed) (others.flag key assumed) :=
  (same.optional key fun _ _ => agree_truth key).map

theorem Same.lane? : Agree (attributes.optional attributes.laneOf key)
    (others.optional others.laneOf key) :=
  same.optional key fun _ _ => agree_laneOf key

theorem Same.byte? (plain : ¬ IsTruthKey key) :
    Agree (attributes.byte? key) (others.byte? key) :=
  same.optional key fun _ _ value => agree_number key _ (value.alike_of_not plain)

theorem Same.byte (plain : ¬ IsTruthKey key) : Agree (attributes.byte key) (others.byte key) :=
  same.required key fun _ _ value => agree_number key _ (value.alike_of_not plain)

theorem Same.word? (plain : ¬ IsTruthKey key) :
    Agree (attributes.word? key) (others.word? key) :=
  same.optional key fun _ _ value => agree_number key _ (value.alike_of_not plain)

theorem Same.name (plain : ¬ IsTruthKey key) : Agree (attributes.name key) (others.name key) :=
  same.required key fun _ _ value => agree_nameOf key (value.alike_of_not plain)

theorem Same.onlyKnown (known : List String) :
    Agree (attributes.onlyKnown known) (others.onlyKnown known) := by
  have both : (∃ done, attributes.onlyKnown known = .ok done) ↔
      ∃ done, others.onlyKnown known = .ok done := by
    have listed : ∀ pairs : AttributePairs, (∀ pair ∈ pairs, pair.1 ∈ known) ↔
        ∀ key ∈ pairs.map (·.1), key ∈ known := fun _ => List.forall_mem_map.symm
    rw [exists_onlyKnown_iff, exists_onlyKnown_iff, listed, listed]
    simp only [same.keys.mem_iff]
  cases first : attributes.onlyKnown known with
  | ok done =>
      obtain ⟨done', second⟩ := both.1 ⟨done, first⟩
      rw [second]
      exact .ok rfl
  | error fault =>
      cases second : others.onlyKnown known with
      | ok done =>
          obtain ⟨done', impossible⟩ := both.2 ⟨done, second⟩
          rw [first] at impossible
          cases impossible
      | error fault' => exact .error trivial

end Same

end Attributes

namespace Construct.Reads

open Attributes Fallible

variable {α : Type} {construct : Construct} {reading : Attributes → Except SyntaxError α}

/-- What a construct reads does not depend on the order of its attributes, nor on the case in which
truth values are written. -/
theorem agree (reads : construct.Reads reading) {attributes others : Attributes}
    (same : attributes.Same others) : Agree (reading attributes) (reading others) := by
  have size : ¬ IsTruthKey "size" := by decide
  have count : ¬ IsTruthKey "count" := by decide
  have start : ¬ IsTruthKey "start" := by decide
  have name : ¬ IsTruthKey "name" := by decide
  have opcode : ¬ IsTruthKey "opcode" := by decide
  have opcode2 : ¬ IsTruthKey "opcode2" := by decide
  have srcs : ¬ IsTruthKey "srcs" := by decide
  have dests : ¬ IsTruthKey "dests" := by decide
  have header : Agree attributes.header others.header :=
    (same.word? _ opcode).bind fun _ => (same.word? _ opcode2).bind fun _ =>
    (same.byte? _ srcs).bind fun _ => (same.byte? _ dests).bind fun _ =>
    (same.onlyKnown _).bind fun _ => .refl _
  cases reads with
  | instruction => exact header
  | group => exact header
  | member =>
      exact (same.word? _ opcode).bind fun _ => (same.word? _ opcode2).bind fun _ =>
        (same.onlyKnown _).bind fun _ => .refl _
  | source =>
      exact (same.lane? _).bind fun _ => (same.byte? _ size).bind fun _ =>
        (same.flag _ _).bind fun _ => (same.flag _ _).bind fun _ =>
        (same.flag _ _).bind fun _ => (same.flag _ _).bind fun _ =>
        (same.flag _ _).bind fun _ => (same.flag _ _).bind fun _ =>
        (same.onlyKnown _).bind fun _ => .refl _
  | staging =>
      exact (same.flag _ _).bind fun _ => (same.flag _ _).bind fun _ =>
        (same.byte? _ count).bind fun _ => (same.flag _ _).bind fun _ =>
        (same.onlyKnown _).bind fun _ => .refl _
  | immediate =>
      exact (same.name _ name).bind fun _ => (same.byte _ start).bind fun _ =>
        (same.byte _ size).bind fun _ => (same.flag _ _).bind fun _ =>
        (same.onlyKnown _).bind fun _ => .refl _
  | modifier =>
      exact (same.name _ name).bind fun _ => (same.byte _ start).bind fun _ =>
        (same.byte _ size).bind fun _ => (same.flag _ _).bind fun _ =>
        (same.onlyKnown _).bind fun _ => .refl _
  | enumerationValue =>
      exact (same.flag _ _).bind fun _ => (same.onlyKnown _).bind fun _ => .refl _

/-- Attributes that are rearranged are read as the same. -/
theorem eq_ok_of_rearranged (reads : construct.Reads reading) {pairs others : AttributePairs}
    (rearranged : Rearranged pairs others) (distinct : (pairs.map (·.1)).Nodup) {value : α}
    (read : reading ⟨construct, pairs⟩ = .ok value) :
    (others.map (·.1)).Nodup ∧ reading ⟨construct, others⟩ = .ok value := by
  have same : Same ⟨construct, pairs⟩ ⟨construct, others⟩ :=
    ⟨rearranged.lookup distinct, rearranged.keys⟩
  exact ⟨rearranged.keys.nodup_iff.1 distinct, (reads.agree same).eq_ok read⟩

end Construct.Reads

theorem Rearranged.accepted {construct : Construct} {pairs others : AttributePairs}
    (rearranged : Rearranged pairs others) (accepted : ¬ Refused construct pairs) :
    ¬ Refused construct others := by
  obtain ⟨α, reading, reads⟩ := construct.exists_reads
  obtain ⟨distinct, value, read⟩ := (reads.exists_iff pairs).2 accepted
  obtain ⟨distinct', read'⟩ := reads.eq_ok_of_rearranged rearranged distinct read
  exact (reads.exists_iff others).1 ⟨distinct', value, read'⟩

/-- Attributes that are rearranged, with keys in any case, have values of the same kinds. -/
theorem Rearranged.haveValues {pairs others : AttributePairs}
    (rearranged : Rearranged (Writing.lowerKeys pairs) (Writing.lowerKeys others))
    (values : Writing.HaveValues pairs) : Writing.HaveValues others := by
  obtain ⟨middle, perm, same⟩ := rearranged
  intro other listed
  obtain ⟨pair, among, samePair⟩ :=
    Fallible.exists_of_forall₂ same (List.mem_map_of_mem listed)
  obtain ⟨found, member, rfl⟩ := List.mem_map.1 (perm.mem_iff.2 among)
  have value := values found member
  cases samePair.value with
  | alike alike => rwa [alike.kind] at value
  | truth _ _ isIdentifier _ =>
      have kind : other.2.kind = .identifier := isIdentifier
      rw [kind]
      rfl

end InstructionSet.Grammar
