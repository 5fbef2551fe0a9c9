import InstructionSet.Proofs.Expansion.Sessions
import InstructionSet.Proofs.Instruction.Built
import InstructionSet.Proofs.NameMap

/-!
# The rules of building

An instruction is built from a header on top of a template and from a layout. Ten rules say what
these have to be like (`BrokenRule`): the header is complete, a byte counts the sources,
capabilities fit the places and widths of their sources, at most two staging registers stand
without destinations, and every modifier is known, has bits and finds its values.

Building refuses exactly what breaks one of these rules, whatever was built before
(`Expansion.refuses_iff_broken`). The rules are checked one after the other, and only the first one
that is broken is reported; which of them are broken does not depend on this order. When none is,
the instruction has the operands of its layout in the order of their declarations, those without an
entry last (`Instruction.Carries`).

The rules and what is carried are said of the entries of the layout as they are declared. What the
entries of one kind declare, in order, is said by `LayoutEntry.Lists`; that the layout is read in
the same way is `LayoutEntry.Reads.lists_iff`.
-/

namespace InstructionSet

set_option autoImplicit false

open Fallible

/-! ## The rules -/

/-- What the entries of one kind declare, in order. The kind is given by the entry that it makes of
a value. -/
inductive LayoutEntry.Lists {α : Type} (kind : α → LayoutEntry) :
    List LayoutEntry → List α → Prop where
  /-- Without entries nothing is declared. -/
  | nil : Lists kind [] []
  /-- An entry of the kind declares its value. -/
  | keep (value : α) {entries : List LayoutEntry} {values : List α}
      (behind : Lists kind entries values) : Lists kind (kind value :: entries) (value :: values)
  /-- An entry of another kind does not count. -/
  | drop {entry : LayoutEntry} {entries : List LayoutEntry} {values : List α}
      (other : ∀ value, entry ≠ kind value) (behind : Lists kind entries values) :
      Lists kind (entry :: entries) values

/-- The entry of a layout with a reference to a modifier. -/
def ModifierReference.entry : ModifierReference → LayoutEntry
  | .placed placement => .modifier placement
  | .tagged tag => .tag tag

/-- A modifier is placed by the layout, or by the catalog under a tag of the layout. -/
def Layout.Refers (layout : Layout) (catalog : Catalog) (placement : ModifierPlacement) : Prop :=
  .modifier placement ∈ layout.entries ∨
    ∃ tag, .tag tag ∈ layout.entries ∧ catalog.find? tag = some placement

/-- A rule of building that a header on top of a template, and a layout, break. -/
inductive BrokenRule (overrides template : PartialHeader) (layout : Layout) (catalog : Catalog)
    (enums : Registry) : Prop where
  /-- Nothing gives a name. -/
  | nameless (overriding : overrides.name = none) (underlying : template.name = none)
  /-- Nothing gives a primary opcode. -/
  | opcodeless (overriding : overrides.opcodes.primary = none)
      (underlying : template.opcodes.primary = none)
  /-- There are more sources than a byte counts. -/
  | tooManySources (forms : List SourceForm)
      (listed : LayoutEntry.Lists .source layout.entries forms)
      (many : 256 < forms.length + layout.plainSources.toNat)
  /-- A source behind the third one has a capability that needs a slot. -/
  | lateSource (forms : List SourceForm) (listed : LayoutEntry.Lists .source layout.entries forms)
      (place : Nat) (form : SourceForm) (found : forms[place]? = some form) (late : 2 < place)
      (slotted : form.traits.absNeg = true ∨ form.traits.swizzle = true)
  /-- A source that can be swizzled is neither sixteen nor thirty-two bits wide. -/
  | swizzleWidth (name : String) (form : SourceForm)
      (named : (overrides.name <|> template.name) = some name)
      (declared : .source form ∈ layout.entries) (swizzled : form.traits.swizzle = true)
      (width : form.size.getD (Mnemonic.width name) ∉ [16, 32])
  /-- There are more than two staging registers. -/
  | tooManyStaging (forms : List StagingForm)
      (listed : LayoutEntry.Lists .staging layout.entries forms) (many : 2 < forms.length)
  /-- There are destinations, with or without an entry, and staging registers. -/
  | destsAndStaging (dests : (∃ name, .dest name ∈ layout.entries) ∨ 0 < layout.plainDests.toNat)
      (form : StagingForm) (declared : .staging form ∈ layout.entries)
  /-- A tag is not in the catalog. -/
  | unknownTag (tag : String) (declared : .tag tag ∈ layout.entries)
      (unknown : catalog.find? tag = none)
  /-- A modifier has no bits. -/
  | modifierWithoutBits (placement : ModifierPlacement) (refers : layout.Refers catalog placement)
      (empty : placement.size = 0)
  /-- A modifier of several bits has no enumeration under the canonical form of its name. -/
  | modifierWithoutValues (placement : ModifierPlacement) (refers : layout.Refers catalog placement)
      (wide : 2 ≤ placement.size)
      (missing : ∀ entry ∈ enums.entries, entry.1 ≠ Symbol.canonical placement.name)

/-- An instruction has the name and opcodes of a header on top of a template, and the operands and
modifiers of a layout in order. -/
structure Instruction.Carries (overrides template : PartialHeader) (layout : Layout)
    (catalog : Catalog) (enums : Registry) (instruction : Instruction) : Prop where
  /-- The name is the overriding one, or else the one under it. -/
  name : (overrides.name <|> template.name) = some instruction.name
  /-- The primary opcode is the overriding one, or else the one under it. -/
  opcode : (overrides.opcodes.primary <|> template.opcodes.primary) = some instruction.opcode
  /-- The secondary opcode is the overriding one, or else the one under it, if any. -/
  opcode2 : (overrides.opcodes.secondary <|> template.opcodes.secondary) = instruction.opcode2
  /-- The sources are numbered in order, and those without an entry come last. -/
  sources : ∃ forms, LayoutEntry.Lists .source layout.entries forms ∧ instruction.sources =
    Source.numbered (Mnemonic.width instruction.name) forms layout.plainSources.toNat
  /-- The destinations come in order, and those without an entry last. -/
  dests : ∃ names, LayoutEntry.Lists .dest layout.entries names ∧
    instruction.dests = names ++ List.replicate layout.plainDests.toNat ""
  /-- The staging registers are numbered in order. -/
  staging : ∃ forms, LayoutEntry.Lists .staging layout.entries forms ∧
    instruction.staging = Staging.numbered forms
  /-- The immediate operands come in order. -/
  immediates : LayoutEntry.Lists .immediate layout.entries instruction.immediates
  /-- The modifiers are what the references of the layout resolve to, one by one. -/
  modifiers : ∃ references, LayoutEntry.Lists ModifierReference.entry layout.entries references ∧
    List.Forall₂ (fun reference modifier => reference.resolve catalog enums = .ok modifier)
      references instruction.modifiers

/-! ## Entries -/

namespace LayoutEntry

section Reading

variable {α : Type} {kind : α → LayoutEntry} {read? : LayoutEntry → Option α}

/-- A reader reads the values of one kind of entries. -/
def Reads (kind : α → LayoutEntry) (read? : LayoutEntry → Option α) : Prop :=
  ∀ entry value, read? entry = some value ↔ entry = kind value

/-- What is read from entries is what those of the kind declare. -/
theorem Reads.lists_iff (reads : Reads kind read?) {entries : List LayoutEntry} {values : List α} :
    Lists kind entries values ↔ entries.filterMap read? = values := by
  constructor
  · intro listed
    induction listed with
    | nil => rfl
    | keep value behind ih => rw [List.filterMap_cons_some ((reads _ value).2 rfl), ih]
    | drop other behind ih =>
        refine (List.filterMap_cons_none ?_).trans ih
        exact Option.eq_none_iff_forall_ne_some.2 fun value found =>
          other value ((reads _ value).1 found)
  · rintro rfl
    induction entries with
    | nil => exact .nil
    | cons entry rest ih =>
        cases found : read? entry with
        | none =>
            rw [List.filterMap_cons_none found]
            refine .drop (fun value same => ?_) ih
            rw [(reads entry value).2 same] at found
            cases found
        | some value =>
            obtain rfl := (reads entry value).1 found
            rw [List.filterMap_cons_some found]
            exact .keep value ih

theorem Reads.mem_filterMap_iff (reads : Reads kind read?) {entries : List LayoutEntry}
    {value : α} : value ∈ entries.filterMap read? ↔ kind value ∈ entries := by
  rw [List.mem_filterMap]
  simp only [reads _ value, exists_eq_right]

end Reading

theorem reads_source : Reads .source source? := by
  rintro (_ | _ | _ | _ | _ | _) value <;> simp [source?]

theorem reads_dest : Reads .dest dest? := by
  rintro (_ | _ | _ | _ | _ | _) value <;> simp [dest?]

theorem reads_staging : Reads .staging staging? := by
  rintro (_ | _ | _ | _ | _ | _) value <;> simp [staging?]

theorem reads_immediate : Reads .immediate immediate? := by
  rintro (_ | _ | _ | _ | _ | _) value <;> simp [immediate?]

theorem reads_modifier : Reads ModifierReference.entry modifier? := by
  rintro (_ | _ | _ | _ | _ | _) (_ | _) <;> simp [modifier?, ModifierReference.entry]

end LayoutEntry

namespace Layout

variable {layout : Layout}

theorem resolvedDests_ne_nil_iff : layout.resolvedDests ≠ [] ↔
    (∃ name, .dest name ∈ layout.entries) ∨ 0 < layout.plainDests.toNat := by
  simp only [← LayoutEntry.reads_dest.mem_filterMap_iff]
  rw [resolvedDests, ← List.length_pos_iff, List.length_append, List.length_replicate,
    Nat.add_pos_iff_pos_or_pos, List.length_pos_iff_exists_mem]
  rfl

theorem numberedStaging_ne_nil_iff : Staging.numbered layout.staging ≠ [] ↔
    ∃ form, .staging form ∈ layout.entries := by
  simp only [← LayoutEntry.reads_staging.mem_filterMap_iff]
  rw [← List.length_pos_iff, Staging.length_numbered, List.length_pos_iff_exists_mem]
  rfl

end Layout

/-! ## Modifiers -/

section Modifiers

variable {layout : Layout} {catalog : Catalog} {enums : Registry} {placement : ModifierPlacement}

/-- A modifier finds its values when it is a flag, or when there is an enumeration for it. -/
theorem ModifierPlacement.exists_resolve_iff :
    (∃ modifier, placement.resolve enums = .ok modifier) ↔ placement.size ≠ 0 ∧
      (2 ≤ placement.size →
        ∃ entry ∈ enums.entries, entry.1 = Symbol.canonical placement.name) := by
  have registered : (∃ entry ∈ enums.entries, entry.1 = Symbol.canonical placement.name) ↔
      ∃ enumeration, enums.named? placement.name = some enumeration := by
    simp only [Registry.named?, NameMap.find?_eq_some_iff, Prod.exists]
    constructor
    · rintro ⟨key, enumeration, member, rfl⟩
      exact ⟨enumeration, member⟩
    · rintro ⟨enumeration, member⟩
      exact ⟨_, enumeration, member, rfl⟩
  rw [registered, resolve]
  split
  next empty => simp [empty]
  next bits =>
    split
    next flag =>
      have one : placement.size = 1 := of_decide_eq_true flag
      simp [one]
    next noFlag =>
      have other : placement.size ≠ 1 := fun one => noFlag (decide_eq_true one)
      have notZero : placement.size.toNat ≠ 0 := fun same => bits (UInt8.toNat_inj.1 same)
      have notOne : placement.size.toNat ≠ 1 := fun same => other (UInt8.toNat_inj.1 same)
      have wide : 2 ≤ placement.size :=
        UInt8.le_iff_toNat_le.2 (show 2 ≤ placement.size.toNat by omega)
      cases enums.named? placement.name <;> simp [bits, wide]

theorem Layout.mem_modifiers_iff {reference : ModifierReference} :
    reference ∈ layout.modifiers ↔ reference.entry ∈ layout.entries :=
  LayoutEntry.reads_modifier.mem_filterMap_iff

/-- The modifiers of a layout are resolved when every tag is known and every modifier that is
referred to finds its values. -/
theorem Layout.exists_resolvedModifiers_iff :
    (∃ modifiers, layout.resolvedModifiers catalog enums = .ok modifiers) ↔
      (∀ tag, .tag tag ∈ layout.entries → catalog.find? tag ≠ none) ∧
        ∀ placement, layout.Refers catalog placement →
          ∃ modifier, placement.resolve enums = .ok modifier := by
  rw [resolvedModifiers, exists_mapM_eq_ok_iff]
  constructor
  · intro each
    refine ⟨fun tag member unknown => ?_, fun placement refers => ?_⟩
    · obtain ⟨modifier, resolves⟩ := each (.tagged tag) (mem_modifiers_iff.2 member)
      simp only [ModifierReference.resolve, Catalog.resolve, unknown] at resolves
      cases resolves
    · rcases refers with placed | ⟨tag, member, found⟩
      · exact each (.placed placement) (mem_modifiers_iff.2 placed)
      · obtain ⟨modifier, resolves⟩ := each (.tagged tag) (mem_modifiers_iff.2 member)
        simp only [ModifierReference.resolve, Catalog.resolve, found] at resolves
        exact ⟨modifier, resolves⟩
  · rintro ⟨known, each⟩ (placement | tag) member
    · exact each _ (.inl (mem_modifiers_iff.1 member))
    · have listed := mem_modifiers_iff.1 member
      obtain ⟨placement, found⟩ := Option.ne_none_iff_exists'.1 (known tag listed)
      simp only [ModifierReference.resolve, Catalog.resolve, found]
      exact each _ (.inr ⟨tag, listed, found⟩)

end Modifiers

/-! ## What is built -/

section Built

variable {overrides template : PartialHeader} {layout : Layout} {catalog : Catalog}
  {enums : Registry} {instruction : Instruction}

theorem Instruction.Built.carries
    (built : instruction.Built (overrides.«over» template) layout catalog enums) :
    instruction.Carries overrides template layout catalog enums where
  name := built.name
  opcode := built.opcode
  opcode2 := built.opcode2
  sources := ⟨layout.sources, LayoutEntry.reads_source.lists_iff.2 rfl,
    (Layout.resolvedSources_eq_ok_iff.1 built.sources).2.2.symm⟩
  dests := ⟨layout.dests, LayoutEntry.reads_dest.lists_iff.2 rfl, built.dests.symm⟩
  staging := ⟨layout.staging, LayoutEntry.reads_staging.lists_iff.2 rfl,
    (Staging.resolveFrom_eq_ok_iff.1 built.staging).2.symm⟩
  immediates := LayoutEntry.reads_immediate.lists_iff.2 built.immediates
  modifiers := ⟨layout.modifiers, LayoutEntry.reads_modifier.lists_iff.2 rfl,
    mapM_eq_ok_iff.1 built.modifiers⟩

/-- What was built breaks no rule. -/
theorem Instruction.Built.not_broken
    (built : instruction.Built (overrides.«over» template) layout catalog enums) :
    ¬ BrokenRule overrides template layout catalog enums := by
  obtain ⟨counted, fit, -⟩ := Layout.resolvedSources_eq_ok_iff.1 built.sources
  obtain ⟨few, -⟩ := Staging.resolveFrom_eq_ok_iff.1 built.staging
  obtain ⟨known, each⟩ := Layout.exists_resolvedModifiers_iff.1 ⟨_, built.modifiers⟩
  intro broken
  cases broken with
  | nameless overriding underlying =>
      have named := built.carries.name
      rw [overriding, underlying] at named
      cases named
  | opcodeless overriding underlying =>
      have given := built.carries.opcode
      rw [overriding, underlying] at given
      cases given
  | tooManySources forms listed many =>
      obtain rfl := LayoutEntry.reads_source.lists_iff.1 listed
      exact Nat.not_lt.2 counted many
  | lateSource forms listed place form found late slotted =>
      obtain rfl := LayoutEntry.reads_source.lists_iff.1 listed
      have fits := fit (form, place) (List.mem_zipIdx_iff_getElem?.2 found)
      exact absurd (fits.slot slotted) (Nat.not_le.2 late)
  | swizzleWidth name form named declared swizzled width =>
      obtain rfl : name = instruction.name := Option.some.inj (named.symm.trans built.carries.name)
      have member := LayoutEntry.reads_source.mem_filterMap_iff.2 declared
      obtain ⟨place, found⟩ := List.getElem?_of_mem member
      have fits := fit (form, place) (List.mem_zipIdx_iff_getElem?.2 found)
      exact width (by simpa using fits.width swizzled)
  | tooManyStaging forms listed many =>
      obtain rfl := LayoutEntry.reads_staging.lists_iff.1 listed
      exact Nat.not_lt.2 few many
  | destsAndStaging dests form declared =>
      rcases built.separate with none | none
      · exact Layout.resolvedDests_ne_nil_iff.2 dests (built.dests.trans none)
      · have numbered := (Staging.resolveFrom_eq_ok_iff.1 built.staging).2
        exact Layout.numberedStaging_ne_nil_iff.2 ⟨form, declared⟩ (numbered.trans none)
  | unknownTag tag declared unknown => exact known tag declared unknown
  | modifierWithoutBits placement refers empty =>
      exact (ModifierPlacement.exists_resolve_iff.1 (each placement refers)).1 empty
  | modifierWithoutValues placement refers wide missing =>
      obtain ⟨entry, member, same⟩ :=
        (ModifierPlacement.exists_resolve_iff.1 (each placement refers)).2 wide
      exact missing entry member same

/-- What breaks no rule is built. -/
theorem exists_built_of_not_broken
    (sound : ¬ BrokenRule overrides template layout catalog enums) :
    ∃ instruction : Instruction,
      instruction.Built (overrides.«over» template) layout catalog enums := by
  -- Each stage succeeds, because its failure would break one of the rules.
  obtain ⟨name, named⟩ : ∃ name, (overrides.name <|> template.name) = some name := by
    refine Option.ne_none_iff_exists'.1 fun none => sound ?_
    obtain ⟨overriding, underlying⟩ := (Option.orElse_eq_none _ _).1 none
    exact .nameless overriding underlying
  obtain ⟨opcode, given⟩ :
      ∃ opcode, (overrides.opcodes.primary <|> template.opcodes.primary) = some opcode := by
    refine Option.ne_none_iff_exists'.1 fun none => sound ?_
    obtain ⟨overriding, underlying⟩ := (Option.orElse_eq_none _ _).1 none
    exact .opcodeless overriding underlying
  have listed : LayoutEntry.Lists .source layout.entries layout.sources :=
    LayoutEntry.reads_source.lists_iff.2 rfl
  have counted : layout.sources.length + layout.plainSources.toNat ≤ 256 :=
    Nat.not_lt.1 fun many => sound (.tooManySources _ listed many)
  have fit : ∀ entry ∈ layout.sources.zipIdx, entry.1.Fits entry.2 (Mnemonic.width name) := by
    intro entry member
    have found := List.mem_zipIdx_iff_getElem?.1 member
    constructor
    · intro slotted
      exact Nat.not_lt.1 fun late => sound (.lateSource _ listed _ _ found late slotted)
    · intro swizzled
      by_contra width
      have declared := LayoutEntry.reads_source.mem_filterMap_iff.1 (List.mem_of_getElem? found)
      refine sound (.swizzleWidth name _ named declared swizzled ?_)
      simpa using width
  have few : layout.staging.length ≤ 2 := Nat.not_lt.1 fun many =>
    sound (.tooManyStaging _ (LayoutEntry.reads_staging.lists_iff.2 rfl) many)
  obtain ⟨modifiers, resolved⟩ : ∃ modifiers,
      layout.resolvedModifiers catalog enums = .ok modifiers := by
    refine Layout.exists_resolvedModifiers_iff.2 ⟨fun tag member unknown => ?_, ?_⟩
    · exact sound (.unknownTag tag member unknown)
    · intro placement refers
      refine ModifierPlacement.exists_resolve_iff.2 ⟨fun empty => ?_, fun wide => ?_⟩
      · exact sound (.modifierWithoutBits placement refers empty)
      · by_contra missing
        refine sound (.modifierWithoutValues placement refers wide fun entry member same => ?_)
        exact missing ⟨entry, member, same⟩
  have separate : layout.resolvedDests = [] ∨ Staging.numbered layout.staging = [] := by
    by_contra both
    obtain ⟨dests, staging⟩ := not_or.1 both
    obtain ⟨form, declared⟩ := Layout.numberedStaging_ne_nil_iff.1 staging
    exact sound (.destsAndStaging (Layout.resolvedDests_ne_nil_iff.1 dests) form declared)
  exact ⟨⟨name, opcode, _, layout.numberedSources (Mnemonic.width name), _, _, _, modifiers⟩,
    named, given, rfl,
    Layout.resolvedSources_eq_ok_iff.2 ⟨counted, fit, rfl⟩, rfl,
    Staging.resolveFrom_eq_ok_iff.2 ⟨few, rfl⟩, rfl, resolved, separate⟩

end Built

/-! ## Building behind other calls -/

namespace Expansion

/-- What building comes to behind calls that have resolved tags, whether these failed or not. -/
def builtAfter (catalog : Catalog) (enums : Registry) (calls : List Call)
    (overrides template : PartialHeader) (layout : Layout) : Except BuildError Instruction :=
  ((build catalog enums (overrides.«over» template) layout).run.run
    ((session catalog enums calls).run .empty).2).1

theorem builtAfter_eq (catalog : Catalog) (enums : Registry) (calls : List Call)
    (overrides template : PartialHeader) (layout : Layout) :
    builtAfter catalog enums calls overrides template layout =
      (overrides.«over» template).build layout catalog enums := by
  obtain ⟨resolved, ran, coherent⟩ :=
    settles_mapM (@settles_answer catalog enums) calls coherent_empty
  have kept : ((session catalog enums calls).run .empty).2 = resolved := congrArg Prod.snd ran
  obtain ⟨after, built, -⟩ := comesTo_build (overrides.«over» template) layout coherent
  rw [builtAfter, kept, built]

/-- **Building refuses exactly what breaks a rule**, whatever was built before. What breaks none
becomes an instruction with the operands and modifiers of its layout in the order of their
declarations, those without an entry last. -/
theorem refuses_iff_broken (catalog : Catalog) (enums : Registry) (calls : List Call)
    (overrides template : PartialHeader) (layout : Layout) :
    ((∃ error, builtAfter catalog enums calls overrides template layout = .error error) ↔
      BrokenRule overrides template layout catalog enums) ∧
    (¬ BrokenRule overrides template layout catalog enums →
      ∃ instruction, builtAfter catalog enums calls overrides template layout = .ok instruction ∧
        instruction.Carries overrides template layout catalog enums) := by
  have accepts : ¬ BrokenRule overrides template layout catalog enums →
      ∃ instruction, builtAfter catalog enums calls overrides template layout = .ok instruction ∧
        instruction.Carries overrides template layout catalog enums := by
    intro sound
    obtain ⟨instruction, built⟩ := exists_built_of_not_broken sound
    refine ⟨instruction, ?_, built.carries⟩
    rw [builtAfter_eq]
    exact PartialHeader.build_eq_ok_iff.2 built
  refine ⟨⟨fun ⟨error, refused⟩ => ?_, fun broken => ?_⟩, accepts⟩
  · by_contra sound
    obtain ⟨instruction, built, -⟩ := accepts sound
    rw [refused] at built
    cases built
  · cases built : builtAfter catalog enums calls overrides template layout with
    | error error => exact ⟨error, rfl⟩
    | ok instruction =>
        rw [builtAfter_eq] at built
        exact absurd broken (PartialHeader.build_eq_ok_iff.1 built).not_broken

/-- The layout of an addition of pairs, with two of its three sources and its destination spelled
out. -/
def vectorAddition : Layout :=
  ⟨1, 0, [.source { name := "a", traits := { absNeg := true, swizzle := true } }, .tag "saturate",
    .dest "sum", .source { name := "b" }]⟩

theorem refuses_iff_broken_vectorAddition :
    ¬ BrokenRule ⟨some "FADD.v2f16", {}⟩ ⟨some "FADD", { primary := some 1 }⟩ vectorAddition
        .standard .empty ∧
      ∃ instruction, builtAfter .standard .empty saturatingCalls ⟨some "FADD.v2f16", {}⟩
          ⟨some "FADD", { primary := some 1 }⟩ vectorAddition = .ok instruction ∧
        instruction.sources.map (·.name) = ["a", "b", ""] := by
  obtain ⟨broken, carried⟩ := refuses_iff_broken .standard .empty saturatingCalls
    ⟨some "FADD.v2f16", {}⟩ ⟨some "FADD", { primary := some 1 }⟩ vectorAddition
  have sound : ¬ BrokenRule ⟨some "FADD.v2f16", {}⟩ ⟨some "FADD", { primary := some 1 }⟩
      vectorAddition .standard .empty := by
    intro breaks
    obtain ⟨instruction, built⟩ : ∃ instruction, builtAfter .standard .empty saturatingCalls
        ⟨some "FADD.v2f16", {}⟩ ⟨some "FADD", { primary := some 1 }⟩ vectorAddition =
          .ok instruction := exists_eq_ok (by decide +kernel)
    obtain ⟨error, refused⟩ := broken.2 breaks
    rw [built] at refused
    cases refused
  obtain ⟨instruction, built, carries⟩ := carried sound
  refine ⟨sound, instruction, built, ?_⟩
  obtain ⟨forms, listed, numbered⟩ := carries.sources
  obtain rfl := LayoutEntry.reads_source.lists_iff.1 listed
  rw [numbered]
  rfl

end Expansion

end InstructionSet
