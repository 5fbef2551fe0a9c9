import InstructionSet.Proofs.Enumeration.Registry
import InstructionSet.Proofs.Expansion.Sessions
import InstructionSet.Proofs.Table.Accepted

/-!
# Tags are shorthand

A tag stands for the placement that the catalog has under it. Writing the placement out in its place
changes nothing about what a description comes to, and leaves no tag behind, so that the catalog no
longer matters (`Table.ofDocument_inlined`).

Two facts about catalogs follow. A description cannot tell catalogs apart that agree on its tags.
And what it does not refer to is not needed: an enumeration that gives the values of none of its
modifiers can be left out, whatever else the catalog holds (`Document.Needs`).
-/

namespace InstructionSet

set_option autoImplicit false

open Fallible

/-! ## Tags and placements -/

namespace ModifierReference

/-- The tag of a reference by tag. -/
def tag? : ModifierReference → Option String
  | .placed _ => none
  | .tagged tag => some tag

/-- The placement that a reference stands for, unless its tag is unknown. -/
def placement? (catalog : Catalog) : ModifierReference → Option ModifierPlacement
  | .placed placement => some placement
  | .tagged tag => catalog.find? tag

variable {catalog : Catalog} {reference : ModifierReference}

theorem resolve_of_placement {placement : ModifierPlacement}
    (found : reference.placement? catalog = some placement) (enums : Registry) :
    reference.resolve catalog enums = placement.resolve enums := by
  cases reference with
  | placed here =>
      cases found
      rfl
  | tagged tag => simp only [resolve, Catalog.resolve, show catalog.find? tag = _ from found]

/-- A reference by an unknown tag is refused, whatever the registry. -/
theorem resolve_of_unknown (unknown : reference.placement? catalog = none) (enums : Registry) :
    ∃ error, reference.resolve catalog enums = .error error ∧
      ∀ other, reference.resolve catalog other = .error error := by
  cases reference with
  | placed here => cases unknown
  | tagged tag =>
      have unresolved : ∀ other,
          catalog.resolve other tag = .error (.unknownTag tag catalog.names) := by
        intro other
        simp only [Catalog.resolve, show catalog.find? tag = none from unknown]
      exact ⟨_, unresolved enums, unresolved⟩

theorem exists_placement (known : ∀ tag, reference.tag? = some tag → catalog.contains tag = true) :
    ∃ placement, reference.placement? catalog = some placement := by
  cases reference with
  | placed placement => exact ⟨placement, rfl⟩
  | tagged tag => exact Option.isSome_iff_exists.1 (known tag rfl)

end ModifierReference

/-- The tags that a layout refers to. -/
def Layout.tags (layout : Layout) : List String :=
  layout.modifiers.filterMap (·.tag?)

/-- The placements of the modifiers of a layout. -/
def Layout.placements (catalog : Catalog) (layout : Layout) : List ModifierPlacement :=
  layout.modifiers.filterMap (·.placement? catalog)

/-- The layout of a directive that has one. -/
def Directive.layout? : Directive → Option Layout
  | .instruction form => some form.layout
  | .group form => some form.layout
  | _ => none

namespace Document

/-- The layouts of a description. -/
def layouts (document : Document) : List Layout :=
  document.directives.filterMap (·.layout?)

/-- The tags that a description refers to. -/
def tags (document : Document) : List String :=
  document.layouts.flatMap (·.tags)

/-- The placements of the modifiers of a description. -/
def placements (catalog : Catalog) (document : Document) : List ModifierPlacement :=
  document.layouts.flatMap (·.placements catalog)

/-- A modifier of the description takes its values from the enumeration under a key. -/
def Needs (document : Document) (catalog : Catalog) (key : String) : Prop :=
  ∃ placement ∈ document.placements catalog,
    1 < placement.size ∧ Symbol.canonical placement.name = key

instance (document : Document) (catalog : Catalog) (key : String) :
    Decidable (document.Needs catalog key) :=
  inferInstanceAs (Decidable (∃ placement ∈ document.placements catalog,
    1 < placement.size ∧ Symbol.canonical placement.name = key))

/-- Every instruction has the layout of some directive. -/
theorem layout_of_mem_instructions {document : Document} {form : InstructionForm}
    (member : form ∈ document.instructions) : form.layout ∈ document.layouts := by
  obtain ⟨directive, listed, declared⟩ := List.mem_flatMap.1 member
  refine List.mem_filterMap.2 ⟨directive, listed, ?_⟩
  cases directive with
  | lookupTable table => cases declared
  | enumeration form => cases declared
  | instruction form =>
      cases List.mem_singleton.1 declared
      rfl
  | group form =>
      obtain ⟨member, -, rfl⟩ := List.mem_map.1 declared
      rfl

theorem tags_of_mem_instructions {document : Document} {form : InstructionForm}
    (member : form ∈ document.instructions) {tag : String} (named : tag ∈ form.layout.tags) :
    tag ∈ document.tags :=
  List.mem_flatMap.2 ⟨_, layout_of_mem_instructions member, named⟩

end Document

/-! ## Writing tags out -/

/-- The entry with the placement of its tag in place of the tag, when the catalog has it. -/
def LayoutEntry.inlined (catalog : Catalog) : LayoutEntry → LayoutEntry
  | .tag name =>
      match catalog.find? name with
      | some placement => .modifier placement
      | none => .tag name
  | entry => entry

/-- The layout with its tags written out. -/
def Layout.inlined (catalog : Catalog) (layout : Layout) : Layout :=
  { layout with entries := layout.entries.map (·.inlined catalog) }

/-- The instruction with the tags of its layout written out. -/
def InstructionForm.inlined (catalog : Catalog) (form : InstructionForm) : InstructionForm :=
  { form with layout := form.layout.inlined catalog }

/-- The directive with the tags of its layout written out. -/
def Directive.inlined (catalog : Catalog) : Directive → Directive
  | .instruction form => .instruction (form.inlined catalog)
  | .group form => .group { form with layout := form.layout.inlined catalog }
  | directive => directive

/-- The description with its tags written out. -/
def Document.inlined (catalog : Catalog) (document : Document) : Document :=
  { document with directives := document.directives.map (·.inlined catalog) }

/-- The reference with the placement of its tag in place of the tag, when the catalog has it. -/
def ModifierReference.inlined (catalog : Catalog) (reference : ModifierReference) :
    ModifierReference :=
  match reference.placement? catalog with
  | some placement => .placed placement
  | none => reference

namespace LayoutEntry

variable (catalog : Catalog) (entry : LayoutEntry)

@[simp] theorem source?_inlined : (entry.inlined catalog).source? = entry.source? := by
  cases entry with
  | tag tag => cases found : catalog.find? tag <;> simp [inlined, found, source?]
  | _ => rfl

@[simp] theorem dest?_inlined : (entry.inlined catalog).dest? = entry.dest? := by
  cases entry with
  | tag tag => cases found : catalog.find? tag <;> simp [inlined, found, dest?]
  | _ => rfl

@[simp] theorem staging?_inlined : (entry.inlined catalog).staging? = entry.staging? := by
  cases entry with
  | tag tag => cases found : catalog.find? tag <;> simp [inlined, found, staging?]
  | _ => rfl

@[simp] theorem immediate?_inlined : (entry.inlined catalog).immediate? = entry.immediate? := by
  cases entry with
  | tag tag => cases found : catalog.find? tag <;> simp [inlined, found, immediate?]
  | _ => rfl

@[simp] theorem modifier?_inlined :
    (entry.inlined catalog).modifier? = entry.modifier?.map (·.inlined catalog) := by
  cases entry with
  | tag tag =>
      cases found : catalog.find? tag <;>
        simp [inlined, found, modifier?, ModifierReference.inlined, ModifierReference.placement?]
  | _ => rfl

end LayoutEntry

namespace Layout

variable (catalog : Catalog) (layout : Layout)

theorem modifiers_inlined :
    (layout.inlined catalog).modifiers = layout.modifiers.map (·.inlined catalog) := by
  simp [modifiers, inlined, List.filterMap_map, List.map_filterMap]

@[simp] theorem registers_inlined (width : UInt8) :
    (layout.inlined catalog).registers width = layout.registers width := by
  simp [registers, resolvedSources, sources, staging, inlined, List.filterMap_map]

@[simp] theorem assemble_inlined (header : Header) (registers : Registers)
    (modifiers : List Modifier) :
    header.assemble (layout.inlined catalog) registers modifiers =
      header.assemble layout registers modifiers := by
  simp [Header.assemble, resolvedDests, dests, immediates, inlined, List.filterMap_map]

end Layout

theorem ModifierReference.resolve_inlined {catalog : Catalog} {reference : ModifierReference}
    (known : ∀ tag, reference.tag? = some tag → catalog.contains tag = true) (other : Catalog)
    (enums : Registry) :
    (reference.inlined catalog).resolve other enums = reference.resolve catalog enums := by
  obtain ⟨placement, found⟩ := exists_placement known
  simp only [inlined, found, resolve_of_placement found]
  rfl

theorem Layout.resolvedModifiers_inlined {catalog : Catalog} {layout : Layout}
    (known : ∀ tag ∈ layout.tags, catalog.contains tag = true) (other : Catalog)
    (enums : Registry) :
    (layout.inlined catalog).resolvedModifiers other enums =
      layout.resolvedModifiers catalog enums := by
  rw [resolvedModifiers, modifiers_inlined, List.mapM_map]
  exact mapM_congr_of_mem fun reference member => ModifierReference.resolve_inlined
    (fun tag named => known tag (List.mem_filterMap.2 ⟨reference, member, named⟩)) other enums

theorem Layout.tags_inlined {catalog : Catalog} {layout : Layout}
    (known : ∀ tag ∈ layout.tags, catalog.contains tag = true) :
    (layout.inlined catalog).tags = [] := by
  rw [tags, modifiers_inlined, List.filterMap_map, List.filterMap_eq_nil_iff]
  intro reference member
  obtain ⟨placement, found⟩ := ModifierReference.exists_placement
    fun tag named => known tag (List.mem_filterMap.2 ⟨reference, member, named⟩)
  simp only [Function.comp_apply, ModifierReference.inlined, found]
  rfl

namespace InstructionForm

variable {form : InstructionForm} {first second : Catalog} {enums fewer : Registry}

/-- An instruction is declared alike when its modifiers are resolved alike. -/
theorem declare_congr
    (alike : form.layout.resolvedModifiers first enums =
      form.layout.resolvedModifiers second fewer) :
    form.declare first enums = form.declare second fewer := by
  simp only [declare, PartialHeader.build, alike]

theorem declare_inlined (known : ∀ tag ∈ form.layout.tags, first.contains tag = true)
    (other : Catalog) :
    (form.inlined first).declare other enums = form.declare first enums := by
  simp only [declare, header, inlined, PartialHeader.build, Layout.registers_inlined,
    Layout.resolvedModifiers_inlined known, Layout.assemble_inlined]

end InstructionForm

namespace Document

variable {document : Document} {catalog : Catalog}

theorem instructions_inlined (document : Document) (catalog : Catalog) :
    (document.inlined catalog).instructions = document.instructions.map (·.inlined catalog) := by
  rw [instructions, inlined, instructions, List.flatMap_map, List.map_flatMap]
  refine List.flatMap_congr fun directive _ => ?_
  cases directive with
  | lookupTable table => rfl
  | enumeration form => rfl
  | instruction form => rfl
  | group form =>
      show List.map _ _ = List.map _ (List.map _ _)
      rw [List.map_map]
      rfl

theorem lookupTables_inlined (document : Document) (catalog : Catalog) :
    (document.inlined catalog).lookupTables = document.lookupTables := by
  rw [lookupTables, inlined, List.filterMap_map]
  refine List.filterMap_congr fun directive _ => ?_
  cases directive <;> rfl

theorem enumerations_inlined (document : Document) (catalog : Catalog) :
    (document.inlined catalog).enumerations = document.enumerations := by
  rw [enumerations, inlined, List.filterMap_map]
  refine List.filterMap_congr fun directive _ => ?_
  cases directive <;> rfl

theorem layouts_inlined (document : Document) (catalog : Catalog) :
    (document.inlined catalog).layouts = document.layouts.map (·.inlined catalog) := by
  rw [layouts, inlined, List.filterMap_map, layouts, List.map_filterMap]
  refine List.filterMap_congr fun directive _ => ?_
  cases directive <;> rfl

theorem tags_inlined (known : ∀ tag ∈ document.tags, catalog.contains tag = true) :
    (document.inlined catalog).tags = [] := by
  rw [tags, layouts_inlined, List.flatMap_map, List.flatMap_eq_nil_iff]
  intro layout member
  exact Layout.tags_inlined fun tag named => known tag (List.mem_flatMap.2 ⟨layout, member, named⟩)

end Document

theorem Table.ofDocument_inlined_eq {document : Document} {catalog : Catalog}
    (known : ∀ tag ∈ document.tags, catalog.contains tag = true) (other : Catalog) :
    ofDocument (document.inlined catalog) other = ofDocument document catalog := by
  refine ofDocument_congr_of_declared rfl (Document.lookupTables_inlined document catalog)
    (Document.enumerations_inlined document catalog) fun enums => ?_
  rw [Document.instructions_inlined, List.mapM_map]
  refine mapM_congr_of_mem fun form member => InstructionForm.declare_inlined ?_ other
  exact fun tag named => known tag (Document.tags_of_mem_instructions member named)

/-! ## Catalogs that agree -/

theorem ModifierReference.resolve_congr {first second : Catalog} {reference : ModifierReference}
    (known : ∀ tag, reference.tag? = some tag → first.contains tag = true)
    (agree : ∀ tag, reference.tag? = some tag → second.find? tag = first.find? tag)
    (enums : Registry) : reference.resolve second enums = reference.resolve first enums := by
  obtain ⟨placement, found⟩ := exists_placement known
  have same : reference.placement? second = some placement := by
    cases reference with
    | placed here => exact found
    | tagged tag => exact (agree tag rfl).trans found
  rw [resolve_of_placement found, resolve_of_placement same]

namespace Table

variable {document : Document} {first second : Catalog}

/-- Catalogs give one table when the first one knows the tags of all instructions and the second
one agrees on them. -/
theorem ofDocument_congr_of_tags
    (known : ∀ form ∈ document.instructions, ∀ tag ∈ form.layout.tags, first.contains tag = true)
    (agree : ∀ tag ∈ document.tags, second.find? tag = first.find? tag) :
    ofDocument document second = ofDocument document first := by
  refine ofDocument_congr_of_declared rfl rfl rfl fun enums => ?_
  refine mapM_congr_of_mem fun form member => InstructionForm.declare_congr ?_
  refine mapM_congr_of_mem fun reference among => ?_
  have named : ∀ tag, reference.tag? = some tag → tag ∈ form.layout.tags :=
    fun tag isTag => List.mem_filterMap.2 ⟨reference, among, isTag⟩
  exact ModifierReference.resolve_congr (fun tag isTag => known form member tag (named tag isTag))
    (fun tag isTag => agree tag (Document.tags_of_mem_instructions member (named tag isTag))) enums

/-- The catalog of an accepted description knows the tags of all instructions. -/
theorem Accepted.known {table : Table} (accepted : Accepted document first table) :
    ∀ form ∈ document.instructions, ∀ tag ∈ form.layout.tags, first.contains tag = true := by
  intro form member tag named
  obtain ⟨instruction, -, built⟩ := exists_of_forall₂ accepted.built.flip member
  obtain ⟨reference, among, isTag⟩ := List.mem_filterMap.1 named
  obtain ⟨modifier, -, resolved⟩ :=
    exists_of_forall₂ (mapM_eq_ok_iff.1 built.modifiers).flip among
  cases reference with
  | placed placement => cases isTag
  | tagged name =>
      cases isTag
      rw [NameMap.contains, Option.isSome_iff_ne_none]
      intro unknown
      obtain ⟨error, refused, -⟩ :=
        @ModifierReference.resolve_of_unknown first (.tagged tag) unknown table.enums
      rw [resolved] at refused
      cases refused

/-- Catalogs that agree on the tags of a description accept it with the same tables. -/
theorem ofDocument_eq_ok_iff_of_tags
    (agree : ∀ tag ∈ document.tags, second.find? tag = first.find? tag) (table : Table) :
    ofDocument document second = .ok table ↔ ofDocument document first = .ok table := by
  constructor
  · intro accepts
    rw [ofDocument_congr_of_tags (accepted_of_ofDocument accepts).known
      fun tag named => (agree tag named).symm]
    exact accepts
  · intro accepts
    rw [ofDocument_congr_of_tags (accepted_of_ofDocument accepts).known agree]
    exact accepts

end Table

/-! ## Enumerations that are not needed -/

/-- The directive is not an enumeration under a key. -/
def Directive.isOther (key : String) (directive : Directive) : Bool :=
  directive.enumeration?.all fun form => Symbol.canonical form.name ≠ key

/-- The description without its enumeration under a key. -/
def Document.withoutEnumeration (key : String) (document : Document) : Document :=
  { document with directives := document.directives.filter (·.isOther key) }

namespace Document

variable {document : Document} {catalog : Catalog} {key : String}

theorem enumerations_withoutEnumeration (key : String) (document : Document) :
    (document.withoutEnumeration key).enumerations =
      document.enumerations.filter fun form => Symbol.canonical form.name ≠ key := by
  rw [enumerations, withoutEnumeration, enumerations]
  induction document.directives with
  | nil => rfl
  | cons directive rest ih =>
      cases directive with
      | enumeration form =>
          by_cases under : Symbol.canonical form.name = key <;>
            simp_all [Directive.isOther, Directive.enumeration?]
      | _ => simpa [Directive.isOther, Directive.enumeration?] using ih

theorem lookupTables_withoutEnumeration (key : String) (document : Document) :
    (document.withoutEnumeration key).lookupTables = document.lookupTables := by
  rw [lookupTables, withoutEnumeration, List.filterMap_filter]
  refine List.filterMap_congr fun directive _ => ?_
  cases directive with
  | enumeration form => simp [Directive.lookupTable?]
  | _ => rfl

theorem instructions_withoutEnumeration (key : String) (document : Document) :
    (document.withoutEnumeration key).instructions = document.instructions := by
  rw [instructions, withoutEnumeration, instructions]
  induction document.directives with
  | nil => rfl
  | cons directive rest ih =>
      cases directive with
      | enumeration form =>
          by_cases under : Symbol.canonical form.name = key <;>
            simp_all [Directive.isOther, Directive.enumeration?, Directive.instructions]
      | _ => simpa [Directive.isOther, Directive.enumeration?] using ih

end Document

/-- A placement resolves alike without an enumeration that it does not take its values from. -/
theorem ModifierPlacement.resolve_without {placement : ModifierPlacement} {key : String}
    {enums fewer : Registry} (without : Registry.Without key enums fewer)
    (independent : ¬ (1 < placement.size ∧ Symbol.canonical placement.name = key)) :
    placement.resolve fewer = placement.resolve enums := by
  unfold resolve isFlag
  split
  next => rfl
  next notEmpty =>
    split
    next => rfl
    next notFlag =>
      have wide : 1 < placement.size := by
        simp only [decide_eq_true_eq, ← UInt8.toNat_inj] at notEmpty notFlag
        rw [UInt8.lt_iff_toNat_lt]
        simp only [UInt8.toNat_zero, UInt8.toNat_one] at notEmpty notFlag ⊢
        omega
      have named : fewer.named? placement.name = enums.named? placement.name :=
        (without _).trans (if_neg fun same => independent ⟨wide, same⟩)
      rw [named]

theorem Layout.resolvedModifiers_without {layout : Layout} {catalog : Catalog} {key : String}
    {enums fewer : Registry} (without : Registry.Without key enums fewer)
    (independent : ∀ placement ∈ layout.placements catalog,
      ¬ (1 < placement.size ∧ Symbol.canonical placement.name = key)) :
    layout.resolvedModifiers catalog fewer = layout.resolvedModifiers catalog enums := by
  refine mapM_congr_of_mem fun reference member => ?_
  cases found : reference.placement? catalog with
  | none =>
      obtain ⟨error, refused, alike⟩ := ModifierReference.resolve_of_unknown found enums
      rw [refused, alike]
  | some placement =>
      rw [ModifierReference.resolve_of_placement found,
        ModifierReference.resolve_of_placement found]
      exact ModifierPlacement.resolve_without without
        (independent placement (List.mem_filterMap.2 ⟨reference, member, found⟩))

theorem Table.ofDocument_withoutEnumeration {document : Document} {catalog : Catalog}
    {key : String} {enums : Registry} (registered : document.registry = .ok enums)
    (independent : ¬ document.Needs catalog key) :
    ∃ fewer, (document.withoutEnumeration key).registry = .ok fewer ∧
      Registry.Without key enums fewer ∧
      ofDocument (document.withoutEnumeration key) catalog =
        (fun table => { table with enums := fewer }) <$> ofDocument document catalog := by
  obtain ⟨fewer, fewerRegistered, without⟩ := Registry.ofForms_without registered key
  rw [← Document.enumerations_withoutEnumeration] at fewerRegistered
  refine ⟨fewer, fewerRegistered, without, ?_⟩
  have expanded : expand (document.withoutEnumeration key) catalog fewer =
      expand document catalog enums := by
    rw [expand_eq, expand_eq, Document.instructions_withoutEnumeration]
    refine congrArg (Except.mapError _) (mapM_congr_of_mem fun form member => ?_)
    refine InstructionForm.declare_congr (Layout.resolvedModifiers_without without ?_)
    intro placement among needed
    exact independent ⟨placement, List.mem_flatMap.2
      ⟨_, Document.layout_of_mem_instructions member, among⟩, needed⟩
  have sameTables := Document.lookupTables_withoutEnumeration key document
  cases tables : Constants.ofTables document.path document.lookupTables with
  | error failure =>
      rw [ofDocument, ofDocument, sameTables]
      show (Constants.ofTables document.path document.lookupTables >>= _) = _ <$> (_ >>= _)
      rw [tables]
      rfl
  | ok luts =>
      rw [ofDocument_eq_bind tables registered,
        ofDocument_eq_bind (sameTables.symm ▸ tables) fewerRegistered, expanded]
      simp only [map_bind, map_pure]
      rfl

/-- **Tags are shorthand.** Writing out the tags of a description, when the catalog knows them,
leaves none, and gives with any catalog the table, or the failure, that the description gives with
its own. Catalogs that agree on the tags of a description therefore give the same; if some tags are
unknown, they still accept it with the same tables. And an enumeration that gives the values of none
of the modifiers that the description refers to can be left out: nothing changes but the registry,
which loses it. -/
theorem Table.ofDocument_inlined (document : Document) (catalog : Catalog) :
    ((∀ tag ∈ document.tags, catalog.contains tag = true) →
      (document.inlined catalog).tags = [] ∧
      (∀ other, ofDocument (document.inlined catalog) other = ofDocument document catalog) ∧
      ∀ second : Catalog, (∀ tag ∈ document.tags, second.find? tag = catalog.find? tag) →
        ofDocument document second = ofDocument document catalog) ∧
    (∀ second : Catalog, (∀ tag ∈ document.tags, second.find? tag = catalog.find? tag) →
      ∀ table, ofDocument document second = .ok table ↔ ofDocument document catalog = .ok table) ∧
    ∀ key enums, document.registry = .ok enums → ¬ document.Needs catalog key →
      ∃ fewer, (document.withoutEnumeration key).registry = .ok fewer ∧
        Registry.Without key enums fewer ∧
        ofDocument (document.withoutEnumeration key) catalog =
          (fun table => { table with enums := fewer }) <$> ofDocument document catalog := by
  refine ⟨fun known => ⟨Document.tags_inlined known, ofDocument_inlined_eq known, ?_⟩, ?_, ?_⟩
  · intro second agree
    refine ofDocument_congr_of_tags (fun form member tag named => known tag ?_) agree
    exact Document.tags_of_mem_instructions member named
  · exact fun second agree => ofDocument_eq_ok_iff_of_tags agree
  · exact fun key enums registered independent =>
      ofDocument_withoutEnumeration registered independent

/-- A description of a group with the tag of a clamp, whose values it lists. It also lists the
values of a condition, which none of its instructions has. -/
def Document.clamping : Document where
  path := "clamp.isa"
  directives := [
    .enumeration ⟨"clamp", [.value "none" true, .value "0_1" false], .point ⟨1, 1⟩⟩,
    .enumeration ⟨"condition", [.value "eq" false, .value "ne" false], .point ⟨2, 1⟩⟩,
    .group ⟨none, { primary := some 1 }, { plainSources := 2, entries := [.tag "clamp"] },
      [⟨"FADD.f32", {}, .point ⟨3, 9⟩⟩, ⟨"FMAX.f32", { primary := some 2 }, .point ⟨4, 9⟩⟩],
      .point ⟨3, 1⟩⟩]

theorem Table.ofDocument_inlined_clamping :
    ofDocument (Document.clamping.inlined .standard) .empty = ofDocument .clamping .standard ∧
      ∃ fewer, (Document.clamping.withoutEnumeration "condition").registry = .ok fewer ∧
        ofDocument (Document.clamping.withoutEnumeration "condition") .standard =
          (fun table => { table with enums := fewer }) <$> ofDocument .clamping .standard := by
  obtain ⟨inlines, -, omits⟩ := ofDocument_inlined .clamping .standard
  have known : ∀ tag ∈ Document.clamping.tags, Catalog.standard.contains tag = true := by
    decide +kernel
  obtain ⟨enums, registered⟩ :=
    exists_eq_ok (show Document.clamping.registry.toOption.isSome = true by decide +kernel)
  obtain ⟨fewer, without, -, same⟩ := omits "condition" enums registered (by decide +kernel)
  exact ⟨(inlines known).2.1 .empty, fewer, without, same⟩

end InstructionSet
