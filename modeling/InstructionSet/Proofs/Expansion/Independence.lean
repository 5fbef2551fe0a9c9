import InstructionSet.Table

/-!
# Every declaration is expanded on its own

Expansion keeps the modifiers of the tags that it has resolved, so what it does with one declaration
might depend on the declarations before it. It does not: what is kept for a tag is what the catalog
and the registry give for it (`Coherent`), every computation keeps it so, and with such tags each
computation comes to what it comes to with no tags at all (`ComesTo`).

A member of a group is an instruction that has the member's name, the opcodes of the member in front
of those of the group, and the layout of the group. A description therefore declares a plain list
of instructions (`Document.instructions`), and its expansion builds them one by one
(`Table.expand_eq`).
-/

namespace InstructionSet

set_option autoImplicit false

/-! ## The instructions that a description declares -/

/-- A member of a group as an instruction of its own. -/
def GroupForm.instruction (group : GroupForm) (member : GroupMember) : InstructionForm where
  name := member.name
  opcodes := member.opcodes.orElse group.opcodes
  layout := group.layout
  region := member.region

/-- The members of a group as instructions of their own. -/
def GroupForm.instructions (group : GroupForm) : List InstructionForm :=
  group.members.map group.instruction

/-- The instructions that a directive declares. -/
def Directive.instructions : Directive → List InstructionForm
  | .lookupTable _ => []
  | .enumeration _ => []
  | .instruction form => [form]
  | .group form => form.instructions

/-- The instructions that a description declares, in order. -/
def Document.instructions (document : Document) : List InstructionForm :=
  document.directives.flatMap (·.instructions)

/-- The header that an instruction declares. -/
def InstructionForm.header (form : InstructionForm) : PartialHeader :=
  ⟨some form.name, form.opcodes⟩

/-- What a declared instruction comes to by itself. -/
def InstructionForm.declare (catalog : Catalog) (enums : Registry) (form : InstructionForm) :
    Except BuildFault Declared :=
  match form.header.build form.layout catalog enums with
  | .ok instruction => .ok ⟨instruction, form.region⟩
  | .error error => .error ⟨form.name, error, form.region⟩

theorem InstructionForm.declare_eq_ok {catalog : Catalog} {enums : Registry}
    {form : InstructionForm} {declared : Declared}
    (declares : form.declare catalog enums = .ok declared) :
    form.header.build form.layout catalog enums = .ok declared.instruction ∧
      declared.region = form.region := by
  unfold declare at declares
  split at declares
  next instruction built =>
    cases declares
    exact ⟨built, rfl⟩
  next => cases declares

namespace Expansion

variable {catalog : Catalog} {enums : Registry} {ε α β : Type}

/-- Every tag is kept with the modifier that the catalog and the registry give for it. -/
def Coherent (catalog : Catalog) (enums : Registry) (resolved : ResolvedTags) : Prop :=
  ∀ ⦃tag : String⦄ ⦃modifier : Modifier⦄, resolved.find? tag = some modifier →
    catalog.resolve enums tag = .ok modifier

theorem coherent_empty : Coherent catalog enums .empty := by
  intro tag modifier found
  cases found

theorem Coherent.insert {resolved : ResolvedTags} (coherent : Coherent catalog enums resolved)
    {tag : String} {modifier : Modifier} (resolves : catalog.resolve enums tag = .ok modifier) :
    Coherent catalog enums (resolved.insert tag modifier) := by
  intro wanted found kept
  rw [NameMap.find?_insert] at kept
  split at kept
  next same =>
    cases kept
    rw [same]
    exact resolves
  next => exact coherent kept

/-- The computation comes to the result whatever coherent tags it starts with, and leaves coherent
tags behind, also when it fails. -/
def ComesTo (catalog : Catalog) (enums : Registry) (computation : Expansion ε α)
    (result : Except ε α) : Prop :=
  ∀ ⦃resolved : ResolvedTags⦄, Coherent catalog enums resolved →
    ∃ after, computation.run.run resolved = (result, after) ∧ Coherent catalog enums after

theorem ComesTo.outcome {computation : Expansion ε α} {result : Except ε α}
    (comes : ComesTo catalog enums computation result) : computation.outcome = result := by
  obtain ⟨after, ran, -⟩ := comes coherent_empty
  rw [Expansion.outcome, ran]

theorem comesTo_pure (value : α) :
    ComesTo catalog enums (pure value : Expansion ε α) (.ok value) :=
  fun resolved coherent => ⟨resolved, rfl, coherent⟩

theorem comesTo_lift (result : Except ε α) :
    ComesTo catalog enums (liftM result : Expansion ε α) result :=
  fun resolved coherent => ⟨resolved, rfl, coherent⟩

theorem ComesTo.bind {computation : Expansion ε α} {result : Except ε α}
    {continuation : α → Expansion ε β} {further : α → Except ε β}
    (comes : ComesTo catalog enums computation result)
    (next : ∀ value, ComesTo catalog enums (continuation value) (further value)) :
    ComesTo catalog enums (computation >>= continuation) (result >>= further) := by
  intro resolved coherent
  obtain ⟨after, ran, kept⟩ := comes coherent
  have first : (computation >>= continuation).run.run resolved =
      (ExceptT.bindCont continuation result).run after := by
    show (computation.run >>= ExceptT.bindCont continuation).run resolved = _
    rw [StateT.run_bind, ran]
    rfl
  rw [first]
  cases result with
  | ok value => exact next value kept
  | error error => exact ⟨after, rfl, kept⟩

theorem ComesTo.adapt {δ : Type} {computation : Expansion ε α} {result : Except ε α}
    (comes : ComesTo catalog enums computation result) (change : ε → δ) :
    ComesTo catalog enums (ExceptT.adapt change computation) (result.mapError change) := by
  intro resolved coherent
  obtain ⟨after, ran, kept⟩ := comes coherent
  refine ⟨after, ?_, kept⟩
  show (Except.mapError change <$> computation.run).run resolved = _
  rw [StateT.run_map, ran]
  rfl

theorem comesTo_mapM {γ : Type} {step : γ → Expansion ε α} {result : γ → Except ε α}
    (each : ∀ value, ComesTo catalog enums (step value) (result value)) (values : List γ) :
    ComesTo catalog enums (values.mapM step) (values.mapM result) := by
  induction values with
  | nil => exact comesTo_pure []
  | cons value rest ih =>
      rw [List.mapM_cons, List.mapM_cons]
      exact (each value).bind fun _ => ih.bind fun _ => comesTo_pure _

/-! ## From tags to descriptions -/

theorem run_get_bind (continuation : ResolvedTags → Expansion ε α) (resolved : ResolvedTags) :
    (get >>= continuation).run.run resolved = (continuation resolved).run.run resolved := rfl

theorem comesTo_tagged (tag : String) :
    ComesTo catalog enums (tagged catalog enums tag) (catalog.resolve enums tag) := by
  intro resolved coherent
  rw [tagged, run_get_bind]
  cases kept : resolved.find? tag with
  | some modifier =>
      rw [coherent kept]
      exact ⟨resolved, rfl, coherent⟩
  | none =>
      cases resolves : catalog.resolve enums tag with
      | ok modifier => exact ⟨_, rfl, coherent.insert resolves⟩
      | error error => exact ⟨_, rfl, coherent⟩

theorem comesTo_modifier (reference : ModifierReference) :
    ComesTo catalog enums (modifier catalog enums reference)
      (reference.resolve catalog enums) := by
  cases reference with
  | placed placement => exact comesTo_lift _
  | tagged tag => exact comesTo_tagged tag

/-- Building with kept tags is building without them. -/
theorem comesTo_build (header : PartialHeader) (layout : Layout) :
    ComesTo catalog enums (build catalog enums header layout)
      (header.build layout catalog enums) :=
  (comesTo_lift header.complete).bind fun header =>
    (comesTo_lift (layout.registers (Mnemonic.width header.name))).bind fun registers =>
      (comesTo_mapM comesTo_modifier layout.modifiers).bind fun modifiers =>
        comesTo_lift (header.assemble layout registers modifiers)

theorem comesTo_instruction (form : InstructionForm) :
    ComesTo catalog enums (instruction catalog enums form) (form.declare catalog enums) := by
  have same : form.declare catalog enums =
      (form.header.build form.layout catalog enums).mapError
          (fun error => (⟨form.name, error, form.region⟩ : BuildFault)) >>=
        fun instruction => .ok ⟨instruction, form.region⟩ := by
    rw [InstructionForm.declare]
    cases form.header.build form.layout catalog enums <;> rfl
  rw [same]
  exact ((comesTo_build form.header form.layout).adapt _).bind fun _ => comesTo_pure _

/-- The expansion of a group is that of its members as instructions of their own. -/
theorem group_eq_mapM (form : GroupForm) :
    group catalog enums form = form.instructions.mapM (instruction catalog enums) := by
  rw [GroupForm.instructions, List.mapM_map]
  rfl

theorem directive_eq_mapM (directive : Directive) :
    Expansion.directive catalog enums directive =
      directive.instructions.mapM (instruction catalog enums) := by
  cases directive with
  | lookupTable table => rfl
  | enumeration form => rfl
  | instruction form => simp [Expansion.directive, Directive.instructions]
  | group form => exact group_eq_mapM form

/-- The expansion of directives is that of the instructions that they declare, one after the
other. -/
theorem directives_eq_mapM (directives : List Directive) :
    Expansion.directives catalog enums directives =
      (directives.flatMap (·.instructions)).mapM (instruction catalog enums) := by
  induction directives with
  | nil => rfl
  | cons directive rest ih =>
      rw [List.flatMap_cons, List.mapM_append, ← ih, ← directive_eq_mapM, Expansion.directives,
        List.mapM_cons]
      simp [Expansion.directives]

theorem outcome_directives (directives : List Directive) :
    (Expansion.directives catalog enums directives).outcome =
      (directives.flatMap (·.instructions)).mapM (InstructionForm.declare catalog enums) := by
  rw [directives_eq_mapM]
  exact (comesTo_mapM comesTo_instruction _).outcome

end Expansion

/-- The expansion of a description declares its instructions one by one, each by itself. -/
theorem Table.expand_eq (document : Document) (catalog : Catalog) (enums : Registry) :
    Table.expand document catalog enums =
      (document.instructions.mapM (InstructionForm.declare catalog enums)).mapError
        (·.failure document.path) := by
  rw [Table.expand, Expansion.outcome_directives]
  rfl

end InstructionSet
