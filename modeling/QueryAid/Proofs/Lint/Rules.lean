import QueryAid.Lint.Validation
import QueryAid.Proofs.Insertion
/-!
# What the rules ask for

Each rule of the validation finds nothing exactly if the part of the document that it looks at is as it should be:
one lemma for each rule. The rules for selection sets are about their nesting as well and are not among them.
-/

namespace QueryAid

/-! ### What is asked for -/

/-- **Arguments are right for some parameters:** each is for one of them, and those that are required are given. -/
structure ArgumentsMatch (parameters : Table InputValueDef) (args : List Argument) : Prop where
  known : ∀ a ∈ args, a.name.value ∈ parameters.names
  required : ∀ p ∈ parameters.entries, p.isRequired = true → ∃ a ∈ args, a.name.value = p.name

namespace Schema

variable (s : Schema)

/-- A directive is defined, may stand at the location, and has the right arguments. -/
def AllowsDirective (location : DirectiveLocation) (use : DirectiveUse) : Prop :=
  ∃ definition, s.directive? use.name.value = some definition ∧ definition.allows location = true ∧
    ArgumentsMatch definition.arguments use.arguments

/-- A name is that of a directive that may be repeated. -/
def IsRepeatable (name : String) : Prop :=
  ∃ definition, s.directive? name = some definition ∧ definition.repeatable = true

/-- **Directives may stand side by side at a location:** each of them may stand there, and those that occur twice may
be repeated. -/
structure AllowsDirectives (location : DirectiveLocation) (uses : List DirectiveUse) : Prop where
  each : ∀ use ∈ uses, s.AllowsDirective location use
  repeated : uses.Pairwise fun first second => first.name.value = second.name.value →
    s.IsRepeatable second.name.value

/-- A name is that of a type which things can be selected from. -/
def IsCompositeName (name : String) : Prop := ∃ t, s.type? name = some t ∧ t.isComposite = true

/-- A name is that of a type which variables can have. -/
def IsInputName (name : String) : Prop := ∃ t, s.type? name = some t ∧ t.isInput = true

/-- **A field can be selected from a type,** with these arguments, and with or without selections of its own: it has
selections exactly if there is something to select from its type. -/
def AllowsField (t : TypeDef) (head : FieldHead) (hasSelections : Bool) : Prop :=
  ∃ f u, s.resolveField t head.name.value = some f ∧ ArgumentsMatch f.arguments head.arguments ∧
    s.namedType? f.type = some u ∧ hasSelections = u.isComposite

end Schema

/-! ### The rules -/

namespace Validation

variable {s : Schema} {d : Document} {location : DirectiveLocation}

theorem checkArguments_eq_nil_iff {parameters : Table InputValueDef} {owner : ArgumentOwner}
    {node : SourceNode} {args : List Argument} :
    checkArguments parameters owner node args = [] ↔ ArgumentsMatch parameters args := by
  have hknown : unknownArguments parameters owner args = [] ↔ ∀ a ∈ args, a.name.value ∈ parameters.names := by
    simp [unknownArguments, Table.contains_iff]
  have hrequired : missingArguments parameters owner node args = [] ↔
      ∀ p ∈ parameters.entries, p.isRequired = true → ∃ a ∈ args, a.name.value = p.name := by
    simp [missingArguments]
  rw [checkArguments, List.append_eq_nil_iff, hknown, hrequired]
  exact ⟨fun ⟨h1, h2⟩ => ⟨h1, h2⟩, fun ⟨h1, h2⟩ => ⟨h1, h2⟩⟩

theorem checkKnownDirective_eq_nil_iff {earlier : List DirectiveUse} {use : DirectiveUse}
    {definition : DirectiveDef} :
    checkKnownDirective location earlier use definition = [] ↔
      (∀ e ∈ earlier, e.name.value = use.name.value → definition.repeatable = true) ∧
      definition.allows location = true ∧ ArgumentsMatch definition.arguments use.arguments := by
  have hrepeated : ((earlier.any fun e => e.name.value == use.name.value) && !definition.repeatable) = false ↔
      ∀ e ∈ earlier, e.name.value = use.name.value → definition.repeatable = true := by
    cases definition.repeatable <;> simp
  rw [checkKnownDirective, List.append_eq_nil_iff, List.append_eq_nil_iff, checkArguments_eq_nil_iff, and_assoc,
    ← hrepeated]
  refine and_congr ?_ (and_congr ?_ Iff.rfl)
  · split
    · next h => simp [h]
    · next h => simp [h]
  · split
    · next h => simp [h]
    · next h => simp [h]

/-- Directives are right if each is, and none repeats one of those before it or another one of them. -/
theorem checkDirectivesAfter_eq_nil_iff {earlier uses : List DirectiveUse} :
    checkDirectivesAfter s location earlier uses = [] ↔
      s.AllowsDirectives location uses ∧
      ∀ e ∈ earlier, ∀ use ∈ uses, e.name.value = use.name.value → s.IsRepeatable use.name.value := by
  induction uses generalizing earlier with
  | nil => exact iff_of_true rfl ⟨⟨nofun, List.Pairwise.nil⟩, fun _ _ => nofun⟩
  | cons use rest ih =>
    rw [checkDirectivesAfter, List.append_eq_nil_iff, ih]
    cases hdefinition : s.directive? use.name.value with
    | none =>
      refine iff_of_false (fun h => List.cons_ne_nil _ _ h.1) fun h => ?_
      obtain ⟨_, hsome, -⟩ := h.1.each use List.mem_cons_self
      rw [hdefinition] at hsome
      cases hsome
    | some definition =>
      -- What is asked of a repeated directive is asked of its definition.
      have hrepeatable : s.IsRepeatable use.name.value ↔ definition.repeatable = true := by
        simp [Schema.IsRepeatable, hdefinition]
      have hallows : s.AllowsDirective location use ↔
          definition.allows location = true ∧ ArgumentsMatch definition.arguments use.arguments := by
        simp [Schema.AllowsDirective, hdefinition]
      rw [checkKnownDirective_eq_nil_iff, ← hallows, ← hrepeatable]
      constructor
      · rintro ⟨⟨hbefore, huse⟩, hrest, hafter⟩
        rw [List.forall_mem_append, List.forall_mem_singleton] at hafter
        exact ⟨⟨List.forall_mem_cons.2 ⟨huse, hrest.each⟩, List.pairwise_cons.2 ⟨hafter.2, hrest.repeated⟩⟩,
          fun e he => List.forall_mem_cons.2 ⟨hbefore e he, hafter.1 e he⟩⟩
      · rintro ⟨⟨heach, hrepeated⟩, hbefore⟩
        rw [List.forall_mem_cons] at heach
        rw [List.pairwise_cons] at hrepeated
        refine ⟨⟨fun e he => hbefore e he use List.mem_cons_self, heach.1⟩, ⟨heach.2, hrepeated.2⟩, ?_⟩
        rw [List.forall_mem_append, List.forall_mem_singleton]
        exact ⟨fun e he use' huse' => hbefore e he use' (List.mem_cons_of_mem _ huse'), hrepeated.1⟩

theorem checkDirectives_eq_nil_iff {uses : List DirectiveUse} :
    checkDirectives s location uses = [] ↔ s.AllowsDirectives location uses := by
  rw [checkDirectives, checkDirectivesAfter_eq_nil_iff]
  exact and_iff_left fun _ => nofun

theorem checkTypeCondition_eq_nil_iff {fragment : Option Name} {condition : Name} :
    checkTypeCondition s fragment condition = [] ↔ s.IsCompositeName condition.value := by
  unfold checkTypeCondition Schema.IsCompositeName
  cases s.type? condition.value with
  | none => simp
  | some t => cases h : t.isComposite <;> simp [h]

theorem checkVariableDefinition_eq_nil_iff {v : VariableDefinition} :
    checkVariableDefinition s v = [] ↔
      s.AllowsDirectives .variableDefinition v.directives ∧ s.IsInputName v.type.innermostName.value := by
  rw [checkVariableDefinition, List.append_eq_nil_iff, checkDirectives_eq_nil_iff]
  refine and_congr_right fun _ => ?_
  unfold Schema.IsInputName
  cases s.type? v.type.innermostName.value with
  | none => simp
  | some t => cases h : t.isInput <;> simp [h]

theorem checkSpread_eq_nil_iff {f : FragmentSpread} :
    checkSpread s d f = [] ↔
      s.AllowsDirectives .fragmentSpread f.directives ∧ ∃ g ∈ d.fragments, g.name.value = f.name.value := by
  rw [checkSpread, List.append_eq_nil_iff, checkDirectives_eq_nil_iff]
  refine and_congr_right fun _ => ?_
  have hfragment : (d.fragment? f.name.value).isSome = true ↔ ∃ g ∈ d.fragments, g.name.value = f.name.value := by
    simp [Document.fragment?, List.find?_isSome]
  rw [← hfragment]
  split
  · next h => simp [h]
  · next h => simp [h]

theorem checkInlineHead_eq_nil_iff {h : InlineHead} :
    checkInlineHead s h = [] ↔
      s.AllowsDirectives .inlineFragment h.directives ∧
      ∀ condition, h.typeCondition = some condition → s.IsCompositeName condition.value := by
  rw [checkInlineHead, List.append_eq_nil_iff, checkDirectives_eq_nil_iff]
  refine and_congr_right fun _ => ?_
  cases h.typeCondition with
  | none => simp
  | some condition => simp [checkTypeCondition_eq_nil_iff]

/-- **The rules for a field of a known type,** if all fields of the type have a type that is no input object. -/
theorem checkFieldHead_eq_nil_iff {t : TypeDef} {head : FieldHead} {hasSelections : Bool}
    (h : ∀ name f, s.resolveField t name = some f → ∃ u, s.namedType? f.type = some u ∧ u.isInputObject = false) :
    checkFieldHead s (some t) head hasSelections = [] ↔
      s.AllowsDirectives .field head.directives ∧ s.AllowsField t head hasSelections := by
  rw [checkFieldHead, List.append_eq_nil_iff, checkDirectives_eq_nil_iff]
  refine and_congr_right fun _ => ?_
  unfold Schema.AllowsField
  cases hf : s.resolveField t head.name.value with
  | none => simp
  | some f =>
    obtain ⟨u, hu, hinput⟩ := h _ _ hf
    have hleaf : u.isLeaf = !u.isComposite := by rw [TypeDef.isLeaf, hinput, Bool.not_false, Bool.and_true]
    dsimp only
    rw [checkKnownField, List.append_eq_nil_iff, checkArguments_eq_nil_iff, hu]
    simp only [Option.some.injEq, exists_and_left, exists_eq_left', hu, hleaf]
    refine and_congr_right fun _ => ?_
    cases hasSelections <;> cases u.isComposite <;> simp

end Validation

end QueryAid
