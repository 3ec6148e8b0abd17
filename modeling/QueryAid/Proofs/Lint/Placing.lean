import QueryAid.Proofs.Document.Placing
import QueryAid.Proofs.Lint.Order
/-!
# The errors of documents that are moved

The rules of the validation ask what a document says, and report where it says so. So the errors of a document that is
placed somewhere are its errors, each said of the same parts at their places (`Validation.checkDocument_place`). Since a
placement keeps the order of places, the sorting does the same on both sides (`validate_place`).
-/

namespace QueryAid

variable {σ : Placement}

/-! ### Errors at their places -/

/-- A part of a document at its place. -/
def SourceNode.place (σ : Placement) (n : SourceNode) : SourceNode :=
  ⟨n.isVariable, n.name.map σ.span, σ.span n.span, n.definedVariable.map σ.span⟩

/-- An error at its place. -/
def ValidationError.place (σ : Placement) (e : ValidationError) : ValidationError :=
  ⟨e.message, e.nodes.map (SourceNode.place σ)⟩

theorem SourceNode.highlight_place (n : SourceNode) : (n.place σ).highlight = σ.span n.highlight := by
  obtain ⟨isVariable, name, span, defined⟩ := n
  cases isVariable <;> cases name <;> cases defined <;> rfl

theorem SourceNode.place_injective : Function.Injective (SourceNode.place σ) := by
  rintro ⟨isVariable, name, span, defined⟩ ⟨isVariable', name', span', defined'⟩ h
  obtain ⟨hvariable, hname, hspan, hdefined⟩ := SourceNode.mk.inj h
  obtain rfl : isVariable = isVariable' := hvariable
  obtain rfl : name = name' := Option.map_injective Placement.span_injective hname
  obtain rfl : span = span' := Placement.span_injective hspan
  obtain rfl : defined = defined' := Option.map_injective Placement.span_injective hdefined
  rfl

theorem ValidationError.place_injective : Function.Injective (ValidationError.place σ) := by
  rintro ⟨message, nodes⟩ ⟨message', nodes'⟩ h
  obtain ⟨hmessage, hnodes⟩ := ValidationError.mk.inj h
  obtain rfl : message = message' := hmessage
  obtain rfl : nodes = nodes' := List.map_injective_iff.2 SourceNode.place_injective hnodes
  rfl

/-- Places have the same order as what is placed there. -/
theorem ValidationError.order_place_le_iff (a b : ValidationError) :
    (a.place σ).order ≤ (b.place σ).order ↔ a.order ≤ b.order := by
  obtain ⟨message, nodes⟩ := a
  obtain ⟨message', nodes'⟩ := b
  cases nodes with
  | nil => exact iff_of_true (Nat.zero_le _) (Nat.zero_le _)
  | cons n nodes =>
    cases nodes' with
    | nil => exact iff_of_false (Nat.not_succ_le_zero _) (Nat.not_succ_le_zero _)
    | cons n' nodes' =>
      show (n.place σ).highlight.start + 1 ≤ (n'.place σ).highlight.start + 1 ↔ _
      rw [SourceNode.highlight_place, SourceNode.highlight_place, Nat.add_le_add_iff_right]
      exact σ.strictMono_start.le_iff_le.trans Nat.add_le_add_iff_right.symm

theorem dedupAdjacent_map {α β : Type} [DecidableEq α] [DecidableEq β] {f : α → β} (hf : Function.Injective f)
    (l : List α) : dedupAdjacent (l.map f) = (dedupAdjacent l).map f := by
  fun_induction dedupAdjacent l with
  | case1 => rfl
  | case2 a => rfl
  | case3 a l ih => rw [List.map_cons, List.map_cons, dedupAdjacent, if_pos rfl, ← List.map_cons, ih]
  | case4 a b l hab ih =>
    have hne : f a ≠ f b := fun h => hab (hf h)
    rw [List.map_cons, List.map_cons, dedupAdjacent, if_neg hne, ← List.map_cons, ih, List.map_cons]

/-- **Errors are sorted in the same way wherever they are placed.** -/
theorem sortErrors_place (errors : List ValidationError) :
    sortErrors (errors.map (ValidationError.place σ)) = (sortErrors errors).map (ValidationError.place σ) := by
  have hsorted : (errors.mergeSort startsNoLater).map (ValidationError.place σ) =
      (errors.map (ValidationError.place σ)).mergeSort startsNoLater := by
    refine List.map_mergeSort fun a _ b _ => ?_
    exact decide_eq_decide.2 (ValidationError.order_place_le_iff a b).symm
  rw [sortErrors_eq, sortErrors_eq, ← hsorted, dedupAdjacent_map ValidationError.place_injective]

namespace Validation

variable (σ) (s : Schema) (d : Document)

/-! ### Arguments and directives -/

theorem nodeOf_place (span : Span) (n : Option Name) :
    nodeOf (σ.span span) (n.map (Name.place σ)) = (nodeOf span n).place σ := by
  cases n <;> rfl

theorem checkArguments_place (parameters : Table InputValueDef) (owner : ArgumentOwner) (node : SourceNode)
    (args : List Argument) :
    checkArguments parameters owner (node.place σ) (args.map (Argument.place σ)) =
      (checkArguments parameters owner node args).map (ValidationError.place σ) := by
  rw [checkArguments, checkArguments, List.map_append]
  congr 1
  · rw [unknownArguments, unknownArguments, List.filter_map, List.map_map, List.map_map]
    rfl
  · rw [missingArguments, missingArguments, List.map_map]
    simp only [List.any_map]
    rfl

theorem checkKnownDirective_place (location : DirectiveLocation) (earlier : List DirectiveUse) (use : DirectiveUse)
    (definition : DirectiveDef) :
    checkKnownDirective location (earlier.map (DirectiveUse.place σ)) (use.place σ) definition =
      (checkKnownDirective location earlier use definition).map (ValidationError.place σ) := by
  unfold checkKnownDirective
  dsimp only
  have hany : ((earlier.map (DirectiveUse.place σ)).any fun e => e.name.value == use.name.value) =
      earlier.any fun e => e.name.value == use.name.value := List.any_map
  rw [List.map_append, List.map_append, DirectiveUse.name_place, Name.value_place, hany]
  refine congrArg₂ _ (congrArg₂ _ ?_ ?_) ?_
  · split <;> rfl
  · split <;> rfl
  · exact checkArguments_place σ definition.arguments (.directive use.name.value) (namedNode use.span use.name)
      use.arguments

theorem checkDirectivesAfter_place (location : DirectiveLocation) (earlier uses : List DirectiveUse) :
    checkDirectivesAfter s location (earlier.map (DirectiveUse.place σ)) (uses.map (DirectiveUse.place σ)) =
      (checkDirectivesAfter s location earlier uses).map (ValidationError.place σ) := by
  induction uses generalizing earlier with
  | nil => rfl
  | cons use rest ih =>
    have hrest := ih (earlier ++ [use])
    rw [List.map_append, List.map_singleton] at hrest
    rw [List.map_cons, checkDirectivesAfter, hrest, checkDirectivesAfter, List.map_append, DirectiveUse.name_place,
      Name.value_place]
    refine congrArg (· ++ _) ?_
    cases s.directive? use.name.value with
    | none => rfl
    | some definition => exact checkKnownDirective_place σ location earlier use definition

theorem checkDirectives_place (location : DirectiveLocation) (uses : List DirectiveUse) :
    checkDirectives s location (uses.map (DirectiveUse.place σ)) =
      (checkDirectives s location uses).map (ValidationError.place σ) :=
  checkDirectivesAfter_place σ s location [] uses

/-! ### Types -/

theorem checkTypeCondition_place (fragment : Option Name) (condition : Name) :
    checkTypeCondition s (fragment.map (Name.place σ)) (condition.place σ) =
      (checkTypeCondition s fragment condition).map (ValidationError.place σ) := by
  unfold checkTypeCondition
  rw [Name.map_value_place, Name.value_place]
  cases s.type? condition.value with
  | none => rfl
  | some t =>
    dsimp only
    split <;> rfl

theorem checkVariableDefinition_place (v : VariableDefinition) :
    checkVariableDefinition s (v.place σ) = (checkVariableDefinition s v).map (ValidationError.place σ) := by
  unfold checkVariableDefinition
  rw [List.map_append, ← checkDirectives_place]
  refine congrArg (_ ++ ·) ?_
  rw [VariableDefinition.type_place, TypeRef.innermostName_place, TypeRef.text_place, TypeRef.span_place,
    Name.value_place]
  cases s.type? v.type.innermostName.value with
  | none => rfl
  | some t =>
    dsimp only
    split <;> rfl

/-! ### Selections -/

theorem checkKnownField_place (parent : TypeDef) (h : FieldHead) (definition : FieldDef) (hasSelections : Bool) :
    checkKnownField s parent (h.place σ) definition hasSelections =
      (checkKnownField s parent h definition hasSelections).map (ValidationError.place σ) := by
  unfold checkKnownField
  dsimp only
  rw [List.map_append, ← checkArguments_place]
  refine congrArg₂ (· ++ ·) rfl ?_
  cases s.namedType? definition.type with
  | none => rfl
  | some t =>
    dsimp only
    split
    · rfl
    · split <;> rfl

theorem checkFieldHead_place (parent : Option TypeDef) (h : FieldHead) (hasSelections : Bool) :
    checkFieldHead s parent (h.place σ) hasSelections =
      (checkFieldHead s parent h hasSelections).map (ValidationError.place σ) := by
  unfold checkFieldHead
  rw [List.map_append, ← checkDirectives_place]
  refine congrArg (_ ++ ·) ?_
  cases parent with
  | none => rfl
  | some p =>
    dsimp only
    rw [FieldHead.name_place, Name.value_place]
    cases s.resolveField p h.name.value with
    | none => rfl
    | some definition => exact checkKnownField_place σ s p h definition hasSelections

theorem checkSpread_place (f : FragmentSpread) :
    checkSpread s (d.place σ) (f.place σ) = (checkSpread s d f).map (ValidationError.place σ) := by
  unfold checkSpread
  rw [List.map_append, ← checkDirectives_place, Document.fragment?_place, Option.isSome_map, FragmentSpread.name_place,
    Name.value_place]
  refine congrArg (_ ++ ·) ?_
  split <;> rfl

theorem checkInlineHead_place (h : InlineHead) :
    checkInlineHead s (h.place σ) = (checkInlineHead s h).map (ValidationError.place σ) := by
  unfold checkInlineHead
  rw [List.map_append, ← checkDirectives_place]
  refine congrArg (_ ++ ·) ?_
  obtain ⟨condition, uses, span⟩ := h
  cases condition with
  | none => rfl
  | some condition => exact checkTypeCondition_place σ s none condition

theorem inlineType?_place (parent : Option TypeDef) (h : InlineHead) :
    inlineType? s parent (h.place σ) = inlineType? s parent h := by
  obtain ⟨condition, uses, span⟩ := h
  cases condition <;> rfl

mutual

theorem checkSelection_place (parent : Option TypeDef) : ∀ x : Selection,
    checkSelection s (d.place σ) parent (x.place σ) = (checkSelection s d parent x).map (ValidationError.place σ)
  | .field h none => by
    rw [Selection.place, checkSelection, checkFieldHead_place, checkSelection]
  | .field h (some set) => by
    rw [Selection.place, checkSelection, checkFieldHead_place, checkSelection, List.map_append,
      ← checkSelectionSet_place _ set]
    rfl
  | .spread f => by
    rw [Selection.place, checkSelection, checkSpread_place, checkSelection]
  | .inline h set => by
    rw [Selection.place, checkSelection, checkInlineHead_place, inlineType?_place, checkSelection, List.map_append,
      ← checkSelectionSet_place _ set]

/-- **What is wrong with selections is wrong with them wherever they stand.** -/
theorem checkSelectionSet_place (parent : Option TypeDef) : ∀ set : SelectionSet,
    checkSelectionSet s (d.place σ) parent (set.place σ) =
      (checkSelectionSet s d parent set).map (ValidationError.place σ)
  | .mk selections _ => checkSelections_place parent selections

theorem checkSelections_place (parent : Option TypeDef) : ∀ xs : List Selection,
    checkSelections s (d.place σ) parent (Selection.placeList σ xs) =
      (checkSelections s d parent xs).map (ValidationError.place σ)
  | [] => rfl
  | x :: xs => by
    rw [Selection.placeList, checkSelections, checkSelection_place parent x, checkSelections_place parent xs,
      ← List.map_append, checkSelections]

end

/-! ### Variables -/

theorem undefinedVariables_place (o : Operation) :
    undefinedVariables (d.place σ) (o.place σ) = (undefinedVariables d o).map (ValidationError.place σ) := by
  have hdefined (name : String) : ((o.place σ).variableDefinitions.any fun v => v.name.value == name) =
      o.variableDefinitions.any fun v => v.name.value == name := List.any_map
  have hname : (o.place σ).name.map Name.value = o.name.map Name.value := Name.map_value_place σ o.name
  simp only [undefinedVariables, hdefined, hname]
  rw [Document.usages_place, List.filter_map, List.map_map, List.map_map]
  rfl

theorem unusedVariables_place (o : Operation) :
    unusedVariables (d.place σ) (o.place σ) = (unusedVariables d o).map (ValidationError.place σ) := by
  have hused (name : String) : (((d.usages o).map (VariableReference.place σ)).any fun r => r.name.value == name) =
      (d.usages o).any fun r => r.name.value == name := List.any_map
  have hname : (o.place σ).name.map Name.value = o.name.map Name.value := Name.map_value_place σ o.name
  have hdefinitions : (o.place σ).variableDefinitions = o.variableDefinitions.map (VariableDefinition.place σ) := rfl
  simp only [unusedVariables, Document.usages_place, hused, hname]
  rw [hdefinitions, List.filter_map, List.map_map, List.map_map]
  rfl

theorem checkVariableUsage_place (o : Operation) :
    checkVariableUsage (d.place σ) (o.place σ) = (checkVariableUsage d o).map (ValidationError.place σ) := by
  rw [checkVariableUsage, checkVariableUsage, List.map_append, undefinedVariables_place, unusedVariables_place]

/-! ### Definitions -/

theorem checkOperation_place (o : Operation) :
    checkOperation s (d.place σ) (o.place σ) = (checkOperation s d o).map (ValidationError.place σ) := by
  have hvariables : (o.variableDefinitions.map (VariableDefinition.place σ)).flatMap (checkVariableDefinition s) =
      (o.variableDefinitions.flatMap (checkVariableDefinition s)).map (ValidationError.place σ) :=
    flatMap_place (checkVariableDefinition_place σ s) o.variableDefinitions
  have hroot : (if (s.root? o.kind).isSome then [] else
      [(Violation.noRoot o.kind).on (nodeOf (σ.span o.span) (o.name.map (Name.place σ)))]) =
      (if (s.root? o.kind).isSome then [] else [(Violation.noRoot o.kind).on (nodeOf o.span o.name)]).map
        (ValidationError.place σ) := by
    rw [nodeOf_place]
    split <;> rfl
  unfold checkOperation
  rw [List.map_append, List.map_append, List.map_append, List.map_append, ← checkVariableUsage_place,
    ← checkSelectionSet_place, ← checkDirectives_place, ← hvariables, ← hroot]
  rfl

theorem checkFragment_place (f : Fragment) :
    checkFragment s (d.place σ) (f.place σ) = (checkFragment s d f).map (ValidationError.place σ) := by
  rw [checkFragment, checkFragment, List.map_append, List.map_append, ← checkSelectionSet_place,
    ← checkDirectives_place, ← checkTypeCondition_place]
  rfl

theorem checkDefinition_place (x : Definition) :
    checkDefinition s (d.place σ) (x.place σ) = (checkDefinition s d x).map (ValidationError.place σ) := by
  cases x with
  | operation o => exact checkOperation_place σ s d o
  | fragment f => exact checkFragment_place σ s d f

theorem checkNonExecutable_place (x : NonExecutable) :
    checkNonExecutable (x.place σ) = (checkNonExecutable x).place σ := by
  obtain ⟨n, span⟩ := x
  cases n <;> rfl

/-- **The errors of a document that is placed somewhere are its errors,** placed there. -/
theorem checkDocument_place :
    checkDocument s (d.place σ) = (checkDocument s d).map (ValidationError.place σ) := by
  have hnot : (d.nonExecutable.map (NonExecutable.place σ)).map checkNonExecutable =
      (d.nonExecutable.map checkNonExecutable).map (ValidationError.place σ) := by
    rw [List.map_map, List.map_map]
    exact List.map_congr_left fun x _ => checkNonExecutable_place σ x
  have hdefinitions : (d.definitions.map (Definition.place σ)).flatMap (checkDefinition s (d.place σ)) =
      (d.definitions.flatMap (checkDefinition s d)).map (ValidationError.place σ) :=
    flatMap_place (checkDefinition_place σ s d) d.definitions
  rw [checkDocument, checkDocument, List.map_append, ← hnot, ← hdefinitions]
  rfl

end Validation

/-- **The validation of a document that is placed somewhere reports its errors in the same order.** -/
theorem validate_place (s : Schema) (d : Document) :
    validate s (d.place σ) = (validate s d).map (ValidationError.place σ) := by
  rw [validate, Validation.checkDocument_place, sortErrors_place, validate]

end QueryAid
