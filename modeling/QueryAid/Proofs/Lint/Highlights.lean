import QueryAid.Lint.Diagnostic
import QueryAid.Proofs.Document.Parts
import QueryAid.Proofs.Lint.Order
/-!
# What diagnostics point at

Every validation diagnostic points at the text that it talks about (`lint_pointsAt`): the name in its message, with a
few exceptions that `Violation.PointsAt` lists. The rules are looked at one by one; each of them reports a part of the
document, and the span of that part is well formed and covers the text that belongs there.
-/

namespace QueryAid

/-- **A violation points at a text.** Mostly this is the name that the violation is about. What is said of a variable
whose type is no input type points at the name in the type, and an unused variable is pointed at with its dollar sign;
an operation or a definition without a name is pointed at as a whole. -/
def Violation.PointsAt (source : List Char) (d : Document) (s : Span) : Violation → Prop
  | notExecutable none => ∃ x ∈ d.nonExecutable, x.name = none ∧ s = x.span
  | noRoot kind =>
    ∃ o ∈ d.operations, o.kind = kind ∧
      o.name.elim (s = o.span) fun n => s = n.span ∧ s.text? source = some n.value.toList
  | nonInputVariable name type =>
    ∃ o ∈ d.operations, ∃ v ∈ o.variableDefinitions, v.name.value = name ∧ v.type.text = type ∧
      s = v.type.innermostName.span ∧ s.text? source = some v.type.innermostName.value.toList
  | unusedVariable name _ => ∃ between, s.text? source = some ('$' :: between ++ name.toList)
  | notExecutable (some name) | unknownType name | nonCompositeCondition _ name | unknownFragment name
  | unknownField name _ | selectionsOnLeaf name _ | selectionsMissing name _ | unknownDirective name
  | repeatedDirective name | misplacedDirective name _ | unknownArgument name _ | missingArgument _ _ (.field name _)
  | missingArgument _ _ (.directive name) | undefinedVariable name _ => s.text? source = some name.toList

namespace Validation

/-- A violation is said of a part that it points at with a well formed span. -/
def PointsWell (source : List Char) (d : Document) (v : Violation) (n : SourceNode) : Prop :=
  n.highlight.WellFormed source ∧ v.PointsAt source d n.highlight

variable {source : List Char} {s : Schema} {d : Document}

section Rules

variable (hparse : Document.parse source = .ok d)
include hparse

/-- The name in a part covers its value. -/
theorem name_pointsWell {l : Layout} {n : Name} (hl : d.IsPart l) (hn : Layout.IsPart (.name n) l) :
    n.span.WellFormed source ∧ n.span.text? source = some n.value.toList :=
  Document.layout_wellPlaced_of_parse hparse (hl.below hn)

theorem span_wellFormed {l : Layout} {span : Span} (hl : d.IsPart l) (hspan : l.span? = some span) :
    span.WellFormed source := by
  have h := Document.layout_wellPlaced_of_parse hparse hl
  cases l with
  | symbol x => cases hspan
  | slack x => cases hspan
  | name n =>
    cases hspan
    exact h.1
  | variableName n span =>
    cases hspan
    exact h.1
  | node span parts =>
    cases hspan
    exact h.1

theorem checkArguments_pointsWell {parameters : Table InputValueDef} {owner : ArgumentOwner} {node : SourceNode}
    {args : List Argument} (hargs : ∀ a ∈ args, d.IsPart a.layout)
    (howner : ∀ name type, PointsWell source d (.missingArgument name type owner) node) :
    ReportsOf (PointsWell source d) (checkArguments parameters owner node args) := by
  refine (reportsOf_map fun a ha => ?_).append (reportsOf_map fun _ _ => howner _ _)
  exact name_pointsWell hparse (hargs a (List.mem_filter.1 ha).1) a.name_isPart

theorem checkKnownDirective_pointsWell {location : DirectiveLocation} {earlier : List DirectiveUse} {use : DirectiveUse}
    {definition : DirectiveDef} (huse : d.IsPart use.layout) :
    ReportsOf (PointsWell source d) (checkKnownDirective location earlier use definition) := by
  have hname := name_pointsWell hparse huse use.name_isPart
  refine ReportsOf.append (ReportsOf.append ?_ ?_) ?_
  · split
    · exact reportsOf_on hname
    · exact reportsOf_nil
  · split
    · exact reportsOf_nil
    · exact reportsOf_on hname
  · exact checkArguments_pointsWell hparse (fun a ha => huse.below (DirectiveUse.argument_isPart ha)) fun _ _ => hname

theorem checkDirectivesAfter_pointsWell {location : DirectiveLocation} {earlier uses : List DirectiveUse}
    (huses : ∀ use ∈ uses, d.IsPart use.layout) :
    ReportsOf (PointsWell source d) (checkDirectivesAfter s location earlier uses) := by
  induction uses generalizing earlier with
  | nil => exact reportsOf_nil
  | cons use rest ih =>
    rw [List.forall_mem_cons] at huses
    rw [checkDirectivesAfter]
    refine ReportsOf.append ?_ (ih huses.2)
    split
    · exact reportsOf_on (name_pointsWell hparse huses.1 use.name_isPart)
    · exact checkKnownDirective_pointsWell hparse huses.1

theorem checkTypeCondition_pointsWell {fragment : Option Name} {condition : Name} {l : Layout} (hl : d.IsPart l)
    (hcondition : Layout.IsPart (.name condition) l) :
    ReportsOf (PointsWell source d) (checkTypeCondition s fragment condition) := by
  have hname := name_pointsWell hparse hl hcondition
  unfold checkTypeCondition
  split
  · exact reportsOf_on hname
  · split
    · exact reportsOf_nil
    · exact reportsOf_on hname

theorem checkVariableDefinition_pointsWell {o : Operation} {v : VariableDefinition} (ho : .operation o ∈ d.definitions)
    (hv : v ∈ o.variableDefinitions) : ReportsOf (PointsWell source d) (checkVariableDefinition s v) := by
  have hdefinition : d.IsPart v.layout := (Document.definition_isPart ho).below (Operation.variable_isPart hv)
  have hname := name_pointsWell hparse hdefinition (v.type.innermostName_isPart.trans v.type_isPart)
  have hdirectives : ∀ use ∈ v.directives, d.IsPart use.layout :=
    fun use huse => hdefinition.below (VariableDefinition.directive_isPart huse)
  refine ReportsOf.append (checkDirectivesAfter_pointsWell hparse hdirectives) ?_
  split
  · exact reportsOf_on hname
  · split
    · exact reportsOf_nil
    · exact reportsOf_on ⟨hname.1, o, Document.mem_operations_iff.2 ho, v, hv, rfl, rfl, rfl, hname.2⟩

theorem checkKnownField_pointsWell {t : TypeDef} {head : FieldHead} {inner : Option SelectionSet}
    {definition : FieldDef} {hasSelections : Bool} (hhead : d.IsPart (Selection.field head inner).layout) :
    ReportsOf (PointsWell source d) (checkKnownField s t head definition hasSelections) := by
  have hname := name_pointsWell hparse hhead FieldHead.name_isPart
  refine ReportsOf.append (checkArguments_pointsWell hparse
    (fun a ha => hhead.below (FieldHead.argument_isPart ha)) fun _ _ => hname) ?_
  split
  · exact reportsOf_nil
  · split
    · exact reportsOf_on hname
    · split
      · exact reportsOf_on hname
      · exact reportsOf_nil

theorem checkFieldHead_pointsWell {parent : Option TypeDef} {head : FieldHead} {inner : Option SelectionSet}
    {hasSelections : Bool} (hhead : d.IsPart (Selection.field head inner).layout) :
    ReportsOf (PointsWell source d) (checkFieldHead s parent head hasSelections) := by
  refine ReportsOf.append
    (checkDirectivesAfter_pointsWell hparse fun use huse => hhead.below (FieldHead.directive_isPart huse)) ?_
  split
  · exact reportsOf_nil
  · split
    · exact reportsOf_on (name_pointsWell hparse hhead FieldHead.name_isPart)
    · exact checkKnownField_pointsWell hparse hhead

theorem checkSelectionHead_pointsWell {parent : Option TypeDef} {y : Selection} (hy : d.IsPart y.layout) :
    ReportsOf (PointsWell source d) (checkSelectionHead s d parent y) := by
  cases y with
  | field head inner => exact checkFieldHead_pointsWell hparse hy
  | spread f =>
    refine ReportsOf.append
      (checkDirectivesAfter_pointsWell hparse fun use huse => hy.below (FragmentSpread.directive_isPart huse)) ?_
    split
    · exact reportsOf_nil
    · exact reportsOf_on (name_pointsWell hparse hy f.name_isPart)
  | inline head inner =>
    refine ReportsOf.append
      (checkDirectivesAfter_pointsWell hparse fun use huse => hy.below (InlineHead.directive_isPart huse)) ?_
    split
    · exact reportsOf_nil
    · next hcondition => exact checkTypeCondition_pointsWell hparse hy (InlineHead.condition_isPart hcondition)

omit hparse in
theorem isPart_of_enters {x : Definition} {path : List Descent} {parent : Option TypeDef} {set : SelectionSet}
    (h : Enters s x path parent set) : Layout.IsPart set.layout x.layout := by
  induction h with
  | root =>
    cases x with
    | operation o => exact o.set_isPart
    | fragment f => exact f.set_isPart
  | field _ hy ih => exact (FieldHead.set_isPart.trans (SelectionSet.selection_isPart hy)).trans ih
  | inline _ hy ih => exact (InlineHead.set_isPart.trans (SelectionSet.selection_isPart hy)).trans ih

/-- What the validation finds on its walk it finds in parts of the document. -/
theorem checkSelectionSet_pointsWell {x : Definition} (hx : x ∈ d.definitions) :
    ReportsOf (PointsWell source d) (checkSelectionSet s d (rootType? s x) x.selectionSet) := by
  intro e he
  obtain ⟨path, parent, set, hset, y, hy, he⟩ := mem_checkSelectionSet_iff.1 he
  have hpart : d.IsPart y.layout :=
    (Document.definition_isPart hx).below ((SelectionSet.selection_isPart hy).trans (isPart_of_enters hset))
  exact checkSelectionHead_pointsWell hparse hpart e he

theorem checkVariableUsage_pointsWell {o : Operation} (ho : .operation o ∈ d.definitions) :
    ReportsOf (PointsWell source d) (checkVariableUsage d o) := by
  refine (reportsOf_map fun r hr => ?_).append (reportsOf_map fun v hv => ?_)
  · exact name_pointsWell hparse (Document.usage_isPart ho (List.mem_filter.1 hr).1) r.name_isPart
  · have hdefinition := (Document.definition_isPart ho).below (Operation.variable_isPart (List.mem_filter.1 hv).1)
    obtain ⟨hspan, -, -, htext⟩ := Document.layout_wellPlaced_of_parse hparse (hdefinition.below v.name_isPart)
    exact ⟨hspan, htext⟩

theorem checkOperation_pointsWell {o : Operation} (ho : .operation o ∈ d.definitions) :
    ReportsOf (PointsWell source d) (checkOperation s d o) := by
  have hoperation : d.IsPart o.layout := Document.definition_isPart ho
  have hroot : ReportsOf (PointsWell source d)
      (if (s.root? o.kind).isSome then [] else [(Violation.noRoot o.kind).on (nodeOf o.span o.name)]) := by
    split
    · exact reportsOf_nil
    · refine reportsOf_on ?_
      cases hname : o.name with
      | none =>
        refine ⟨span_wellFormed hparse hoperation rfl, o, Document.mem_operations_iff.2 ho, rfl, ?_⟩
        rw [hname]
        rfl
      | some n =>
        have h := name_pointsWell hparse hoperation (Operation.name_isPart hname)
        refine ⟨h.1, o, Document.mem_operations_iff.2 ho, rfl, ?_⟩
        rw [hname]
        exact ⟨rfl, h.2⟩
  have hdirectives : ReportsOf (PointsWell source d) (checkDirectives s o.kind.directiveLocation o.directives) :=
    checkDirectivesAfter_pointsWell hparse fun use huse => hoperation.below (Operation.directive_isPart huse)
  have hvariables : ReportsOf (PointsWell source d) (o.variableDefinitions.flatMap (checkVariableDefinition s)) :=
    reportsOf_flatMap fun v hv => checkVariableDefinition_pointsWell hparse ho hv
  exact (((hroot.append hdirectives).append hvariables).append (checkSelectionSet_pointsWell hparse ho)).append
    (checkVariableUsage_pointsWell hparse ho)

theorem checkFragment_pointsWell {f : Fragment} (hf : .fragment f ∈ d.definitions) :
    ReportsOf (PointsWell source d) (checkFragment s d f) := by
  have hfragment : d.IsPart f.layout := Document.definition_isPart hf
  have hdirectives : ReportsOf (PointsWell source d) (checkDirectives s .fragmentDefinition f.directives) :=
    checkDirectivesAfter_pointsWell hparse fun use huse => hfragment.below (Fragment.directive_isPart huse)
  exact (hdirectives.append (checkTypeCondition_pointsWell hparse hfragment f.condition_isPart)).append
    (checkSelectionSet_pointsWell hparse hf)

theorem checkNonExecutable_pointsWell {x : NonExecutable} (hx : x ∈ d.nonExecutable) :
    PointsWell source d (.notExecutable (x.name.map Name.value)) (nodeOf x.span x.name) := by
  have hpart : d.IsPart x.layout := .inr ⟨x, hx, .self _⟩
  cases hname : x.name with
  | none => exact ⟨span_wellFormed hparse hpart rfl, x, hx, hname, rfl⟩
  | some n => exact name_pointsWell hparse hpart (NonExecutable.name_isPart hname)

/-- **Every error is said of a part of the document that it points at.** -/
theorem checkDocument_pointsWell : ReportsOf (PointsWell source d) (checkDocument s d) := by
  refine (reportsOf_map fun x hx => checkNonExecutable_pointsWell hparse hx).append (reportsOf_flatMap fun x hx => ?_)
  cases x with
  | operation o => exact checkOperation_pointsWell hparse hx
  | fragment f => exact checkFragment_pointsWell hparse hx

end Rules

end Validation

/-! ### Diagnostics -/

/-- The bytes that a diagnostic is attached to. -/
def Diagnostic.range (x : Diagnostic) : Span := ⟨x.start.offset, x.stop.offset⟩

/-- The places of a span on boundaries have its offsets. -/
theorem LineIndex.offset_position {source : List Char} {offset : Nat} (h : isBoundary source offset = true) :
    ((LineIndex.ofSource source).position offset).offset = offset :=
  beq_iff_eq.1 h

section Lint

variable {source : List Char} {s : Schema} {d : Document} {e : ValidationError} {x : Diagnostic}

/-- **An error has one diagnostic,** with the message of a violation, on the span that it points at. -/
theorem Diagnostic.ofError_eq (hparse : Document.parse source = .ok d) (he : e ∈ validate s d) :
    ∃ (v : Violation) (x : Diagnostic), Diagnostic.ofError (.ofSource source) e = [x] ∧ x.message = v.message ∧
      x.range.WellFormed source ∧ v.PointsAt source d x.range ∧ e.order = x.start.offset + 1 := by
  obtain ⟨v, n, rfl, hspan, hpoints⟩ := Validation.checkDocument_pointsWell hparse e (mem_sortErrors_iff.1 he)
  set start := (LineIndex.ofSource source).position n.highlight.start with hstart
  set stop := (LineIndex.ofSource source).position n.highlight.stop with hstop
  have hrange : (⟨start.offset, stop.offset⟩ : Span) = n.highlight := by
    rw [hstart, hstop, LineIndex.offset_position hspan.isBoundary_start,
      LineIndex.offset_position hspan.isBoundary_stop]
  refine ⟨v, ⟨.validation, v.message, start, stop⟩, rfl, rfl, ?_⟩
  rw [Diagnostic.range, hrange]
  exact ⟨hspan, hpoints, congrArg (· + 1) (LineIndex.offset_position hspan.isBoundary_start).symm⟩

theorem lint_eq (hparse : Document.parse source = .ok d) :
    lint source (some s) = (validate s d).flatMap (Diagnostic.ofError (.ofSource source)) := by
  rw [lint, lintWith, hparse]

/-- **Every validation diagnostic points at the text that it talks about,** which is not empty and lies between
characters, and diagnostics come in the order of their places. -/
theorem lint_pointsAt (source : List Char) (s : Schema) :
    (∀ x ∈ lint source (some s), x.category = .validation → ∃ (d : Document) (v : Violation),
      Document.parse source = .ok d ∧ x.message = v.message ∧ x.range.WellFormed source ∧ v.PointsAt source d x.range) ∧
    (lint source (some s)).Pairwise fun x y => x.start.offset ≤ y.start.offset := by
  cases hparse : Document.parse source with
  | error e =>
    have hlint : lint source (some s) = [.ofSyntaxError (.ofSource source) e] := by
      rw [lint, lintWith, hparse]
    rw [hlint]
    refine ⟨fun x hx hcategory => ?_, List.pairwise_singleton _ _⟩
    obtain rfl := List.mem_singleton.1 hx
    cases hcategory
  | ok d =>
    rw [lint_eq hparse]
    constructor
    · intro x hx _
      obtain ⟨e, he, hx⟩ := List.mem_flatMap.1 hx
      obtain ⟨v, y, hone, hmessage, hspan, hpoints, -⟩ := Diagnostic.ofError_eq hparse he
      rw [hone] at hx
      obtain rfl := List.mem_singleton.1 hx
      exact ⟨d, v, rfl, hmessage, hspan, hpoints⟩
    · refine List.pairwise_flatMap.2 ⟨fun e he => ?_, ?_⟩
      · obtain ⟨v, x, hone, -⟩ := Diagnostic.ofError_eq hparse he
        rw [hone]
        exact List.pairwise_singleton _ _
      · refine List.Pairwise.imp_of_mem (fun {e e'} he he' horder => ?_) pairwise_sortErrors
        obtain ⟨v, x, hone, -, -, -, hstart⟩ := Diagnostic.ofError_eq hparse he
        obtain ⟨v', x', hone', -, -, -, hstart'⟩ := Diagnostic.ofError_eq hparse he'
        rw [hone, hone']
        refine List.forall_mem_singleton.2 (List.forall_mem_singleton.2 ?_)
        omega

end Lint

end QueryAid
