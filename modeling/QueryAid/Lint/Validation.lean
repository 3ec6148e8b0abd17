import QueryAid.Document.Usage
import QueryAid.Lint.Violation
/-!
# Validating documents

The rules that a document must keep for a schema to answer it. Every rule is a function from a part of the
document to the errors in it, in order. Below a field that does not exist, or a type condition that does not
hold, the parent type is unknown, and only the rules apply that do not ask for it.
-/

namespace QueryAid

namespace Validation

variable (s : Schema) (d : Document)

/-- A node with the name it bears. -/
def namedNode (span : Span) (n : Name) : SourceNode := .named span n.span

/-- A node that is a name. -/
def nameNode (n : Name) : SourceNode := .named n.span n.span

/-! ### Arguments and directives -/

/-- The arguments that are not among the parameters. -/
def unknownArguments (parameters : Table InputValueDef) (owner : ArgumentOwner) (args : List Argument) :
    List ValidationError :=
  (args.filter fun a => !parameters.contains a.name.value).map fun a =>
    (Violation.unknownArgument a.name.value owner).on (namedNode a.span a.name)

/-- The parameters that must be given and are not. -/
def missingArguments (parameters : Table InputValueDef) (owner : ArgumentOwner) (node : SourceNode)
    (args : List Argument) : List ValidationError :=
  (parameters.entries.filter fun p => p.isRequired && !args.any fun a => a.name.value == p.name).map fun p =>
    (Violation.missingArgument p.name p.type.text owner).on node

/-- The rules for arguments. -/
def checkArguments (parameters : Table InputValueDef) (owner : ArgumentOwner) (node : SourceNode)
    (args : List Argument) : List ValidationError :=
  unknownArguments parameters owner args ++ missingArguments parameters owner node args

/-- The rules for a directive of which the definition is known, when `earlier` directives stand before it. -/
def checkKnownDirective (location : DirectiveLocation) (earlier : List DirectiveUse) (use : DirectiveUse)
    (definition : DirectiveDef) : List ValidationError :=
  let node := namedNode use.span use.name
  let name := use.name.value
  (if (earlier.any fun e => e.name.value == name) && !definition.repeatable then
    [(Violation.repeatedDirective name).on node] else []) ++
  (if definition.allows location then [] else [(Violation.misplacedDirective name location).on node]) ++
  checkArguments definition.arguments (.directive name) node use.arguments

/-- The rules for directives that stand side by side, when `earlier` ones stand before them. -/
def checkDirectivesAfter (location : DirectiveLocation) (earlier : List DirectiveUse) :
    List DirectiveUse → List ValidationError
  | [] => []
  | use :: rest =>
    (match s.directive? use.name.value with
      -- Nothing else can be said of a directive that does not exist.
      | none => [(Violation.unknownDirective use.name.value).on (namedNode use.span use.name)]
      | some definition => checkKnownDirective location earlier use definition) ++
    checkDirectivesAfter location (earlier ++ [use]) rest

/-- **The rules for directives:** they exist, may be repeated if they are, and may stand where they do. -/
def checkDirectives (location : DirectiveLocation) (uses : List DirectiveUse) : List ValidationError :=
  checkDirectivesAfter s location [] uses

/-! ### Types -/

/-- The rules for the type condition of a fragment: it exists and is composite. -/
def checkTypeCondition (fragment : Option Name) (condition : Name) : List ValidationError :=
  match s.type? condition.value with
  | none => [(Violation.unknownType condition.value).on (nameNode condition)]
  | some t =>
    if t.isComposite then []
    else [(Violation.nonCompositeCondition (fragment.map Name.value) condition.value).on (nameNode condition)]

/-- The type that a type condition stands for, if it stands for a composite one. -/
def conditionType? (condition : Name) : Option TypeDef :=
  (s.type? condition.value).filter TypeDef.isComposite

/-- The rules for a variable definition. -/
def checkVariableDefinition (v : VariableDefinition) : List ValidationError :=
  checkDirectives s .variableDefinition v.directives ++
  match s.type? v.type.innermostName.value with
  | none => [(Violation.unknownType v.type.innermostName.value).on (nameNode v.type.innermostName)]
  | some t =>
    if t.isInput then []
    else [(Violation.nonInputVariable v.name.value v.type.text).on
      (namedNode v.type.span v.type.innermostName)]

/-! ### Selections -/

/-- The rules for a field of which the definition is known, its selections aside. -/
def checkKnownField (parent : TypeDef) (h : FieldHead) (definition : FieldDef) (hasSelections : Bool) :
    List ValidationError :=
  let node := namedNode h.span h.name
  checkArguments definition.arguments (.field h.name.value parent.name) node h.arguments ++
  match s.namedType? definition.type with
  | none => []
  | some t =>
    if hasSelections && t.isLeaf then
      [(Violation.selectionsOnLeaf h.name.value definition.type.text).on node]
    else if !hasSelections && t.isComposite then
      [(Violation.selectionsMissing h.name.value definition.type.text).on node]
    else []

/-- The definition of a field, if the type it is selected from is known and has it. -/
def fieldDef? (parent : Option TypeDef) (name : String) : Option FieldDef :=
  parent.bind fun p => s.resolveField p name

/-- The rules for a field, its selections aside. -/
def checkFieldHead (parent : Option TypeDef) (h : FieldHead) (hasSelections : Bool) : List ValidationError :=
  checkDirectives s .field h.directives ++
  match parent with
  | none => []
  | some p =>
    match s.resolveField p h.name.value with
    | none => [(Violation.unknownField h.name.value p.name).on (namedNode h.span h.name)]
    | some definition => checkKnownField s p h definition hasSelections

/-- The type that the selections of a field are made from, if it is known and composite. -/
def fieldType? (parent : Option TypeDef) (h : FieldHead) : Option TypeDef :=
  ((fieldDef? s parent h.name.value).bind fun f => s.namedType? f.type).filter TypeDef.isComposite

/-- The rules for a fragment spread. -/
def checkSpread (f : FragmentSpread) : List ValidationError :=
  checkDirectives s .fragmentSpread f.directives ++
  if (d.fragment? f.name.value).isSome then []
  else [(Violation.unknownFragment f.name.value).on (namedNode f.span f.name)]

/-- The rules for an inline fragment, its selections aside. -/
def checkInlineHead (h : InlineHead) : List ValidationError :=
  checkDirectives s .inlineFragment h.directives ++
  match h.typeCondition with
  | none => []
  | some condition => checkTypeCondition s none condition

/-- The type that the selections of an inline fragment are made from. -/
def inlineType? (parent : Option TypeDef) (h : InlineHead) : Option TypeDef :=
  match h.typeCondition with
  | none => parent
  -- A condition that does not hold leaves the type unknown, whatever is around it.
  | some condition => conditionType? s condition

mutual

/-- The rules for a selection, made from a type that may be unknown. -/
def checkSelection (parent : Option TypeDef) : Selection → List ValidationError
  | .field h none => checkFieldHead s parent h false
  | .field h (some set) => checkFieldHead s parent h true ++ checkSelectionSet (fieldType? s parent h) set
  | .spread f => checkSpread s d f
  | .inline h set => checkInlineHead s h ++ checkSelectionSet (inlineType? s parent h) set

/-- The rules for a selection set. -/
def checkSelectionSet (parent : Option TypeDef) : SelectionSet → List ValidationError
  | .mk selections _ => checkSelections parent selections

/-- The rules for selections. -/
def checkSelections (parent : Option TypeDef) : List Selection → List ValidationError
  | [] => []
  | x :: xs => checkSelection parent x ++ checkSelections parent xs

end

/-! ### Variables -/

/-- The uses of variables that an operation does not define. -/
def undefinedVariables (o : Operation) : List ValidationError :=
  ((d.usages o).filter fun r => !o.variableDefinitions.any fun v => v.name.value == r.name.value).map fun r =>
    (Violation.undefinedVariable r.name.value (o.name.map Name.value)).on (.reference r.span r.name.span)

/-- The variables that an operation defines and does not use. -/
def unusedVariables (o : Operation) : List ValidationError :=
  let used := d.usages o
  (o.variableDefinitions.filter fun v => !used.any fun r => r.name.value == v.name.value).map fun v =>
    (Violation.unusedVariable v.name.value (o.name.map Name.value)).on (.defining v.span v.variableSpan)

/-- **The rules for the variables of an operation.** -/
def checkVariableUsage (o : Operation) : List ValidationError :=
  undefinedVariables d o ++ unusedVariables d o

/-! ### Definitions -/

/-- A node with a name that may be missing. -/
def nodeOf (span : Span) : Option Name → SourceNode
  | some n => namedNode span n
  | none => .whole span

/-- The rules for an operation. -/
def checkOperation (o : Operation) : List ValidationError :=
  (if (s.root? o.kind).isSome then [] else [(Violation.noRoot o.kind).on (nodeOf o.span o.name)]) ++
  checkDirectives s o.kind.directiveLocation o.directives ++
  o.variableDefinitions.flatMap (checkVariableDefinition s) ++
  checkSelectionSet s d (s.root? o.kind) o.selectionSet ++
  checkVariableUsage d o

/-- The rules for a fragment definition. -/
def checkFragment (f : Fragment) : List ValidationError :=
  checkDirectives s .fragmentDefinition f.directives ++
  checkTypeCondition s (some f.name) f.typeCondition ++
  checkSelectionSet s d (conditionType? s f.typeCondition) f.selectionSet

/-- The rules for a definition that can be executed. -/
def checkDefinition : Definition → List ValidationError
  | .operation o => checkOperation s d o
  | .fragment f => checkFragment s d f

/-- A definition that cannot be executed. -/
def checkNonExecutable (x : NonExecutable) : ValidationError :=
  (Violation.notExecutable (x.name.map Name.value)).on (nodeOf x.span x.name)

/-- All errors of a document, as the rules come. -/
def checkDocument : List ValidationError :=
  d.nonExecutable.map checkNonExecutable ++ d.definitions.flatMap (checkDefinition s d)

end Validation

/-- **The errors of a document,** in the order in which they stand in it. -/
def validate (s : Schema) (d : Document) : List ValidationError := sortErrors (Validation.checkDocument s d)

end QueryAid
