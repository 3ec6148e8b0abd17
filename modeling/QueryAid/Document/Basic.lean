import QueryAid.Source.Span
import QueryAid.Schema.OperationKind
/-!
# Executable documents

The syntax of operations and fragments. Every construct keeps the span of the source it was written in, and
a literal value keeps its source text.
-/

namespace QueryAid

/-- An identifier and where it stands. -/
structure Name where
  value : String
  span : Span
  deriving DecidableEq, Repr

/-! ### Values and types -/

mutual

/-- **A value written in a document.** -/
inductive Value where
  | boolean (value : Bool) (span : Span)
  | enum (text : String) (span : Span)
  | float (text : String) (span : Span)
  | int (text : String) (span : Span)
  | list (items : List Value) (span : Span)
  | null (span : Span)
  | object (fields : List ObjectField) (span : Span)
  | string (text : String) (span : Span)
  /-- The name is without the dollar sign. -/
  | var (name : Name) (span : Span)

/-- A field of an object value. -/
inductive ObjectField where
  | mk (name : Name) (value : Value) (span : Span)

end

/-- The span of a value. -/
def Value.span : Value → Span
  | boolean _ s | enum _ s | float _ s | int _ s | list _ s | null s | object _ s | string _ s
  | var _ s => s

/-- A reference to a variable: the name without the dollar sign, and the span with it. -/
structure VariableReference where
  name : Name
  span : Span
  deriving DecidableEq, Repr

mutual

/-- The variables that a value refers to, at any depth, in order. -/
def Value.references : Value → List VariableReference
  | .var name span => [⟨name, span⟩]
  | .list items _ => Value.referencesOfList items
  | .object fields _ => Value.referencesOfFields fields
  | .boolean .. | .enum .. | .float .. | .int .. | .null .. | .string .. => []

/-- The variables that the items of a list refer to. -/
def Value.referencesOfList : List Value → List VariableReference
  | [] => []
  | v :: vs => v.references ++ Value.referencesOfList vs

/-- The variables that the fields of an object refer to. -/
def Value.referencesOfFields : List ObjectField → List VariableReference
  | [] => []
  | .mk _ v _ :: fs => v.references ++ Value.referencesOfFields fs

end

/-- **A type written in a variable definition.** -/
inductive TypeRef where
  | named (name : Name)
  | list (inner : TypeRef) (span : Span)
  | nonNull (inner : TypeRef) (span : Span)
  deriving DecidableEq, Repr

namespace TypeRef

/-- The name at the bottom of the wrappers. -/
def innermostName : TypeRef → Name
  | named n => n
  | list inner _ | nonNull inner _ => inner.innermostName

/-- The span of a type. -/
def span : TypeRef → Span
  | named n => n.span
  | list _ s | nonNull _ s => s

/-- How a type is written. -/
def text : TypeRef → String
  | named n => n.value
  | list inner _ => "[" ++ inner.text ++ "]"
  | nonNull inner _ => inner.text ++ "!"

end TypeRef

/-! ### Arguments and directives -/

/-- An argument given to a field or a directive. -/
structure Argument where
  name : Name
  value : Value
  span : Span

/-- A directive put to use. -/
structure DirectiveUse where
  /-- The name is without the at sign. -/
  name : Name
  arguments : List Argument
  span : Span

/-- The variables that arguments refer to. -/
def Argument.references (as : List Argument) : List VariableReference :=
  as.flatMap fun a => a.value.references

/-- The variables that the arguments of directives refer to. -/
def DirectiveUse.references (ds : List DirectiveUse) : List VariableReference :=
  ds.flatMap fun d => Argument.references d.arguments

/-! ### Selections -/

/-- A selected field, its sub selection left out. -/
structure FieldHead where
  /-- The name under which the answer is returned, if it is not the field's own. -/
  responseName : Option Name
  name : Name
  arguments : List Argument
  directives : List DirectiveUse
  span : Span

/-- A fragment spread. -/
structure FragmentSpread where
  name : Name
  directives : List DirectiveUse
  span : Span

/-- An inline fragment, its selections left out. -/
structure InlineHead where
  typeCondition : Option Name
  directives : List DirectiveUse
  span : Span

mutual

/-- **One selection of a selection set.** -/
inductive Selection where
  | field (head : FieldHead) (selectionSet : Option SelectionSet)
  | spread (spread : FragmentSpread)
  | inline (head : InlineHead) (selectionSet : SelectionSet)

/-- Selections in braces. -/
inductive SelectionSet where
  | mk (selections : List Selection) (span : Span)

end

namespace SelectionSet

/-- The selections of a set, in order. -/
def selections : SelectionSet → List Selection
  | mk selections _ => selections

/-- The span of a set, its braces included. -/
def span : SelectionSet → Span
  | mk _ span => span

end SelectionSet

/-! ### Definitions -/

/-- A variable that an operation takes. -/
structure VariableDefinition where
  /-- The name is without the dollar sign. -/
  name : Name
  /-- From the dollar sign to the name. -/
  variableSpan : Span
  type : TypeRef
  default : Option Value
  directives : List DirectiveUse
  span : Span

/-- **An operation.** Selections in braces alone are a query without a name. -/
structure Operation where
  kind : OperationKind
  name : Option Name
  variableDefinitions : List VariableDefinition
  directives : List DirectiveUse
  selectionSet : SelectionSet
  span : Span

/-- **A fragment definition.** -/
structure Fragment where
  name : Name
  typeCondition : Name
  directives : List DirectiveUse
  selectionSet : SelectionSet
  span : Span

/-- A definition that can be executed. -/
inductive Definition where
  | operation (operation : Operation)
  | fragment (fragment : Fragment)

/-- The span of a definition. -/
def Definition.span : Definition → Span
  | operation o => o.span
  | fragment f => f.span

/-- A definition or extension of a schema or a type, which has no place in an executable document. A schema
has no name. -/
structure NonExecutable where
  name : Option Name
  span : Span
  deriving DecidableEq, Repr

/-- **A document:** its executable definitions, and the ones that are none, each in source order. -/
structure Document where
  definitions : List Definition
  nonExecutable : List NonExecutable

namespace Document

/-- The operations, in order. -/
def operations (d : Document) : List Operation :=
  d.definitions.filterMap fun
    | .operation o => some o
    | .fragment _ => none

/-- The fragments, in order. -/
def fragments (d : Document) : List Fragment :=
  d.definitions.filterMap fun
    | .operation _ => none
    | .fragment f => some f

/-- The first fragment of a name. -/
def fragment? (d : Document) (name : String) : Option Fragment :=
  d.fragments.find? fun f => f.name.value == name

end Document

end QueryAid
