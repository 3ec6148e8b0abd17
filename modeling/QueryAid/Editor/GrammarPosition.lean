import QueryAid.Editor.ParserState
/-!
# Grammar positions

What can be completed where the cursor is.
-/

namespace QueryAid

/-- **What can be completed at a place.** -/
inductive GrammarPosition where
  | argumentName | directiveName | inputObjectField | inputType | inputValue | selection | typeCondition
  deriving DecidableEq, Repr

namespace GrammarPosition

/-- The name of a position. -/
def text : GrammarPosition → String
  | argumentName => "ArgumentName"
  | directiveName => "DirectiveName"
  | inputObjectField => "InputObjectField"
  | inputType => "InputType"
  | inputValue => "InputValue"
  | selection => "Selection"
  | typeCondition => "TypeCondition"

/-- The position after the name of a type, which depends on the part that the type belongs to. -/
def ofNamedType : Option StateKind → Option GrammarPosition
  | some .fragmentDefinition | some .inlineFragment => some typeCondition
  | some .variableDefinition | some .listType => some inputType
  | _ => none

/-- **The position of a state,** if there is anything to complete. -/
def ofState? (s : ParserState) : Option GrammarPosition :=
  match s.kind, s.frame.step with
  | .selectionSet, _ | .field, _ | .aliasedField, _ => some selection
  | .arguments, _ => some argumentName
  | .argument, 0 => some argumentName
  | .argument, 2 => some inputValue
  | .objectValue, _ => some inputObjectField
  | .objectField, 0 => some inputObjectField
  | .objectField, 2 => some inputValue
  | .enumValue, _ => some inputValue
  | .listValue, 1 => some inputValue
  | .fragmentDefinition, 3 => some typeCondition
  | .inlineFragment, 2 => some typeCondition
  | .variableDefinition, 2 => some inputType
  | .listType, 1 => some inputType
  | .namedType, _ => ofNamedType s.enclosingKind?
  | .directive, _ => some directiveName
  | _, _ => none

end GrammarPosition

end QueryAid
