/-!
# Kinds of parser states

The parts of a document that an editor's own parser tells apart while the document is being written.
-/

namespace QueryAid

/-- **What part of a document a parser state stands for.** -/
inductive StateKind where
  | document | definition | query | shortQuery | mutation | subscription
  | variableDefinitions | variableDefinition | variableName | defaultValue
  | selectionSet | selection | aliasedField | field | arguments | argument
  | fragmentSpread | inlineFragment | fragmentDefinition | typeCondition
  | value | numberValue | stringValue | booleanValue | enumValue | listValue | objectValue | objectField
  | type | listType | namedType | directive
  deriving DecidableEq, Repr

namespace StateKind

/-- Every kind. -/
def all : List StateKind :=
  [document, definition, query, shortQuery, mutation, subscription, variableDefinitions, variableDefinition,
   variableName, defaultValue, selectionSet, selection, aliasedField, field, arguments, argument,
   fragmentSpread, inlineFragment, fragmentDefinition, typeCondition, value, numberValue, stringValue,
   booleanValue, enumValue, listValue, objectValue, objectField, type, listType, namedType, directive]

/-- The name of a kind. -/
def text : StateKind → String
  | document => "Document"
  | definition => "Definition"
  | query => "Query"
  | shortQuery => "ShortQuery"
  | mutation => "Mutation"
  | subscription => "Subscription"
  | variableDefinitions => "VariableDefinitions"
  | variableDefinition => "VariableDefinition"
  | variableName => "Variable"
  | defaultValue => "DefaultValue"
  | selectionSet => "SelectionSet"
  | selection => "Selection"
  | aliasedField => "AliasedField"
  | field => "Field"
  | arguments => "Arguments"
  | argument => "Argument"
  | fragmentSpread => "FragmentSpread"
  | inlineFragment => "InlineFragment"
  | fragmentDefinition => "FragmentDefinition"
  | typeCondition => "TypeCondition"
  | value => "Value"
  | numberValue => "NumberValue"
  | stringValue => "StringValue"
  | booleanValue => "BooleanValue"
  | enumValue => "EnumValue"
  | listValue => "ListValue"
  | objectValue => "ObjectValue"
  | objectField => "ObjectField"
  | type => "Type"
  | listType => "ListType"
  | namedType => "NamedType"
  | directive => "Directive"

/-- The kind of a name. -/
def ofText? (s : String) : Option StateKind := all.find? fun k => k.text == s

/-- Whether a kind is a fragment in one of its forms. -/
def isFragment : StateKind → Bool
  | fragmentDefinition | inlineFragment | fragmentSpread => true
  | _ => false

/-- Whether a kind is an operation that is announced by a keyword. -/
def isOperation : StateKind → Bool
  | query | mutation | subscription => true
  | _ => false

end StateKind

end QueryAid
