/-!
# Directive locations

The places at which a directive may be declared to be usable.
-/

namespace QueryAid

/-- **A place where a directive may stand:** the first eight in documents, the others in schemas. -/
inductive DirectiveLocation where
  | query | mutation | subscription | field
  | fragmentDefinition | fragmentSpread | inlineFragment | variableDefinition
  | schema | scalar | object | fieldDefinition | argumentDefinition
  | interface | union | enum | enumValue | inputObject | inputFieldDefinition
  deriving DecidableEq, Repr

namespace DirectiveLocation

/-- Every location. -/
def all : List DirectiveLocation :=
  [query, mutation, subscription, field, fragmentDefinition, fragmentSpread, inlineFragment,
   variableDefinition, schema, scalar, object, fieldDefinition, argumentDefinition, interface, union,
   enum, enumValue, inputObject, inputFieldDefinition]

/-- How a location is written. -/
def text : DirectiveLocation → String
  | query => "QUERY"
  | mutation => "MUTATION"
  | subscription => "SUBSCRIPTION"
  | field => "FIELD"
  | fragmentDefinition => "FRAGMENT_DEFINITION"
  | fragmentSpread => "FRAGMENT_SPREAD"
  | inlineFragment => "INLINE_FRAGMENT"
  | variableDefinition => "VARIABLE_DEFINITION"
  | schema => "SCHEMA"
  | scalar => "SCALAR"
  | object => "OBJECT"
  | fieldDefinition => "FIELD_DEFINITION"
  | argumentDefinition => "ARGUMENT_DEFINITION"
  | interface => "INTERFACE"
  | union => "UNION"
  | enum => "ENUM"
  | enumValue => "ENUM_VALUE"
  | inputObject => "INPUT_OBJECT"
  | inputFieldDefinition => "INPUT_FIELD_DEFINITION"

/-- The location that is written so. -/
def ofText? (s : String) : Option DirectiveLocation := all.find? fun l => l.text == s

/-- Whether a location is one of documents. -/
def isExecutable : DirectiveLocation → Bool
  | query | mutation | subscription | field
  | fragmentDefinition | fragmentSpread | inlineFragment | variableDefinition => true
  | _ => false

end DirectiveLocation

end QueryAid
