import QueryAid.Schema.Basic
/-!
# What every schema has

The five scalars, the four directives, and the eight types that describe a schema to those who query it.
-/

namespace QueryAid

/-! ### Scalars -/

/-- A built-in scalar. -/
def builtInScalar (name : String) (scalar : BuiltInScalar) (description : String) : TypeDef :=
  ⟨name, some description, .builtIn, .builtIn scalar⟩

/-- **The scalars that every schema has.** -/
def builtInScalars : List TypeDef :=
  [builtInScalar "Boolean" .boolean "The `Boolean` scalar type represents `true` or `false`.",
   builtInScalar "Float" .float
    ("The `Float` scalar type represents signed double-precision fractional values as specified by " ++
     "[IEEE 754](https://en.wikipedia.org/wiki/IEEE_floating_point)."),
   builtInScalar "ID" .id
    ("The `ID` scalar type represents a unique identifier, often used to refetch an object or as key for a " ++
     "cache. The ID type appears in a JSON response as a String; however, it is not intended to be " ++
     "human-readable. When expected as an input type, any string (such as `\"4\"`) or integer (such as `4`) " ++
     "input value will be accepted as an ID."),
   builtInScalar "Int" .int
    ("The `Int` scalar type represents non-fractional signed whole numeric values. Int can represent values " ++
     "between -(2^31) and 2^31 - 1."),
   builtInScalar "String" .string
    ("The `String` scalar type represents textual data, represented as UTF-8 character sequences. The String " ++
     "type is most often used by GraphQL to represent free-form human-readable text.")]

/-! ### Directives -/

/-- An argument that the language defines. -/
def builtInArgument (name : String) (type : TypeAnnotation) (default description : Option String) :
    InputValueDef :=
  ⟨name, description, type, default, none, .builtIn⟩

/-- A directive that the language defines, with its one argument. -/
def builtInDirective (name description : String) (argument : InputValueDef)
    (locations : List DirectiveLocation) : DirectiveDef :=
  ⟨name, some description, .ofList [argument], false, locations, .builtIn⟩

/-- **The directives that every schema has.** -/
def builtInDirectives : List DirectiveDef :=
  [builtInDirective "include"
    "Directs the executor to include this field or fragment only when the `if` argument is true."
    (builtInArgument "if" (.named "Boolean" false) none (some "Included when true."))
    [.field, .fragmentSpread, .inlineFragment],
   builtInDirective "skip"
    "Directs the executor to skip this field or fragment when the `if` argument is true."
    (builtInArgument "if" (.named "Boolean" false) none (some "Skipped when true."))
    [.field, .fragmentSpread, .inlineFragment],
   builtInDirective "deprecated"
    "Marks an element of a GraphQL schema as no longer supported."
    (builtInArgument "reason" (.named "String" true) (some "\"No longer supported\"")
      (some ("Explains why this element was deprecated, usually also including a suggestion for how to access " ++
        "supported similar data.")))
    [.fieldDefinition, .argumentDefinition, .inputFieldDefinition, .enumValue],
   builtInDirective "specifiedBy"
    "Exposes a URL that specifies the behavior of this scalar."
    (builtInArgument "url" (.named "String" false) none
      (some "The URL that specifies the behavior of this scalar."))
    [.scalar]]

/-! ### Introspection -/

namespace Introspection

/-- A type that must not be null. -/
def one (name : String) : TypeAnnotation := .named name false

/-- A type that may be null. -/
def maybe (name : String) : TypeAnnotation := .named name true

/-- A list that must not be null, nor any of its items. -/
def many (name : String) : TypeAnnotation := .list (one name) false

/-- A list that may be null, but none of its items. -/
def maybeMany (name : String) : TypeAnnotation := .list (one name) true

/-- A field without description and arguments. -/
def field (name : String) (type : TypeAnnotation) : FieldDef := ⟨name, none, type, .empty, none, .builtIn⟩

/-- A field with a description. -/
def described (name : String) (type : TypeAnnotation) (description : String) : FieldDef :=
  { field name type with description := some description }

/-- A field with an argument that says whether deprecated members are listed. -/
def filtered (name : String) (type : TypeAnnotation) : FieldDef :=
  { field name type with
    arguments := .ofList [builtInArgument "includeDeprecated" (maybe "Boolean") (some "false") none] }

/-- An object type. -/
def object (name description : String) (fields : List FieldDef) : TypeDef :=
  ⟨name, some description, .builtIn, .object [] (.ofList fields)⟩

/-- An enum type. -/
def enum (name description : String) (values : List (String × Option String)) : TypeDef :=
  ⟨name, some description, .builtIn, .enum (.ofList (values.map fun v => ⟨v.1, v.2, none, .builtIn⟩))⟩

/-- The type of a schema. -/
def schemaType : TypeDef :=
  object "__Schema"
    ("A GraphQL Schema defines the capabilities of a GraphQL server. It exposes all available types and " ++
     "directives on the server, as well as the entry points for query, mutation, and subscription operations.")
    [field "description" (maybe "String"),
     described "types" (many "__Type") "A list of all types supported by this server.",
     described "queryType" (one "__Type") "The type that query operations will be rooted at.",
     described "mutationType" (maybe "__Type")
      "If this server supports mutation, the type that mutation operations will be rooted at.",
     described "subscriptionType" (maybe "__Type")
      "If this server support subscription, the type that subscription operations will be rooted at.",
     described "directives" (many "__Directive") "A list of all directives supported by this server."]

/-- The type of a type. -/
def typeType : TypeDef :=
  object "__Type"
    ("The fundamental unit of any GraphQL Schema is the type. There are many kinds of types in GraphQL as " ++
     "represented by the `__TypeKind` enum.")
    [field "kind" (one "__TypeKind"),
     field "name" (maybe "String"),
     field "description" (maybe "String"),
     field "specifiedByURL" (maybe "String"),
     filtered "fields" (maybeMany "__Field"),
     field "interfaces" (maybeMany "__Type"),
     field "possibleTypes" (maybeMany "__Type"),
     filtered "enumValues" (maybeMany "__EnumValue"),
     filtered "inputFields" (maybeMany "__InputValue"),
     field "ofType" (maybe "__Type")]

/-- The type of the kind of a type. -/
def typeKindType : TypeDef :=
  enum "__TypeKind" "An enum describing what kind of type a given `__Type` is."
    [("SCALAR", some "Indicates this type is a scalar."),
     ("OBJECT", some "Indicates this type is an object. `fields` and `interfaces` are valid fields."),
     ("INTERFACE",
      some "Indicates this type is an interface. `fields`, `interfaces`, and `possibleTypes` are valid fields."),
     ("UNION", some "Indicates this type is a union. `possibleTypes` is a valid field."),
     ("ENUM", some "Indicates this type is an enum. `enumValues` is a valid field."),
     ("INPUT_OBJECT", some "Indicates this type is an input object. `inputFields` is a valid field."),
     ("LIST", some "Indicates this type is a list. `ofType` is a valid field."),
     ("NON_NULL", some "Indicates this type is a non-null. `ofType` is a valid field.")]

/-- The type of a field. -/
def fieldType : TypeDef :=
  object "__Field"
    ("Object and Interface types are described by a list of Fields, each of which has a name, potentially a " ++
     "list of arguments, and a return type.")
    [field "name" (one "String"),
     field "description" (maybe "String"),
     filtered "args" (many "__InputValue"),
     field "type" (one "__Type"),
     field "isDeprecated" (one "Boolean"),
     field "deprecationReason" (maybe "String")]

/-- The type of an argument or input field. -/
def inputValueType : TypeDef :=
  object "__InputValue"
    ("Arguments provided to Fields or Directives and the input fields of an InputObject are represented as " ++
     "Input Values which describe their type and optionally a default value.")
    [field "name" (one "String"),
     field "description" (maybe "String"),
     field "type" (one "__Type"),
     described "defaultValue" (maybe "String")
      "A GraphQL-formatted string representing the default value for this input value.",
     field "isDeprecated" (one "Boolean"),
     field "deprecationReason" (maybe "String")]

/-- The type of an enum value. -/
def enumValueType : TypeDef :=
  object "__EnumValue"
    ("One possible value for a given Enum. Enum values are unique values, not a placeholder for a string or " ++
     "numeric value. However an Enum value is returned in a JSON response as a string.")
    [field "name" (one "String"),
     field "description" (maybe "String"),
     field "isDeprecated" (one "Boolean"),
     field "deprecationReason" (maybe "String")]

/-- The type of a directive. -/
def directiveType : TypeDef :=
  object "__Directive"
    ("A Directive provides a way to describe alternate runtime execution and type validation behavior in a " ++
     "GraphQL document.")
    [field "name" (one "String"),
     field "description" (maybe "String"),
     field "isRepeatable" (one "Boolean"),
     field "locations" (many "__DirectiveLocation"),
     filtered "args" (many "__InputValue")]

/-- The type of a place for directives. -/
def directiveLocationType : TypeDef :=
  enum "__DirectiveLocation"
    ("A Directive can be adjacent to many parts of the GraphQL language, a __DirectiveLocation describes one " ++
     "such possible adjacencies.")
    (DirectiveLocation.all.map fun l => (l.text, none))

end Introspection

/-- **The types that describe a schema to those who query it.** -/
def introspectionTypes : List TypeDef :=
  open Introspection in
  [schemaType, typeType, typeKindType, fieldType, inputValueType, enumValueType, directiveType,
   directiveLocationType]

end QueryAid
