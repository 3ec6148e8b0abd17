import QueryAid.Schema.TypeDef
/-!
# Schemas

A schema's types, directives and roots, and the questions asked of it.
-/

namespace QueryAid

/-- **A schema.** -/
structure Schema where
  types : Table TypeDef
  directives : Table DirectiveDef
  /-- The type that queries start at. -/
  queryType : String
  /-- The type that mutations start at. -/
  mutationType : Option String
  /-- The type that subscriptions start at. -/
  subscriptionType : Option String
  deriving DecidableEq

/-- The field that gives access to the schema itself. -/
def schemaMetaField : FieldDef where
  name := "__schema"
  description := some "Access the current type schema of this server."
  type := .named "__Schema" false
  arguments := .empty
  deprecated := none
  location := .builtIn

/-- The field that gives access to one type of the schema. -/
def typeMetaField : FieldDef where
  name := "__type"
  description := some "Request the type information of a single type."
  type := .named "__Type" true
  arguments := .ofList [⟨"name", none, .named "String" false, none, none, .builtIn⟩]
  deprecated := none
  location := .builtIn

/-- The field that tells the name of an object's type. -/
def typenameMetaField : FieldDef where
  name := "__typename"
  description := some "The name of the current Object type at runtime."
  type := .named "String" false
  arguments := .empty
  deprecated := none
  location := .builtIn

namespace Schema

/-- The type of a name. -/
def type? (s : Schema) (name : String) : Option TypeDef := s.types.find? name

/-- The directive of a name. -/
def directive? (s : Schema) (name : String) : Option DirectiveDef := s.directives.find? name

/-- The name of the type that operations of a kind start at. -/
def rootName? (s : Schema) : OperationKind → Option String
  | .query => some s.queryType
  | .mutation => s.mutationType
  | .subscription => s.subscriptionType

/-- The type that operations of a kind start at. -/
def root? (s : Schema) (k : OperationKind) : Option TypeDef := (s.rootName? k).bind s.type?

/-- Whether a type is the one that queries start at. -/
def isQueryRoot (s : Schema) (t : TypeDef) : Bool := t.name == s.queryType

/-- The type under all layers of an annotation. -/
def namedType? (s : Schema) (a : TypeAnnotation) : Option TypeDef := s.type? a.namedType

/-- **The object types that a value of a type can have.** -/
def possibleTypes (s : Schema) (t : TypeDef) : List TypeDef :=
  match t.contents with
  | .object .. => [t]
  | .interface .. =>
    s.types.entries.filter fun o => o.isObject && (o.interfaces?.getD []).contains t.name
  | .union members => members.filterMap s.type?
  | _ => []

/-- **The field that a name selects from a type:** one of its own, or one that the language adds. -/
def resolveField (s : Schema) (t : TypeDef) (name : String) : Option FieldDef :=
  if name == "__schema" && s.isQueryRoot t then some schemaMetaField
  else if name == "__type" && s.isQueryRoot t then some typeMetaField
  else if name == "__typename" && t.isComposite then some typenameMetaField
  else t.fields?.bind fun fields => fields.find? name

end Schema

end QueryAid
