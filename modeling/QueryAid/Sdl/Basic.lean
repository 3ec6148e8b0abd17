import QueryAid.Decimal.Shortest
import QueryAid.Schema.OperationKind
import QueryAid.Sdl.StringValue
import QueryAid.Sdl.Token
/-!
# Schema sources

The syntax of the schema definition language: types, directives and the roots of operations, with the places
where they are written.
-/

namespace QueryAid

namespace Sdl

/-! ### Values -/

/-- **A value in a schema source:** a default, or an argument of a directive. -/
inductive Value where
  | var (name : String)
  | int (value : Int)
  | float (value : Binary64)
  | string (text : String)
  | boolean (value : Bool)
  | null
  | enum (name : String)
  | list (items : List Value)
  /-- The fields are sorted by name, and no name occurs twice. -/
  | object (fields : List (String × Value))

/-- Fields with one more: in its place by name, or instead of the one of its name. -/
def insertField (name : String) (v : Value) : List (String × Value) → List (String × Value)
  | [] => [(name, v)]
  | (n, w) :: fs =>
    if name == n then (name, v) :: fs
    else if name < n then (name, v) :: (n, w) :: fs
    else (n, w) :: insertField name v fs

/-- The object of the given fields. Of the fields of one name the last one counts. -/
def Value.ofFields (fields : List (String × Value)) : Value :=
  .object (fields.foldl (fun sorted f => insertField f.1 f.2 sorted) [])

mutual

/-- **How a value is written.** -/
def Value.text : Value → String
  | .var name => "$" ++ name
  | .int n => toString n
  | .float x => x.text
  | .string s => writtenString s
  | .boolean true => "true"
  | .boolean false => "false"
  | .null => "null"
  | .enum name => name
  | .list items => "[" ++ Value.itemsText items ++ "]"
  | .object fields => "\x7b" ++ Value.fieldsText fields ++ "\x7d"

/-- Items with commas between them. -/
def Value.itemsText : List Value → String
  | [] => ""
  | [v] => v.text
  | v :: vs => v.text ++ ", " ++ Value.itemsText vs

/-- Fields with commas between them. -/
def Value.fieldsText : List (String × Value) → String
  | [] => ""
  | [(name, v)] => name ++ ": " ++ v.text
  | (name, v) :: fs => name ++ ": " ++ v.text ++ ", " ++ Value.fieldsText fs

end

/-! ### Types -/

/-- **A type as it is written.** The parser never puts one `nonNull` directly into another. -/
inductive TypeExpression where
  | named (name : String)
  | list (inner : TypeExpression)
  | nonNull (inner : TypeExpression)
  deriving DecidableEq, Repr

/-- A directive put to use in a schema. -/
structure DirectiveUse where
  name : String
  arguments : List (String × Value)

/-- An argument of a field or directive, or a field of an input object. -/
structure InputValue where
  place : Place
  description : Option String
  name : String
  type : TypeExpression
  default : Option Value
  directives : List DirectiveUse

/-- A field of an object or interface. -/
structure Field where
  place : Place
  description : Option String
  name : String
  arguments : List InputValue
  type : TypeExpression
  directives : List DirectiveUse

/-- A value of an enum. -/
structure EnumValue where
  place : Place
  description : Option String
  name : String
  directives : List DirectiveUse

/-- What a type definition or extension says about its kind of type. -/
inductive TypeBody where
  | scalar
  | object (interfaces : List String) (fields : List Field)
  | interface (interfaces : List String) (fields : List Field)
  | union (members : List String)
  | enum (values : List EnumValue)
  | inputObject (fields : List InputValue)

/-! ### Definitions -/

/-- The definition of a type. -/
structure TypeDefinition where
  place : Place
  description : Option String
  name : String
  body : TypeBody

/-- An extension of a type. -/
structure TypeExtension where
  place : Place
  name : String
  body : TypeBody

/-- The definition of a directive. -/
structure DirectiveDefinition where
  place : Place
  description : Option String
  name : String
  arguments : List InputValue
  repeatable : Bool
  locations : List DirectiveLocation

/-- A schema block: the types that it names as roots of operations. -/
structure SchemaBlock where
  place : Place
  roots : PerOperation String
  deriving DecidableEq, Repr

/-- One definition or extension. -/
inductive Definition where
  | schema (block : SchemaBlock)
  | type (definition : TypeDefinition)
  | extension (extension : TypeExtension)
  | directive (definition : DirectiveDefinition)

end Sdl

end QueryAid
