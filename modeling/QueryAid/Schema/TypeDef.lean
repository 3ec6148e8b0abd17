import QueryAid.Schema.Member
/-!
# Types

The types of a schema by kind, with their members.
-/

namespace QueryAid

/-- The scalars that every schema has. -/
inductive BuiltInScalar where
  | boolean | float | id | int | string
  deriving DecidableEq, Repr

/-- The kinds of types; each built-in scalar is a kind of its own. -/
inductive TypeKind where
  | builtIn (scalar : BuiltInScalar)
  | enum | inputObject | interface | object | scalar | union
  deriving DecidableEq, Repr

/-- The name of a kind of types. -/
def TypeKind.text : TypeKind → String
  | builtIn .boolean => "Boolean"
  | builtIn .float => "Float"
  | builtIn .id => "ID"
  | builtIn .int => "Int"
  | builtIn .string => "String"
  | enum => "Enum"
  | inputObject => "InputObject"
  | interface => "Interface"
  | object => "Object"
  | scalar => "Scalar"
  | union => "Union"

/-- **What a type consists of.** -/
inductive TypeContents where
  | builtIn (scalar : BuiltInScalar)
  | enum (values : Table EnumValueDef)
  | inputObject (fields : Table InputValueDef)
  | interface (interfaces : List String) (fields : Table FieldDef)
  | object (interfaces : List String) (fields : Table FieldDef)
  | scalar
  | union (members : List String)
  deriving DecidableEq

/-- The kind of the type that consists of this. -/
def TypeContents.kind : TypeContents → TypeKind
  | builtIn s => .builtIn s
  | enum _ => .enum
  | inputObject _ => .inputObject
  | interface .. => .interface
  | object .. => .object
  | scalar => .scalar
  | union _ => .union

/-- **A type of a schema.** -/
structure TypeDef where
  name : String
  description : Option String
  location : Location
  contents : TypeContents
  deriving DecidableEq

instance : Named TypeDef := ⟨TypeDef.name⟩

namespace TypeDef

/-- The kind of a type. -/
def kind (t : TypeDef) : TypeKind := t.contents.kind

/-- The fields of an object or interface. -/
def fields? (t : TypeDef) : Option (Table FieldDef) :=
  match t.contents with
  | .object _ fields | .interface _ fields => some fields
  | _ => none

/-- The interfaces that an object or interface implements. -/
def interfaces? (t : TypeDef) : Option (List String) :=
  match t.contents with
  | .object interfaces _ | .interface interfaces _ => some interfaces
  | _ => none

/-- The fields of an input object. -/
def inputFields? (t : TypeDef) : Option (Table InputValueDef) :=
  match t.contents with
  | .inputObject fields => some fields
  | _ => none

/-- The values of an enum. -/
def enumValues? (t : TypeDef) : Option (Table EnumValueDef) :=
  match t.contents with
  | .enum values => some values
  | _ => none

/-- The members of a union. -/
def members? (t : TypeDef) : Option (List String) :=
  match t.contents with
  | .union members => some members
  | _ => none

/-- Whether a type is an object. -/
def isObject (t : TypeDef) : Bool := t.kind == .object

/-- Whether a type is an interface. -/
def isInterface (t : TypeDef) : Bool := t.kind == .interface

/-- Whether a type is an input object. -/
def isInputObject (t : TypeDef) : Bool := t.kind == .inputObject

/-- Whether a type stands for several object types. -/
def isAbstract (t : TypeDef) : Bool := t.kind == .interface || t.kind == .union

/-- Whether things can be selected from a type. -/
def isComposite (t : TypeDef) : Bool := t.isAbstract || t.isObject

/-- Whether arguments and input fields may be of a type. -/
def isInput (t : TypeDef) : Bool := !t.isComposite

/-- Whether fields of a type have nothing to select from. -/
def isLeaf (t : TypeDef) : Bool := !t.isComposite && !t.isInputObject

end TypeDef

end QueryAid
