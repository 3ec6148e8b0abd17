import QueryAid.Table
import QueryAid.Schema.TypeAnnotation
/-!
# Members of types

Arguments, fields, input fields and enum values as a schema keeps them, and how they are read off their
source.
-/

namespace QueryAid

/-- **Where something of a schema is defined:** in a file, or by the language itself. -/
inductive Location where
  | builtIn
  | file (name : String) (place : Sdl.Place)
  deriving DecidableEq, Repr

namespace Location

/-- How a location is written. -/
def text : Location → String
  | builtIn => "<graphql built-in>"
  | file name place => name ++ ":" ++ toString place.line ++ ":" ++ toString place.column

/-- Whether the language itself defines it. -/
def isBuiltIn : Location → Bool
  | builtIn => true
  | file .. => false

end Location

/-- The reason of a deprecation that states none. -/
def defaultDeprecationReason : String := "No longer supported"

/-- Why a member is deprecated, if it is: the reason that the first such directive states as a string. -/
def deprecationReason? (uses : List Sdl.DirectiveUse) : Option String :=
  (uses.find? fun d => d.name == "deprecated").map fun d =>
    (d.arguments.findSome? fun a =>
      match a with
      | ("reason", .string reason) => some reason
      | _ => none).getD defaultDeprecationReason

/-- **An argument of a field or directive, or a field of an input object.** -/
structure InputValueDef where
  name : String
  description : Option String
  type : TypeAnnotation
  /-- The default value as it is written. -/
  default : Option String
  deprecated : Option String
  location : Location
  deriving DecidableEq, Repr

instance : Named InputValueDef := ⟨InputValueDef.name⟩

namespace InputValueDef

/-- Whether a value must be given: null is not among the values, and there is no default. -/
def isRequired (v : InputValueDef) : Bool := !v.type.nullable && v.default.isNone

/-- An argument or input field of a file. -/
def ofSource (file : String) (v : Sdl.InputValue) : InputValueDef where
  name := v.name
  description := v.description
  type := .ofExpression v.type
  default := v.default.map Sdl.Value.text
  deprecated := deprecationReason? v.directives
  location := .file file v.place

end InputValueDef

/-- **A field of an object or interface.** -/
structure FieldDef where
  name : String
  description : Option String
  type : TypeAnnotation
  arguments : Table InputValueDef
  deprecated : Option String
  location : Location
  deriving DecidableEq

instance : Named FieldDef := ⟨FieldDef.name⟩

/-- A field of a file. Of two arguments of one name the later one counts, in the place of the first. -/
def FieldDef.ofSource (file : String) (f : Sdl.Field) : FieldDef where
  name := f.name
  description := f.description
  type := .ofExpression f.type
  arguments := .ofList (f.arguments.map (InputValueDef.ofSource file))
  deprecated := deprecationReason? f.directives
  location := .file file f.place

/-- **A value of an enum.** -/
structure EnumValueDef where
  name : String
  description : Option String
  deprecated : Option String
  location : Location
  deriving DecidableEq, Repr

instance : Named EnumValueDef := ⟨EnumValueDef.name⟩

/-- An enum value of a file. -/
def EnumValueDef.ofSource (file : String) (v : Sdl.EnumValue) : EnumValueDef where
  name := v.name
  description := v.description
  deprecated := deprecationReason? v.directives
  location := .file file v.place

/-- **A directive.** -/
structure DirectiveDef where
  name : String
  description : Option String
  arguments : Table InputValueDef
  repeatable : Bool
  locations : List DirectiveLocation
  location : Location
  deriving DecidableEq

instance : Named DirectiveDef := ⟨DirectiveDef.name⟩

namespace DirectiveDef

/-- A directive of a file. -/
def ofSource (file : String) (d : Sdl.DirectiveDefinition) : DirectiveDef where
  name := d.name
  description := d.description
  arguments := .ofList (d.arguments.map (InputValueDef.ofSource file))
  repeatable := d.repeatable
  locations := d.locations
  location := .file file d.place

/-- Whether a directive may stand at a location. -/
def allows (d : DirectiveDef) (l : DirectiveLocation) : Bool := d.locations.contains l

/-- Whether a directive may stand on a field. -/
def onField (d : DirectiveDef) : Bool := d.allows .field

/-- Whether a directive may stand on a fragment of any form. -/
def onFragment (d : DirectiveDef) : Bool :=
  d.allows .fragmentDefinition || d.allows .fragmentSpread || d.allows .inlineFragment

/-- Whether a directive may stand on an operation of any kind. -/
def onOperation (d : DirectiveDef) : Bool :=
  d.allows .query || d.allows .mutation || d.allows .subscription

end DirectiveDef

end QueryAid
