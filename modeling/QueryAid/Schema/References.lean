import QueryAid.Schema.Basic
/-!
# References between types

The types and directives of a schema refer to types by name: an object or interface to its interfaces, a union
to its members, and every field, argument and input field to its type. Each reference must be to a type that
exists and is of a kind that is allowed there. All references that are not are reported, in the order of the
tables.
-/

namespace QueryAid

/-- **A reference that is not in order.** -/
inductive ReferenceError where
  | undefined (name : String) (location : Location)
  | implementsNonInterface (typeName interface : String) (location : Location)
  | nonObjectMember (union member : String) (kind : TypeKind) (location : Location)
  | outputFieldOfInputType (typeName field fieldType : String) (location : Location)
  | inputFieldOfOutputType (typeName field fieldType : String) (location : Location)
  | parameterOfOutputType (owner parameter parameterType : String) (location : Location)
  deriving DecidableEq, Repr

namespace ReferenceError

/-- Where the thing that refers is defined. -/
def location : ReferenceError → Location
  | undefined _ l | implementsNonInterface _ _ l | nonObjectMember _ _ _ l | outputFieldOfInputType _ _ _ l
  | inputFieldOfOutputType _ _ _ l | parameterOfOutputType _ _ _ l => l

/-- The wording of the error. -/
def message : ReferenceError → String
  | undefined name _ => s!"There is no type defined with the name `{name}`"
  | implementsNonInterface typeName interface _ =>
    s!"The `{typeName}` type implements `{interface}`, but `{interface}` is not an interface"
  | nonObjectMember union member kind _ =>
    s!"Invalid union member type: The `{union}` type defines one of its members as `{member}`, but this " ++
    "type is a " ++ kind.text ++ " type and union members can only be object types."
  | outputFieldOfInputType typeName field fieldType _ =>
    "Output fields can not be declared with an input object type: The " ++
    s!"`{typeName}.{field}` field is an output field, but the `{fieldType}` type is an input object type"
  | inputFieldOfOutputType typeName field fieldType _ =>
    "Input fields can not be declared with a non-input type: The " ++
    s!"`{typeName}.{field}` field is an input field, but the `{fieldType}` type is a non-input type."
  | parameterOfOutputType owner parameter parameterType _ =>
    s!"Parameters can only be declared with input-compatible types: The `{parameter}` parameter of " ++
    s!"`{owner}` was declared with the `{parameterType}` type, which is not an input-compatible type."

end ReferenceError

/-- What is wrong with a reference: nothing if it leads to a type that passes, and one error otherwise. -/
def checkReference (types : Table TypeDef) (name : String) (location : Location)
    (check : TypeDef → Option ReferenceError) : List ReferenceError :=
  match types.find? name with
  | none => [.undefined name location]
  | some t => (check t).toList

/-- What is wrong with the type of an argument. -/
def checkParameter (types : Table TypeDef) (owner : String) (p : InputValueDef) : List ReferenceError :=
  checkReference types p.type.namedType p.location fun t =>
    if t.isInput then none else some (.parameterOfOutputType owner p.name t.name p.location)

/-- What is wrong with a field and then with its arguments. -/
def checkField (types : Table TypeDef) (owner : String) (f : FieldDef) : List ReferenceError :=
  (checkReference types f.type.namedType f.location fun t =>
    if t.isInputObject then some (.outputFieldOfInputType owner f.name t.name f.location) else none) ++
  f.arguments.entries.flatMap (checkParameter types (owner ++ "." ++ f.name))

/-- What is wrong with a field of an input object. -/
def checkInputField (types : Table TypeDef) (owner : String) (f : InputValueDef) : List ReferenceError :=
  checkReference types f.type.namedType f.location fun t =>
    if t.isInput then none else some (.inputFieldOfOutputType owner f.name t.name f.location)

/-- What is wrong with an interface that a type implements. -/
def checkInterface (types : Table TypeDef) (owner : TypeDef) (interface : String) : List ReferenceError :=
  checkReference types interface owner.location fun t =>
    if t.isInterface then none else some (.implementsNonInterface owner.name interface owner.location)

/-- What is wrong with a member of a union. -/
def checkMember (types : Table TypeDef) (owner : TypeDef) (member : String) : List ReferenceError :=
  checkReference types member owner.location fun t =>
    if t.isObject then none else some (.nonObjectMember owner.name member t.kind owner.location)

/-- What is wrong with the references of a type. -/
def checkType (types : Table TypeDef) (t : TypeDef) : List ReferenceError :=
  match t.contents with
  | .object interfaces fields | .interface interfaces fields =>
    interfaces.flatMap (checkInterface types t) ++ fields.entries.flatMap (checkField types t.name)
  | .inputObject fields => fields.entries.flatMap (checkInputField types t.name)
  | .union members => members.flatMap (checkMember types t)
  | .builtIn _ | .enum _ | .scalar => []

/-- What is wrong with the references of a directive. -/
def checkDirective (types : Table TypeDef) (d : DirectiveDef) : List ReferenceError :=
  d.arguments.entries.flatMap (checkParameter types ("@" ++ d.name))

/-- **All references that are not in order.** -/
def checkReferences (types : Table TypeDef) (directives : Table DirectiveDef) : List ReferenceError :=
  types.entries.flatMap (checkType types) ++ directives.entries.flatMap (checkDirective types)

end QueryAid
