import QueryAid.Schema.References
/-!
# Errors of schemas

Everything that can keep sources from being a schema.
-/

namespace QueryAid

/-- A type that is named as the root of an operation, and where. -/
structure RootDeclaration where
  typeName : String
  location : Location
  deriving DecidableEq, Repr

/-- Why a file could not be read as text. -/
inductive FileReadError where
  /-- The system refuses, and says why. -/
  | refused (path reason : String)
  | notAFile (path : String)
  /-- The first byte that is not UTF-8 stands at `offset`. -/
  | notUtf8 (path : String) (offset : Nat)
  deriving DecidableEq, Repr

/-- The wording of a read error. -/
def FileReadError.message : FileReadError → String
  | refused path reason => s!"Failed to read `{path}`: {reason}"
  | notAFile path => s!"`{path}` is not a file"
  | notUtf8 path offset => s!"`{path}` is not valid utf8 past byte offset {offset}"

/-- **Why sources are not a schema.** -/
inductive BuildError where
  | fileRead (cause : FileReadError)
  | parse (file : String) (place : Sdl.Place)
  | duplicateType (typeName : String) (first second : Location)
  | duplicateDirective (directive : String) (first second : Location)
  | duplicateField (typeName field : String) (first second : Location)
  | duplicateEnumValue (enum value : String) (first second : Location)
  | duplicateUnionMember (union member : String) (location : Location)
  | duplicateInterface (typeName interface : String) (location : Location)
  | duplicateRoot (operation : OperationKind) (first second : RootDeclaration)
  | sharedRoot (typeName : String) (operation1 : OperationKind) (location1 : Location)
      (operation2 : OperationKind) (location2 : Location)
  | builtInDirective (directive : String) (location : Location)
  | reservedTypeName (typeName : String) (location : Location)
  | reservedDirectiveName (directive : String) (location : Location)
  | reservedFieldName (typeName field : String) (location : Location)
  | reservedParameterName (owner parameter : String) (location : Location)
  | implementsItself (interface : String) (location : Location)
  | undefinedExtended (typeName : String) (location : Location)
  | extendedKind (typeName : String) (kind : TypeKind) (location : Location)
  | rootNotAnObject (operation : OperationKind) (typeName : String) (location : Location)
  | noQueryRoot
  | references (errors : List ReferenceError)
  deriving DecidableEq, Repr

/-- The wording of a build error. -/
def BuildError.message : BuildError → String
  | fileRead _ => "Failure while trying to read a schema file from disk"
  | parse file place =>
    s!"Error parsing schema source `{file}`: schema parse error: Parse error at " ++
    toString place.line ++ ":" ++ toString place.column
  | duplicateType typeName .. => s!"Multiple GraphQL types named `{typeName}` were defined"
  | duplicateDirective directive .. => s!"Multiple directives were defined with the name `{directive}`"
  | duplicateField typeName field .. => s!"The `{typeName}` type defines the `{field}` field more than once"
  | duplicateEnumValue enum value .. => s!"The `{enum}` enum defines the `{value}` value more than once"
  | duplicateUnionMember union member _ => s!"The `{union}` union lists `{member}` as a member more than once"
  | duplicateInterface typeName interface _ =>
    s!"The `{typeName}` type declares that it implements the `{interface}` interface more than once"
  | duplicateRoot operation .. =>
    "Multiple definitions of the " ++ operation.title ++ " operation type were defined"
  | sharedRoot _ operation1 _ operation2 _ =>
    "The " ++ operation1.title ++ " and " ++ operation2.title ++
    " root operation are defined with the same GraphQL type, but this is not allowed in GraphQL. " ++
    "All root operations must be defined with different types."
  | builtInDirective directive _ => s!"Attempted to redefine the builtin `@{directive}` directive"
  | reservedTypeName typeName _ => s!"Type names must not start with `__`: `{typeName}`"
  | reservedDirectiveName .. => "Custom directive names must not start with `__`"
  | reservedFieldName typeName field _ => s!"Field names must not start with `__`: `{typeName}.{field}`"
  | reservedParameterName owner parameter _ =>
    s!"Parameter names must not start with `__`: `{parameter}` on `{owner}`"
  | implementsItself interface _ =>
    "Interface types may not declare that they implement themselves: " ++
    s!"The `{interface}` interface does just that"
  | undefinedExtended typeName _ => s!"Attempted to extend the `{typeName}` type, which is not defined"
  | extendedKind typeName kind _ =>
    s!"Attempted to extend the `{typeName}` type with an extension for a different kind of type " ++
    s!"(`{typeName}` is a " ++ kind.text ++ " type)"
  | rootNotAnObject operation typeName _ =>
    "The " ++ operation.title ++ " root operation type is declared as " ++
    s!"`{typeName}`, which is not a defined object type"
  | noQueryRoot => "Attempted to build a schema that has no Query operation type defined"
  | references errors =>
    "Encountered the following type-validation errors while building the schema:\n\n" ++
    "\n".intercalate (errors.map fun e => "  * " ++ e.message)

end QueryAid
