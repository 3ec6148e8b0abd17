import QueryAid.Schema.BuildError
/-!
# Adding members to types

A definition adds its members to a type that has none, an extension adds them to a type that may have some.
Either way they go behind those that are there, and each of them must be new.
-/

namespace QueryAid

/-- The names with two underscores in front belong to the language. -/
def isReserved (name : String) : Bool := "__".toList.isPrefixOf name.toList

/-- The type that members are added to. -/
structure Owner where
  name : String
  /-- Where the type is defined. -/
  location : Location
  deriving DecidableEq, Repr

/-- Refuses arguments with reserved names. -/
def refuseReservedParameters (owner : String) (ps : Table InputValueDef) : Except BuildError Unit :=
  match ps.entries.find? fun p => isReserved p.name with
  | none => .ok ()
  | some p => .error (.reservedParameterName owner p.name p.location)

/-- One more value of an enum. -/
def addEnumValue (file : String) (owner : Owner) (values : Table EnumValueDef) (v : Sdl.EnumValue) :
    Except BuildError (Table EnumValueDef) :=
  let v := EnumValueDef.ofSource file v
  match values.find? v.name with
  | some first => .error (.duplicateEnumValue owner.name v.name first.location v.location)
  | none => .ok (values.insert v)

/-- One more field of an object or interface. -/
def addField (file : String) (owner : Owner) (fields : Table FieldDef) (f : Sdl.Field) :
    Except BuildError (Table FieldDef) := do
  let f := FieldDef.ofSource file f
  if isReserved f.name then throw (.reservedFieldName owner.name f.name f.location)
  refuseReservedParameters (owner.name ++ "." ++ f.name) f.arguments
  match fields.find? f.name with
  | some first => throw (.duplicateField owner.name f.name first.location f.location)
  | none => return fields.insert f

/-- One more field of an input object. -/
def addInputField (file : String) (owner : Owner) (fields : Table InputValueDef) (f : Sdl.InputValue) :
    Except BuildError (Table InputValueDef) := do
  let f := InputValueDef.ofSource file f
  if isReserved f.name then throw (.reservedFieldName owner.name f.name f.location)
  match fields.find? f.name with
  | some first => throw (.duplicateField owner.name f.name first.location f.location)
  | none => return fields.insert f

/-- One more member of a union. -/
def addMember (owner : Owner) (members : List String) (m : String) : Except BuildError (List String) :=
  if members.contains m then .error (.duplicateUnionMember owner.name m owner.location)
  else .ok (members ++ [m])

/-- One more interface of an object or interface, which must not be the type itself. -/
def addInterface (owner : Owner) (interfaces : List String) (i : String) : Except BuildError (List String) :=
  if interfaces.contains i then .error (.duplicateInterface owner.name i owner.location)
  else if i == owner.name then .error (.implementsItself owner.name owner.location)
  else .ok (interfaces ++ [i])

/-- **A type's contents with more members.** What is added must be of the type's kind; a type that is built in
cannot be added to. -/
def TypeContents.add (file : String) (owner : Owner) (location : Location) :
    TypeContents → Sdl.TypeBody → Except BuildError TypeContents
  | .enum values, .enum more => do
    return .enum (← more.foldlM (addEnumValue file owner) values)
  | .inputObject fields, .inputObject more => do
    return .inputObject (← more.foldlM (addInputField file owner) fields)
  | .interface interfaces fields, .interface moreInterfaces more => do
    let interfaces ← moreInterfaces.foldlM (addInterface owner) interfaces
    return .interface interfaces (← more.foldlM (addField file owner) fields)
  | .object interfaces fields, .object moreInterfaces more => do
    let interfaces ← moreInterfaces.foldlM (addInterface owner) interfaces
    return .object interfaces (← more.foldlM (addField file owner) fields)
  | .scalar, .scalar => .ok .scalar
  | .union members, .union more => do
    return .union (← more.foldlM (addMember owner) members)
  -- Whatever else meets is of two kinds, or is built in.
  | contents, _ => .error (.extendedKind owner.name contents.kind location)

/-- Contents of the kind of a definition, without members. -/
def TypeContents.emptyFor : Sdl.TypeBody → TypeContents
  | .scalar => .scalar
  | .object .. => .object [] .empty
  | .interface .. => .interface [] .empty
  | .union _ => .union []
  | .enum _ => .enum .empty
  | .inputObject _ => .inputObject .empty

/-- **The type that a definition in a file defines.** -/
def TypeDef.ofSource (file : String) (d : Sdl.TypeDefinition) : Except BuildError TypeDef := do
  let location := Location.file file d.place
  let contents ← (TypeContents.emptyFor d.body).add file ⟨d.name, location⟩ location d.body
  return ⟨d.name, d.description, location, contents⟩

/-- **A type with what an extension in a file adds to it.** -/
def TypeDef.extend (file : String) (t : TypeDef) (e : Sdl.TypeExtension) : Except BuildError TypeDef := do
  let contents ← t.contents.add file ⟨t.name, t.location⟩ (.file file e.place) e.body
  return { t with contents := contents }

end QueryAid
