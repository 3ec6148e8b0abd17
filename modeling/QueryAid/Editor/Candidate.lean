import QueryAid.Editor.GrammarPosition
import QueryAid.Editor.TypeContext
/-!
# Candidates

Everything that could stand where the cursor is, before it is compared with what was typed.
-/

namespace QueryAid

/-- **Something that could stand at a place.** -/
structure Candidate where
  text : String
  type : Option ContextType
  description : Option String
  deriving DecidableEq

namespace Candidate

/-- A field to select. -/
def ofField (f : FieldDef) : Candidate := ⟨f.name, some (.annotated f.type), f.description⟩

/-- An argument to give, or a field to give of an input object. -/
def ofInputValue (v : InputValueDef) : Candidate := ⟨v.name, some (.annotated v.type), v.description⟩

/-- A value of an enum. -/
def ofEnumValue (t : TypeDef) (v : EnumValueDef) : Candidate := ⟨v.name, some (.named t), v.description⟩

/-- A type to name. -/
def ofType (t : TypeDef) : Candidate := ⟨t.name, none, t.description⟩

/-- A directive to use. -/
def ofDirective (d : DirectiveDef) : Candidate := ⟨d.name, none, d.description⟩

/-- The fields that can be selected from a type. The name of an object's type is offered only where it is not
settled beforehand. -/
def selections (s : Schema) (parent : TypeDef) : List Candidate :=
  (((parent.fields?.map Table.entries).getD []) ++
    (if parent.isAbstract then [typenameMetaField] else []) ++
    (if s.isQueryRoot parent then [schemaMetaField, typeMetaField] else [])).map ofField

/-- The arguments or fields of an input object that can be given. -/
def inputValues (t : Table InputValueDef) : List Candidate := t.entries.map ofInputValue

/-- The values that a type has by name. -/
def values? (t : TypeDef) : Option (List Candidate) :=
  match t.contents with
  | .enum values => some (values.entries.map (ofEnumValue t))
  | .builtIn .boolean =>
    some [⟨"true", some (.named t), some "Not false."⟩, ⟨"false", some (.named t), some "Not true."⟩]
  | _ => none

/-- The types that a fragment in a type can be on; all composite types where the type is not known. -/
def typeConditions (s : Schema) : Option TypeDef → List Candidate
  | some parent => (if parent.isAbstract then s.possibleTypes parent else [parent]).map ofType
  | none => (s.types.entries.filter TypeDef.isComposite).map ofType

/-- The types that a variable can have. -/
def inputTypes (s : Schema) : List Candidate := (s.types.entries.filter TypeDef.isInput).map ofType

/-- Whether a directive can be used after a part of some kind. -/
def applies (enclosing : Option StateKind) (d : DirectiveDef) : Bool :=
  match enclosing with
  | none => false
  | some k =>
    if k == .field then d.onField
    else if k.isFragment then d.onFragment
    else k.isOperation && d.onOperation

/-- The directives that can be used after a part of some kind. -/
def directives (s : Schema) (enclosing : Option StateKind) : List Candidate :=
  (s.directives.entries.filter (applies enclosing)).map ofDirective

/-- **What could stand at a position,** if enough is known to tell. -/
def at? (s : Schema) (c : TypeContext) (enclosing : Option StateKind) :
    GrammarPosition → Option (List Candidate)
  | .selection => c.parentType.map (selections s)
  | .argumentName => c.argumentDefs.map inputValues
  | .inputObjectField => c.objectFieldDefs.map inputValues
  | .inputValue => (c.inputType.bind (ContextType.namedType? s)).bind values?
  | .typeCondition => some (typeConditions s c.parentType)
  | .inputType => some (inputTypes s)
  | .directiveName => some (directives s enclosing)

end Candidate

end QueryAid
