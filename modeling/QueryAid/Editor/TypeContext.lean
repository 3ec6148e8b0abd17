import QueryAid.Editor.ParserState
import QueryAid.Schema.Basic
/-!
# Types around the cursor

What is known about types where the cursor is. The parts that the cursor is in are gone through from the
outermost one inwards; each of them settles a few things for itself and all parts in it, and leaves the
others as they are. What cannot be settled is not known.
-/

namespace QueryAid

/-- A type as it is known: by itself, or through an annotation. -/
inductive ContextType where
  | annotated (layers : TypeAnnotation)
  | named (type : TypeDef)
  deriving DecidableEq

namespace ContextType

/-- How a type is written. -/
def text : ContextType → String
  | annotated a => a.text
  | named t => t.name

/-- The type under all layers. -/
def namedType? (s : Schema) : ContextType → Option TypeDef
  | annotated a => s.namedType? a
  | named t => some t

/-- The type of the items, if it is a list. -/
def element? : ContextType → Option ContextType
  | annotated a => a.element?.map annotated
  | named _ => none

end ContextType

/-- **What is known about types at a place.** -/
structure TypeContext where
  /-- The type of the operation, fragment or field. -/
  type : Option ContextType
  /-- The type that selections are made from. -/
  parentType : Option TypeDef
  fieldDef : Option FieldDef
  directiveDef : Option DirectiveDef
  /-- The arguments that can be given. -/
  argumentDefs : Option (Table InputValueDef)
  argumentDef : Option InputValueDef
  /-- The type that a value must have. -/
  inputType : Option ContextType
  /-- The fields that an object value can have. -/
  objectFieldDefs : Option (Table InputValueDef)
  deriving DecidableEq

namespace TypeContext

/-- Nothing is known. -/
def empty : TypeContext := ⟨none, none, none, none, none, none, none, none⟩

/-- The field of a name, in a context that has a type and a parent type. -/
def field? (s : Schema) (c : TypeContext) (name : Option String) : Option FieldDef := do
  let _ ← c.type
  let parent ← c.parentType
  s.resolveField parent (← name)

/-- The arguments that can be given in parentheses after a part of some kind. -/
def argumentsAfter (c : TypeContext) : Option StateKind → Option (Table InputValueDef)
  | some .field => c.fieldDef.map FieldDef.arguments
  | some .directive => c.directiveDef.map DirectiveDef.arguments
  | _ => none

/-- The entry of a name in a table, where both may be unknown. -/
def member? (t : Option (Table InputValueDef)) (name : Option String) : Option InputValueDef := do
  (← t).find? (← name)

/-- The context in a part, when `c` is the one around it. -/
def step (s : Schema) (enclosing : Option StateKind) (c : TypeContext) (f : StateFrame) : TypeContext :=
  match f.kind with
  | .query | .shortQuery => { c with type := (s.root? .query).map .named }
  | .mutation => { c with type := (s.root? .mutation).map .named }
  | .subscription => { c with type := (s.root? .subscription).map .named }
  | .fragmentDefinition | .inlineFragment => { c with type := (f.typeName.bind s.type?).map .named }
  | .field =>
    let field := c.field? s f.name
    { c with fieldDef := field, type := field.map fun x => .annotated x.type }
  | .selectionSet => { c with parentType := c.type.bind (ContextType.namedType? s) }
  | .directive => { c with directiveDef := f.name.bind s.directive? }
  | .arguments => { c with argumentDefs := c.argumentsAfter enclosing }
  | .argument =>
    let argument := member? c.argumentDefs f.name
    { c with argumentDef := argument, inputType := argument.map fun x => .annotated x.type }
  | .listValue => { c with inputType := c.inputType.bind ContextType.element? }
  | .objectValue =>
    { c with objectFieldDefs :=
        (c.inputType.bind (ContextType.namedType? s)).bind TypeDef.inputFields? }
  | .objectField =>
    { c with inputType := (member? c.objectFieldDefs f.name).map fun x => .annotated x.type }
  | _ => c

/-- **The context of a state.** -/
def ofState (s : Schema) : ParserState → TypeContext
  | .root f => step s none empty f
  | .within f e => step s (some e.kind) (ofState s e) f

end TypeContext

end QueryAid
