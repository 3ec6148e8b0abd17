import QueryAid.Schema.BuiltIn
import QueryAid.Schema.Merge
import QueryAid.Sdl.Parser
/-!
# Building schemas

Sources are loaded one after the other, and then the schema is built. Types, directives and roots are
taken in as they are met, and must be new. Extensions wait until everything is loaded, since they may stand
before what they extend; then they are applied in the order in which they were met. References are checked
last, when everything they can lead to is there.
-/

namespace QueryAid

/-- An extension and the file it stands in. -/
structure PendingExtension where
  file : String
  extension : Sdl.TypeExtension

/-- **What has been loaded so far.** -/
structure SchemaBuilder where
  types : Table TypeDef
  directives : Table DirectiveDef
  /-- The extensions met, oldest first. -/
  extensions : List PendingExtension
  roots : PerOperation RootDeclaration
  /-- How many sources without a name were loaded. -/
  unnamed : UInt16

namespace SchemaBuilder

/-- Nothing but the built-in scalars. -/
def new : SchemaBuilder := ⟨.ofList builtInScalars, .empty, [], .none, 0⟩

/-! ### Loading -/

/-- Takes in a type. -/
def addType (file : String) (types : Table TypeDef) (d : Sdl.TypeDefinition) :
    Except BuildError (Table TypeDef) := do
  let t ← TypeDef.ofSource file d
  if isReserved t.name then throw (.reservedTypeName t.name t.location)
  match types.find? t.name with
  | some first => throw (.duplicateType t.name first.location t.location)
  | none => return types.insert t

/-- Takes in a directive. -/
def addDirective (file : String) (directives : Table DirectiveDef) (d : Sdl.DirectiveDefinition) :
    Except BuildError (Table DirectiveDef) := do
  let d := DirectiveDef.ofSource file d
  if builtInDirectives.any fun x => x.name == d.name then throw (.builtInDirective d.name d.location)
  if isReserved d.name then throw (.reservedDirectiveName d.name d.location)
  if let some first := directives.find? d.name then
    throw (.duplicateDirective d.name first.location d.location)
  refuseReservedParameters d.name d.arguments
  return directives.insert d

/-- Takes in the root of one kind of operation. -/
def addRoot (location : Location) (roots : PerOperation RootDeclaration) (r : OperationKind × String) :
    Except BuildError (PerOperation RootDeclaration) :=
  let declared : RootDeclaration := ⟨r.2, location⟩
  match roots.get r.1 with
  | some first => .error (.duplicateRoot r.1 first declared)
  | none => .ok (roots.set r.1 declared)

/-- Two kinds of operation that start at one type, if there are any. -/
def sharedRoot? : List (OperationKind × RootDeclaration) → Option BuildError
  | [] => none
  | r :: rs =>
    match rs.find? fun s => s.2.typeName == r.2.typeName with
    | some s => some (.sharedRoot r.2.typeName r.1 r.2.location s.1 s.2.location)
    | none => sharedRoot? rs

/-- Takes in a schema block. -/
def addSchemaBlock (file : String) (roots : PerOperation RootDeclaration) (s : Sdl.SchemaBlock) :
    Except BuildError (PerOperation RootDeclaration) := do
  let roots ← s.roots.toList.foldlM (addRoot (.file file s.place)) roots
  match sharedRoot? roots.toList with
  | some e => throw e
  | none => return roots

/-- Takes in one definition of a file. An extension waits. -/
def addDefinition (file : String) (b : SchemaBuilder) : Sdl.Definition → Except BuildError SchemaBuilder
  | .schema s => do return { b with roots := ← addSchemaBlock file b.roots s }
  | .type d => do return { b with types := ← addType file b.types d }
  | .extension e => return { b with extensions := b.extensions ++ [⟨file, e⟩] }
  | .directive d => do return { b with directives := ← addDirective file b.directives d }

/-- Takes in all definitions of a source. -/
def loadSource (b : SchemaBuilder) (file : String) (text : String) : Except BuildError SchemaBuilder :=
  match Sdl.parse text.toList with
  | .error place => .error (.parse file place)
  | .ok definitions => definitions.foldlM (addDefinition file) b

/-- **Loads a source.** One without a name is named for the number of such sources before it. -/
def load (b : SchemaBuilder) (file : Option String) (text : String) : Except BuildError SchemaBuilder :=
  match file with
  | some file => b.loadSource file text
  | none =>
    { b with unnamed := b.unnamed + 1 }.loadSource ("str://" ++ toString b.unnamed) text

/-! ### Building -/

/-- Applies an extension. -/
def applyExtension (types : Table TypeDef) (p : PendingExtension) : Except BuildError (Table TypeDef) := do
  match types.find? p.extension.name with
  | none => throw (.undefinedExtended p.extension.name (.file p.file p.extension.place))
  | some t => return types.insert (← t.extend p.file p.extension)

/-- The name of the root of a kind of operation: the one that was declared, which must be an object, or else
the usual one if there is an object of that name. -/
def resolveRoot (b : SchemaBuilder) (types : Table TypeDef) (k : OperationKind) :
    Except BuildError (Option String) :=
  match b.roots.get k with
  | some r =>
    if (types.find? r.typeName).any TypeDef.isObject then .ok (some r.typeName)
    else .error (.rootNotAnObject k r.typeName r.location)
  | none => .ok (if (types.find? k.title).any TypeDef.isObject then some k.title else none)

/-- **The schema that was loaded.** -/
def build (b : SchemaBuilder) : Except BuildError Schema := do
  -- What every schema has is there before the extensions, which may extend it.
  let directives := b.directives.insertAll builtInDirectives
  let types ← b.extensions.foldlM applyExtension (b.types.insertAll introspectionTypes)
  let some query ← b.resolveRoot types .query | throw .noQueryRoot
  let mutation ← b.resolveRoot types .mutation
  let subscription ← b.resolveRoot types .subscription
  match checkReferences types directives with
  | [] => return ⟨types, directives, query, mutation, subscription⟩
  | errors => throw (.references errors)

end SchemaBuilder

namespace Schema

/-- The schema of some sources, loaded in order. -/
def ofSources (sources : List (Option String × String)) : Except BuildError Schema := do
  let b ← sources.foldlM (fun b s => b.load s.1 s.2) SchemaBuilder.new
  b.build

end Schema

end QueryAid
