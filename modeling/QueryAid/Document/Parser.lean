import QueryAid.Document.TypeSystem
/-!
# Reading documents

A document is one definition or more. A string before a definition is its description; the word after the
string then says what is defined.
-/

namespace QueryAid

/-- What a source holds side by side. -/
inductive DocumentItem where
  | executable (definition : Definition)
  | typeSystem (definition : NonExecutable)

namespace TokenParser

open Cursor

/-- A definition or extension of a schema, a type or a directive. -/
def typeSystemItem (p : TokenParser (Option Name)) : TokenParser DocumentItem := spanned do
  let n ← p
  return fun span => .typeSystem ⟨n, span⟩

/-- An operation. -/
def operationItem : TokenParser DocumentItem := do
  return .executable (.operation (← operation))

/-- A fragment definition. -/
def fragmentItem : TokenParser DocumentItem := do
  return .executable (.fragment (← fragment))

/-- What a word announces at the start of a definition. -/
def itemOf (word : String) : TokenParser DocumentItem :=
  match word with
  | "query" | "mutation" | "subscription" | "\x7b" => operationItem
  | "fragment" => fragmentItem
  | "extend" => typeSystemItem extension
  | "schema" => typeSystemItem schemaDefinition
  | "scalar" => typeSystemItem scalarDefinition
  | "type" => typeSystemItem (fieldsDefinition "type" .typeName)
  | "interface" => typeSystemItem (fieldsDefinition "interface" .name)
  | "union" => typeSystemItem unionDefinition
  | "enum" => typeSystemItem enumDefinition
  | "input" => typeSystemItem inputObjectDefinition
  | "directive" => typeSystemItem directiveDefinition
  | _ => fail .definition

/-- One definition or extension. -/
def item : TokenParser DocumentItem := do
  let t ← Parser.look Cursor.token
  if t.isString then
    let next ← Parser.look Cursor.second?
    match next with
    | none => fail .definition
    | some t => itemOf t.text
  else do
    require (fun c => c.atName || c.atMark .leftBrace) .definitionStart
    itemOf t.text

/-- All of a source. -/
def documentItems : TokenParser (List DocumentItem) := do
  require (fun c => !c.atEnd) .emptyDocument
  Parser.many (fun c => !c.atEnd) item

end TokenParser

namespace Document

/-- The document that items form. -/
def ofItems (items : List DocumentItem) : Document where
  definitions := items.filterMap fun
    | .executable d => some d
    | .typeSystem _ => none
  nonExecutable := items.filterMap fun
    | .executable _ => none
    | .typeSystem d => some d

/-- **The document that a source holds**, or the first thing wrong with it. -/
def parse (source : List Char) : Except SyntaxError Document := do
  let c ← Cursor.ofSource source
  let (items, _) ← TokenParser.documentItems c
  return ofItems items

end Document

end QueryAid
