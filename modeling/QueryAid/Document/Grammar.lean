import QueryAid.Document.Cursor
/-!
# The grammar of executable definitions

Values, types, arguments, directives, selections, operations and fragments.

Nesting is bounded. The number `room` says how many more levels may be opened: a selection set, the type in
a list type, an item of a list value and a field of an object value each take one, and when there is none
left the source is refused at the token that would open it. The recursion is on `room`.
-/

namespace QueryAid

/-- How many levels of nesting a document may have. -/
def nestingLimit : Nat := 500

namespace TokenParser

open Cursor

/-! ### Values and types -/

/-- A name, and a value after a colon. A field of an object without its colon is passed over. -/
def objectField (item : TokenParser Value) : TokenParser (Option ObjectField) := spanned do
  let n ← name .name
  let v ← Parser.optional (atMark .colon) do
    advance
    item
  return fun span => v.map fun v => .mk n v span

/-- What a name stands for where a value is expected. -/
def valueOfName (text : String) (span : Span) : Value :=
  match text with
  | "true" => .boolean true span
  | "false" => .boolean false span
  | "null" => .null span
  | _ => .enum text span

/-- A value, with `item` for what is nested in it. A list that the end of the source cuts off is not refused
here, but by what asks for the next token. -/
def valueWith (constant : Bool) (item : TokenParser Value) : TokenParser Value := do
  let t ← Parser.look Cursor.token
  match t.kind with
  | .punctuator .dollar =>
    require (fun _ => !constant) .variableInConstant
    spanned do
      advance
      return .var (← name .name)
  | .int => spanned do
    advance
    return .int t.text
  | .float => spanned do
    advance
    return .float t.text
  | .string => spanned do
    advance
    return .string t.text
  | .name => spanned do
    advance
    return valueOfName t.text
  | .punctuator .leftBracket => spanned do
    advance
    let items ← Parser.many (fun c => !c.atMark .rightBracket && !c.atEnd) item
    skip (atMark .rightBracket)
    return .list items
  | .punctuator .leftBrace => spanned do
    advance
    let fields ← Parser.many atName (objectField item)
    close .brace
    return .object (fields.filterMap id)
  | _ => fail .value

/-- A value; variables are refused in a constant one. -/
def value (constant : Bool) : Nat → Cursor → Except SyntaxError (Value × Cursor)
  | 0, c => valueWith constant (fail .nesting) c
  | room + 1, c => valueWith constant (fun c => value constant room c) c

/-- A list type, with `item` for the type in it. -/
def listType (item : TokenParser TypeRef) : TokenParser TypeRef := spanned do
  advance
  let inner ← item
  close .bracket
  return .list inner

/-- A type, with `item` for the type in a list type; `fault` says what is missing if there is none. -/
def typeRefWith (fault : SyntaxFault) (item : TokenParser TypeRef) : TokenParser TypeRef := spanned do
  let list ← Parser.look (atMark .leftBracket)
  let t ← if list then listType item else TypeRef.named <$> name fault
  let bang ← Parser.optional (atMark .bang) advance
  return fun span => if bang.isSome then .nonNull t span else t

/-- A type. -/
def typeRefAt (fault : SyntaxFault) : Nat → Cursor → Except SyntaxError (TypeRef × Cursor)
  | 0, c => typeRefWith fault (fail .nesting) c
  | room + 1, c => typeRefWith fault (fun c => typeRefAt .itemType room c) c

/-- A type that must start here. -/
def typeRef : TokenParser TypeRef := do
  require (fun c => c.atName || c.atMark .leftBracket) .type
  typeRefAt .writtenType nestingLimit

/-! ### Arguments and directives -/

/-- A name, and a value after a colon. An argument without its colon is passed over. -/
def argument (constant : Bool) (room : Nat) : TokenParser (Option Argument) := spanned do
  let n ← name .name
  let v ← Parser.optional (atMark .colon) do
    advance
    value constant room
  return fun span => v.map fun v => ⟨n, v, span⟩

/-- The arguments in parentheses, if there are any. -/
def arguments (constant : Bool) (room : Nat) : TokenParser (List Argument) := do
  let found ← Parser.optional (atMark .leftParen) do
    advance
    require atName .argument
    let found ← Parser.many atName (argument constant room)
    close .parenthesis
    return found.filterMap id
  return found.getD []

/-- One directive. -/
def directive (constant : Bool) (room : Nat) : TokenParser DirectiveUse := spanned do
  advance
  let n ← name .name
  let found ← arguments constant room
  return fun span => ⟨n, found, span⟩

/-- The directives that stand here. -/
def directives (constant : Bool) (room : Nat) : TokenParser (List DirectiveUse) :=
  Parser.many (atMark .atSign) (directive constant room)

/-! ### Selections -/

/-- The type of a fragment. -/
def typeCondition : TokenParser Name := do
  expect (atWord "on") .onKeyword
  name .conditionName

/-- A field; `nested` reads a selection set in it. -/
def field (room : Nat) (nested : TokenParser SelectionSet) : TokenParser Selection := spanned do
  let aliased ← Parser.look fun c => c.second?.any fun t => t.isMark .colon
  let responseName ← Parser.optional (fun _ => aliased) do
    let n ← name .name
    advance
    return n
  let n ← name .name
  let args ← arguments false room
  let uses ← directives false room
  let set ← Parser.optional (atMark .leftBrace) nested
  return fun span => .field ⟨responseName, n, args, uses, span⟩ set

/-- A fragment spread. -/
def spread (room : Nat) : TokenParser Selection := spanned do
  advance
  let n ← name .name
  let uses ← directives false room
  return fun span => .spread ⟨n, uses, span⟩

/-- An inline fragment; `nested` reads its selection set. -/
def inlineFragment (room : Nat) (nested : TokenParser SelectionSet) : TokenParser Selection := spanned do
  advance
  let condition ← Parser.optional atName typeCondition
  let uses ← directives false room
  require (atMark .leftBrace) .inlineSelections
  let set ← nested
  return fun span => .inline ⟨condition, uses, span⟩ set

/-- One selection. What follows three points tells a fragment spread from an inline fragment. -/
def selection (room : Nat) (nested : TokenParser SelectionSet) : TokenParser Selection := do
  let spreading ← Parser.look (atMark .spread)
  if spreading then
    let next ← Parser.look Cursor.second?
    match next with
    | none => fail .fragmentForm
    | some t =>
      if t.isName && t.text != "on" then spread room
      else if t.isName || t.isMark .atSign || t.isMark .leftBrace then inlineFragment room nested
      else fail .fragmentForm
  else field room nested

/-- Whether a selection starts at the cursor. -/
def startsSelection (c : Cursor) : Bool := c.atMark .spread || c.atName

/-- The selections in a selection set and its closing brace. -/
def selections (room : Nat) (nested : TokenParser SelectionSet) : TokenParser (List Selection) := do
  require startsSelection .selection
  let found ← Parser.many startsSelection (selection room nested)
  close .brace
  return found

/-- A selection set, of which the opening brace is at hand. -/
def selectionSet : Nat → Cursor → Except SyntaxError (SelectionSet × Cursor)
  | 0, c =>
    (do
      advance
      fail .nesting : TokenParser SelectionSet) c
  | room + 1, c =>
    spanned (do
      advance
      let found ← selections room fun c => selectionSet room c
      return .mk found) c

/-! ### Definitions -/

/-- A variable definition. -/
def variableDefinition : TokenParser VariableDefinition := spanned do
  let (n, variableSpan) ← spanned do
    advance
    let n ← name .name
    return fun span => (n, span)
  expect (atMark .colon) .name
  let type ← typeRef
  let default ← Parser.optional (atMark .equals) do
    advance
    value true nestingLimit
  let uses ← directives true nestingLimit
  return fun span => ⟨n, variableSpan, type, default, uses, span⟩

/-- The variable definitions in parentheses, if there are any. -/
def variableDefinitions : TokenParser (List VariableDefinition) := do
  let found ← Parser.optional (atMark .leftParen) do
    advance
    require (atMark .dollar) .variableDefinition
    let found ← Parser.many (atMark .dollar) variableDefinition
    close .parenthesis
    return found
  return found.getD []

/-- The operation that a keyword announces. -/
def operationKind : String → OperationKind
  | "mutation" => .mutation
  | "subscription" => .subscription
  | _ => .query

/-- An operation: a keyword and what may follow it, or selections alone. -/
def operation : TokenParser Operation := spanned do
  let t ← Parser.look Cursor.token
  if t.isName then
    advance
    let n ← Parser.optional atName (name .name)
    let defined ← variableDefinitions
    let uses ← directives false nestingLimit
    require (atMark .leftBrace) .operationSelections
    let set ← selectionSet nestingLimit
    return fun span => ⟨operationKind t.text, n, defined, uses, set, span⟩
  else
    require (atMark .leftBrace) .operationType
    let set ← selectionSet nestingLimit
    return fun span => ⟨.query, none, [], [], set, span⟩

/-- A fragment definition. -/
def fragment : TokenParser Fragment := spanned do
  advance
  require (fun c => !c.atWord "on") .fragmentNamedOn
  let n ← name .fragmentName
  let condition ← typeCondition
  let uses ← directives false nestingLimit
  require (atMark .leftBrace) .operationSelections
  let set ← selectionSet nestingLimit
  return fun span => ⟨n, condition, uses, set, span⟩

end TokenParser

end QueryAid
