import QueryAid.Parsing
import QueryAid.Sdl.Basic
import QueryAid.Sdl.Lexer
/-!
# Reading schema sources

The grammar of the schema definition language. The error of a source that is refused is a place: the place of the
token that does not fit, or of the definition that is wrong as a whole.
-/

namespace QueryAid

namespace Sdl

/-- **A place among the tokens of a source.** -/
structure Cursor where
  /-- The token that comes next. -/
  token : Token
  /-- The tokens after it. -/
  ahead : List Token

instance : Unread Cursor := ⟨fun c => c.ahead.length⟩

namespace Cursor

/-- The cursor at the start of a source. -/
def ofSource (source : List Char) : Cursor :=
  match tokens source with
  | [] => ⟨⟨.endOfInput, [], ⟨1, 1⟩⟩, []⟩
  | t :: ts => ⟨t, ts⟩

/-- Whether the current token is the given mark. -/
def atMark (p : Punctuator) (c : Cursor) : Bool := c.token.isMark p

/-- Whether the current token is a name. -/
def atName (c : Cursor) : Bool := c.token.isName

/-- Whether the current token is the given word. -/
def atWord (word : String) (c : Cursor) : Bool := c.token.isWord word

/-- Whether the current token is a string. -/
def atString (c : Cursor) : Bool := c.token.isString

/-- Whether the source has ended. -/
def atEnd (c : Cursor) : Bool := c.token.isEnd

end Cursor

/-- Parsers of parts of schemas. -/
abbrev SchemaParser : Type → Type := Parser Cursor Place

namespace SchemaParser

open Sdl.Cursor

variable {α : Type}

/-- Fails at the current token. -/
def fail : SchemaParser α := Parser.failAt fun c => c.token.place

/-- Goes on to the next token. -/
def advance : SchemaParser Unit := fun c =>
  match c.ahead with
  | [] => .ok ((), c)
  | t :: ts => .ok ((), ⟨t, ts⟩)

/-- The place of the current token. -/
def place : SchemaParser Place := Parser.look fun c => c.token.place

/-- Reads a token that satisfies `test`. -/
def expect (test : Cursor → Bool) : SchemaParser Unit := fun c =>
  if test c then advance c else .error c.token.place

/-- Reads a token that is passed over if it is not there. -/
def skip (test : Cursor → Bool) : SchemaParser Unit := fun c =>
  if test c then advance c else .ok ((), c)

/-- Reads a name. -/
def name : SchemaParser String := do
  let t ← Parser.look Cursor.token
  expect atName
  return String.ofList t.text

/-! ### Values -/

/-- What a string token stands for. -/
def stringValue? (t : Token) : Option String :=
  if t.kind == .blockString then
    some (String.ofList (blockText ((t.text.drop 3).take (t.text.length - 6))))
  else (quotedText? ((t.text.drop 1).take (t.text.length - 2))).map String.ofList

/-- Reads a string. -/
def string : SchemaParser String := do
  let t ← Parser.look Cursor.token
  match stringValue? t with
  | none => fail
  | some s =>
    advance
    return s

/-- Reads a string if there is one. -/
def description : SchemaParser (Option String) := Parser.optional atString string

/-- The value of an integer, if it fits into 64 bits. -/
def intValue? (text : List Char) : Option Int :=
  let n : Int :=
    match text with
    | '-' :: ds => -(natOfDigits ds : Int)
    | ds => natOfDigits ds
  if -0x8000000000000000 ≤ n && n < 0x8000000000000000 then some n else none

/-- The number that the parts of a float stand for. -/
def floatValue (p : FloatParts) : Binary64 :=
  let digits := p.whole.filter Char.isDigit ++ p.fraction
  let exponent : Int :=
    match p.exponent with
    | '-' :: ds => -(natOfDigits ds : Int)
    | '+' :: ds => natOfDigits ds
    | ds => natOfDigits ds
  .ofDecimal (p.whole.head? == some '-') (natOfDigits digits) (exponent - p.fraction.length)

/-- What a name stands for where a value is expected. -/
def valueOfName (text : String) : Value :=
  match text with
  | "true" => .boolean true
  | "false" => .boolean false
  | "null" => .null
  | _ => .enum text

/-- Reads a name and a value after a colon. -/
def named (value : SchemaParser Value) : SchemaParser (String × Value) := do
  let n ← name
  expect (atMark .colon)
  return (n, ← value)

/-- Reads a value, with `item` for what is nested in it. -/
def valueWith (constant : Bool) (item : SchemaParser Value) : SchemaParser Value := do
  let t ← Parser.look Cursor.token
  match t.kind with
  | .punctuator .dollar =>
    if constant then fail
    else
      advance
      return .var (← name)
  | .int =>
    match intValue? t.text with
    | none => fail
    | some n =>
      advance
      return .int n
  | .float =>
    match floatParts? t.text with
    | none => fail
    | some p =>
      advance
      return .float (floatValue p)
  | .string | .blockString => return .string (← string)
  | .name =>
    advance
    return valueOfName (String.ofList t.text)
  | .punctuator .leftBracket =>
    advance
    let items ← Parser.many (fun c => !c.atMark .rightBracket) item
    expect (atMark .rightBracket)
    return .list items
  | .punctuator .leftBrace =>
    advance
    let fields ← Parser.many atName (named item)
    expect (atMark .rightBrace)
    return .ofFields fields
  | _ => fail

/-- Reads a value in which at most `room` brackets are nested; variables are refused in a constant one. -/
def value (constant : Bool) : Nat → Cursor → Except Place (Value × Cursor)
  | 0, c => valueWith constant fail c
  | room + 1, c => valueWith constant (fun c => value constant room c) c

/-! ### Types, directives and what has both -/

/-- Reads a list type, with `item` for the type in it. -/
def listType (item : SchemaParser TypeExpression) : SchemaParser TypeExpression := do
  expect (atMark .leftBracket)
  let inner ← item
  expect (atMark .rightBracket)
  return .list inner

/-- Reads a type, with `item` for the type in a list type. -/
def typeWith (item : SchemaParser TypeExpression) : SchemaParser TypeExpression := do
  let plain ← Parser.look atName
  let t ← if plain then TypeExpression.named <$> name else listType item
  let bang ← Parser.optional (atMark .bang) advance
  return if bang.isSome then .nonNull t else t

/-- Reads a type in which at most `room` brackets are nested. -/
def type : Nat → Cursor → Except Place (TypeExpression × Cursor)
  | 0, c => typeWith fail c
  | room + 1, c => typeWith (fun c => type room c) c

/-- Reads the directives that stand here. -/
def directives : SchemaParser (List DirectiveUse) :=
  Parser.many (atMark .atSign) do
    advance
    let n ← name
    let found ← Parser.optional (atMark .leftParen) do
      advance
      let found ← Parser.many1 atName (named (value false bracketLimit))
      expect (atMark .rightParen)
      return found
    return ⟨n, found.getD []⟩

/-- Reads one item or more between two marks, if the first mark is there. -/
def enclosed (opening closing : Punctuator) (item : SchemaParser α) : SchemaParser (Option (List α)) :=
  Parser.optional (atMark opening) do
    advance
    let found ← Parser.many1 (fun c => c.atName || c.atString) item
    expect (atMark closing)
    return found

/-- Reads an argument or input field. -/
def inputValue : SchemaParser InputValue := do
  let start ← place
  let about ← description
  let n ← name
  expect (atMark .colon)
  let t ← type bracketLimit
  let default ← Parser.optional (atMark .equals) do
    advance
    value true bracketLimit
  let uses ← directives
  return ⟨start, about, n, t, default, uses⟩

/-- Reads argument definitions in parentheses, if there are any. -/
def inputValues : SchemaParser (List InputValue) := do
  return (← enclosed .leftParen .rightParen inputValue).getD []

/-- Reads a field of an object or interface. -/
def field : SchemaParser Field := do
  let start ← place
  let about ← description
  let n ← name
  let args ← inputValues
  expect (atMark .colon)
  let t ← type bracketLimit
  let uses ← directives
  return ⟨start, about, n, args, t, uses⟩

/-- Reads a value of an enum. -/
def enumValue : SchemaParser EnumValue := do
  let start ← place
  let about ← description
  let n ← name
  let uses ← directives
  return ⟨start, about, n, uses⟩

/-- Reads one or more items with `separator` between them, and perhaps before them. -/
def separated (separator : Punctuator) (item : SchemaParser α) : SchemaParser (List α) := do
  skip (atMark separator)
  let first ← item
  let rest ← Parser.many (atMark separator) do
    advance
    item
  return first :: rest

/-- Reads the interfaces that a type implements. -/
def interfaces : SchemaParser (List String) := do
  let found ← Parser.optional (atWord "implements") do
    advance
    separated .amp name
  return found.getD []

/-! ### Definitions -/

/-- What follows the keyword of a type definition or extension. -/
structure TypeParts where
  name : String
  body : TypeBody
  /-- Whether the parts are enough for an extension. -/
  extending : Bool

/-- Reads what follows a keyword that announces an object or interface; `counts` tells whether interfaces alone
are enough for an extension. -/
def fieldsParts (counts : Bool) (body : List String → List Field → TypeBody) : SchemaParser TypeParts := do
  let n ← name
  let implemented ← interfaces
  let uses ← directives
  let found ← enclosed .leftBrace .rightBrace field
  return ⟨n, body implemented (found.getD []),
    !uses.isEmpty || found.isSome || counts && !implemented.isEmpty⟩

/-- Reads what follows the keyword of a type definition or extension. -/
def typeParts (keyword : String) : SchemaParser TypeParts :=
  match keyword with
  | "scalar" => do
    let n ← name
    let uses ← directives
    return ⟨n, .scalar, !uses.isEmpty⟩
  | "type" => fieldsParts true .object
  | "interface" => fieldsParts false .interface
  | "union" => do
    let n ← name
    let uses ← directives
    let members ← Parser.optional (atMark .equals) do
      advance
      separated .pipe name
    return ⟨n, .union (members.getD []), !uses.isEmpty || members.isSome⟩
  | "enum" => do
    let n ← name
    let uses ← directives
    let found ← enclosed .leftBrace .rightBrace enumValue
    return ⟨n, .enum (found.getD []), !uses.isEmpty || found.isSome⟩
  | "input" => do
    let n ← name
    let uses ← directives
    let found ← enclosed .leftBrace .rightBrace inputValue
    return ⟨n, .inputObject (found.getD []), !uses.isEmpty || found.isSome⟩
  | _ => fail

/-- Reads a keyword and what follows it. -/
def keywordAndParts : SchemaParser TypeParts := do
  let t ← Parser.look Cursor.token
  let keyword := String.ofList t.text
  if t.isName && ["scalar", "type", "interface", "union", "enum", "input"].contains keyword then
    advance
    typeParts keyword
  else fail

/-- Reads the definition of a type. -/
def typeDefinition (about : Option String) : SchemaParser Definition := do
  let start ← place
  let parts ← keywordAndParts
  return .type ⟨start, about, parts.name, parts.body⟩

/-- Reads an extension of a type; it must say something. -/
def typeExtension : SchemaParser Definition := do
  advance
  let start ← place
  let parts ← keywordAndParts
  if parts.extending then return .extension ⟨start, parts.name, parts.body⟩
  else Parser.failAt fun _ => start

/-- Reads a location of a directive definition. -/
def directiveLocation : SchemaParser DirectiveLocation := do
  let t ← Parser.look Cursor.token
  match DirectiveLocation.ofText? (String.ofList t.text) with
  | none => fail
  | some l =>
    expect atName
    return l

/-- Reads the definition of a directive. The locations may be missing. -/
def directiveDefinition (about : Option String) : SchemaParser Definition := do
  let start ← place
  advance
  expect (atMark .atSign)
  let n ← name
  let args ← inputValues
  let repeatable ← Parser.optional (atWord "repeatable") advance
  expect (atWord "on")
  let locations ← Parser.optional (fun c => c.atMark .pipe || c.atName) (separated .pipe directiveLocation)
  return .directive ⟨start, about, n, args, repeatable.isSome, locations.getD []⟩

/-- Reads the root of an operation: the operation and the type. -/
def root : SchemaParser (String × String) := do
  let operation ← name
  expect (atMark .colon)
  return (operation, ← name)

/-- The type that is named for an operation. -/
def rootOf? (roots : List (String × String)) (operation : String) : Option String :=
  (roots.find? fun r => r.1 == operation).map Prod.snd

/-- Reads a schema block. It is wrong as a whole if it names an operation twice, or one that does not exist. -/
def schemaBlock : SchemaParser Definition := do
  let start ← place
  advance
  let _ ← directives
  expect (atMark .leftBrace)
  let roots ← Parser.many atName root
  expect (atMark .rightBrace)
  let operations := roots.map Prod.fst
  if operations.all (["query", "mutation", "subscription"].contains ·) && decide operations.Nodup then
    return .schema ⟨start, rootOf? roots "query", rootOf? roots "mutation", rootOf? roots "subscription"⟩
  else Parser.failAt fun _ => start

/-- Reads one definition or extension. -/
def definition : SchemaParser Definition := do
  let t ← Parser.look Cursor.token
  if t.isWord "schema" then schemaBlock
  else if t.isWord "extend" then typeExtension
  else do
    let about ← description
    let directive ← Parser.look (atWord "directive")
    if directive then directiveDefinition about else typeDefinition about

/-- Reads all of a source, which holds at least one definition. -/
def definitions : SchemaParser (List Definition) := Parser.many1 (fun c => !c.atEnd) definition

end SchemaParser

/-- **The definitions in a source**, or the place at which it is wrong. -/
def parse (source : List Char) : Except Place (List Definition) :=
  (SchemaParser.definitions (Cursor.ofSource source)).map Prod.fst

end Sdl

end QueryAid
