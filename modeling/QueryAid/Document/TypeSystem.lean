import QueryAid.Document.Grammar
/-!
# Type system definitions in documents

A document may hold definitions and extensions of schemas, types and directives. They cannot be executed, so
all that is kept of one is its name; but they are read with their whole grammar, because a mistake in one is
a mistake in the document.
-/

namespace QueryAid

namespace TokenParser

open Cursor

/-- The directives that stand here, all of them constant. Tells whether there are any. -/
def constantDirectives : TokenParser Bool := do
  let found ← Parser.look (atMark .atSign)
  let _ ← directives true nestingLimit
  return found

/-- One or more items with `separator` between them, and perhaps before them. -/
def separated (separator : Punctuator) (item : TokenParser Unit) : TokenParser Unit := do
  skip (atMark separator)
  item
  let _ ← Parser.many (atMark separator) do
    advance
    item

/-- Whether an item of a definition starts at the cursor. -/
def startsItem (c : Cursor) : Bool := c.atName || c.atString

/-- One or more items. -/
def items (fault : SyntaxFault) (item : TokenParser Unit) : TokenParser Unit := do
  require startsItem fault
  let _ ← Parser.many startsItem item

/-- One or more items in braces, if there is an opening brace. Tells whether there is. -/
def body (fault : SyntaxFault) (item : TokenParser Unit) : TokenParser Bool := do
  let found ← Parser.optional (atMark .leftBrace) do
    advance
    items fault item
    close .brace
  return found.isSome

/-- An argument or input field. -/
def inputValueDefinition : TokenParser Unit := do
  skip atString
  let _ ← name .name
  expect (atMark .colon) .name
  let _ ← typeRef
  let _ ← Parser.optional (atMark .equals) do
    advance
    value true nestingLimit
  let _ ← constantDirectives

/-- Argument definitions in parentheses, if there are any. -/
def argumentDefinitions : TokenParser Unit := do
  let _ ← Parser.optional (atMark .leftParen) do
    advance
    items .argumentDefinition inputValueDefinition
    close .parenthesis

/-- A field of an object or interface. -/
def fieldDefinition : TokenParser Unit := do
  skip atString
  let _ ← name .name
  argumentDefinitions
  expect (atMark .colon) .writtenType
  let _ ← typeRef
  let _ ← constantDirectives

/-- A value of an enum. Three words are not allowed. -/
def enumValueDefinition : TokenParser Unit := do
  skip atString
  require atName .enumValue
  require (fun c => !(["true", "false", "null"].contains c.token.text)) .reservedEnumValue
  advance
  let _ ← constantDirectives

/-- The fields of an object or interface. -/
def fieldDefinitions : TokenParser Bool := body .fieldDefinition fieldDefinition

/-- The values of an enum. -/
def enumValueDefinitions : TokenParser Bool := body .enumValueDefinition enumValueDefinition

/-- The fields of an input object. -/
def inputFieldDefinitions : TokenParser Bool := body .inputValueDefinition inputValueDefinition

/-- The interfaces that a type implements. Tells whether there are any. -/
def implementsInterfaces : TokenParser Bool := do
  let found ← Parser.optional (atWord "implements") do
    advance
    separated .amp do
      let _ ← name .interfaceName
  return found.isSome

/-- The members of a union. Tells whether there are any. -/
def unionMembers : TokenParser Bool := do
  let found ← Parser.optional (atMark .equals) do
    advance
    separated .pipe do
      let _ ← name .unionMember
  return found.isSome

/-- The root operations of a schema. Tells whether there are any. The type of one may be left out. -/
def rootOperations : TokenParser Bool := do
  let found ← Parser.many atName do
    require (fun c => ["query", "mutation", "subscription"].contains c.token.text) .rootOperationName
    advance
    expect (atMark .colon) .rootOperationColon
    skip atName
  return !found.isEmpty

/-! ### Definitions -/

/-- A description, the keyword and the name of a definition. -/
def definitionHead (keyword : String) (fault : SyntaxFault) : TokenParser Name := do
  skip atString
  skip (atWord keyword)
  name fault

/-- A schema definition; it has no name. -/
def schemaDefinition : TokenParser (Option Name) := do
  skip atString
  skip (atWord "schema")
  let _ ← constantDirectives
  let _ ← Parser.optional (atMark .leftBrace) do
    advance
    let found ← rootOperations
    require (fun _ => found) .rootOperation
    close .brace
  return none

/-- A scalar definition. -/
def scalarDefinition : TokenParser (Option Name) := do
  let n ← definitionHead "scalar" .name
  let _ ← constantDirectives
  return some n

/-- The definition of an object or interface. -/
def fieldsDefinition (keyword : String) (fault : SyntaxFault) : TokenParser (Option Name) := do
  let n ← definitionHead keyword fault
  let _ ← implementsInterfaces
  let _ ← constantDirectives
  let _ ← fieldDefinitions
  return some n

/-- A union definition. -/
def unionDefinition : TokenParser (Option Name) := do
  let n ← definitionHead "union" .name
  let _ ← constantDirectives
  let _ ← unionMembers
  return some n

/-- An enum definition. -/
def enumDefinition : TokenParser (Option Name) := do
  let n ← definitionHead "enum" .name
  let _ ← constantDirectives
  let _ ← enumValueDefinitions
  return some n

/-- The definition of an input object. -/
def inputObjectDefinition : TokenParser (Option Name) := do
  let n ← definitionHead "input" .name
  let _ ← constantDirectives
  let _ ← inputFieldDefinitions
  return some n

/-- One location of a directive definition. -/
def directiveLocation : TokenParser Unit := do
  require atName .directiveLocation
  require (fun c => (DirectiveLocation.ofText? c.token.text).isSome) .knownDirectiveLocation
  advance

/-- A directive definition. -/
def directiveDefinition : TokenParser (Option Name) := do
  skip atString
  skip (atWord "directive")
  expect (atMark .atSign) .atSign
  let n ← name .name
  argumentDefinitions
  skip (atWord "repeatable")
  expect (atWord "on") .directiveLocations
  require (fun c => c.atName || c.atMark .pipe) .knownDirectiveLocation
  separated .pipe directiveLocation
  return some n

/-! ### Extensions -/

/-- What follows the name in an extension: of the parts, of which none is compulsory, one must be there. -/
def extensionParts (fault : SyntaxFault) (parts : List (TokenParser Bool)) : TokenParser Unit := do
  let found ← parts.mapM id
  require (fun _ => found.any id) fault

/-- A schema extension; it has no name. -/
def schemaExtension : TokenParser (Option Name) := do
  extensionParts .schemaExtension
    [constantDirectives, do
      let found ← Parser.optional (atMark .leftBrace) do
        advance
        let found ← rootOperations
        close .brace
        return found
      return found.getD false]
  return none

/-- An extension of a type. -/
def typeExtension (fault : SyntaxFault) (parts : List (TokenParser Bool)) : TokenParser (Option Name) := do
  let n ← name .name
  extensionParts fault parts
  return some n

/-- What the keyword of an extension announces. -/
def extensionOf? : String → Option (TokenParser (Option Name))
  | "schema" => some schemaExtension
  | "scalar" => some (typeExtension .scalarExtension [constantDirectives])
  | "type" =>
    some (typeExtension .objectExtension [implementsInterfaces, constantDirectives, fieldDefinitions])
  | "interface" =>
    some (typeExtension .interfaceExtension [implementsInterfaces, constantDirectives, fieldDefinitions])
  | "union" => some (typeExtension .unionExtension [constantDirectives, unionMembers])
  | "enum" => some (typeExtension .enumExtension [constantDirectives, enumValueDefinitions])
  | "input" => some (typeExtension .inputExtension [constantDirectives, inputFieldDefinitions])
  | _ => none

/-- An extension. -/
def extension : TokenParser (Option Name) := do
  let next ← Parser.look Cursor.second?
  match next.bind fun t => extensionOf? t.text with
  | none => fail .extensionKeyword
  | some rest =>
    advance
    advance
    rest

end TokenParser

end QueryAid
