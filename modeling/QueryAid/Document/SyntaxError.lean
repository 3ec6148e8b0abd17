import QueryAid.Document.Token
/-!
# Syntax errors of documents

The first thing wrong with a source: why it is wrong, and the token at which that shows.
-/

namespace QueryAid

/-- The marks that close what another one opened. -/
inductive Closer where
  | parenthesis | bracket | brace
  deriving DecidableEq, Repr

namespace Closer

/-- The closing mark. -/
def mark : Closer → Punctuator
  | parenthesis => .rightParen
  | bracket => .rightBracket
  | brace => .rightBrace

/-- What a closing mark is called in messages. -/
def label : Closer → String
  | parenthesis => "R_PAREN"
  | bracket => "R_BRACK"
  | brace => "R_CURLY"

end Closer

/-- **Why a source is not a document.** Apart from the first three, each names what the grammar asks for at
a place where something else stands. -/
inductive SyntaxFault where
  | lexical (fault : LexicalFault)
  /-- Selection sets, list types, list values and object values are nested too deeply. -/
  | nesting
  | unclosed (closer : Closer)
  | emptyDocument
  | definitionStart
  | definition
  | operationType
  | operationSelections
  | inlineSelections
  | selection
  | fragmentForm
  | variableDefinition
  | variableInConstant
  | name
  | type
  | writtenType
  | itemType
  | argument
  | value
  | onKeyword
  | conditionName
  | fragmentName
  | fragmentNamedOn
  | typeName
  | interfaceName
  | unionMember
  | argumentDefinition
  | fieldDefinition
  | inputValueDefinition
  | enumValueDefinition
  | enumValue
  | reservedEnumValue
  | rootOperation
  | rootOperationName
  | rootOperationColon
  | atSign
  | directiveLocations
  | directiveLocation
  | knownDirectiveLocation
  | extensionKeyword
  | schemaExtension
  | scalarExtension
  | objectExtension
  | interfaceExtension
  | unionExtension
  | enumExtension
  | inputExtension
  deriving DecidableEq, Repr

/-- The wording of a fault that shows at the token `found`. -/
def SyntaxFault.reason (found : Token) : SyntaxFault → String
  | lexical fault => fault.message
  | nesting => "parser recursion limit reached"
  | unclosed closer =>
    "expected " ++ closer.label ++ ", got " ++ (if found.isEnd then "EOF" else found.text)
  | emptyDocument => "Unexpected <EOF>."
  | definitionStart => "expected a StringValue, Name or OperationDefinition"
  | definition => "expected definition"
  | operationType => "expected an Operation Type or a Selection Set"
  | operationSelections => "expected a Selection Set"
  | inlineSelections => "expected Selection Set"
  | selection => "expected at least one Selection in Selection Set"
  | fragmentForm => "expected an Inline Fragment or a Fragment Spread"
  | variableDefinition => "expected a Variable Definition"
  | variableInConstant => "unexpected variable value in a Const context"
  | name => "expected a Name"
  | type => "expected a Type"
  | writtenType => "expected a type"
  | itemType => "expected item type"
  | argument => "expected an Argument"
  | value => "expected a valid Value"
  | onKeyword => "expected 'on'"
  | conditionName => "expected a Name in Type Condition"
  | fragmentName => "expected Fragment Name"
  | fragmentNamedOn => "Fragment Name cannot be 'on'"
  | typeName => "expected a name"
  | interfaceName => "expected an Interface name"
  | unionMember => "expected Union Member Type"
  | argumentDefinition => "expected an Argument Definition"
  | fieldDefinition => "expected Field Definition"
  | inputValueDefinition => "expected an Input Value Definition"
  | enumValueDefinition => "expected Enum Value Definition"
  | enumValue => "expected Enum Value"
  | reservedEnumValue => "invalid Enum Value"
  | rootOperation => "expected Root Operation Type Definition"
  | rootOperationName => "expected either a 'mutation', a 'query', or a 'subscription'"
  | rootOperationColon => "expected a Name Type"
  | atSign => "expected @ symbol"
  | directiveLocations => "expected Directive Locations"
  | directiveLocation => "expected Directive Location"
  | knownDirectiveLocation => "expected valid Directive Location"
  | extensionKeyword => "Invalid Type System Extension. This extension cannot be applied."
  | schemaExtension => "expected directives or Root Operation Type Definition"
  | scalarExtension => "expected Directives"
  | objectExtension => "expected an Implements Interface, Directives or a Fields Definition"
  | interfaceExtension => "exptected an Implements Interfaces, Directives, or a Fields Definition"
  | unionExtension => "expected Directives or Union Member Types"
  | enumExtension => "expected Directive or Enum Values Definition"
  | inputExtension => "expected Directives or an Input Fields Definition"

/-- **The first thing wrong with a source**, and the token at which it shows. -/
structure SyntaxError where
  fault : SyntaxFault
  found : Token
  deriving DecidableEq, Repr

namespace SyntaxError

/-- Why the source is wrong. -/
def reason (e : SyntaxError) : String := e.fault.reason e.found

/-- What stands where something else was expected. -/
def unexpected (e : SyntaxError) : String := e.found.description

/-- The span of the token that shows the error; empty at the end of the source. -/
def span (e : SyntaxError) : Span := e.found.span

/-- The wording of the error. -/
def message (e : SyntaxError) : String :=
  "Syntax Error: Unexpected " ++ e.unexpected ++ " (" ++ e.reason ++ ")"

end SyntaxError

end QueryAid
