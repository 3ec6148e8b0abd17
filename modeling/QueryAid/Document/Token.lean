import QueryAid.Source.Span
/-!
# Tokens of documents

The tokens of executable documents, the faults a piece of source can have that keep it from being a token,
and the characters that names and numbers are made of.
-/

namespace QueryAid

/-- A character that a name may start with. -/
def isNameStart (c : Char) : Bool := c.isAlpha || c == '_'

/-- A character that a name may go on with. -/
def isNameContinue (c : Char) : Bool := c.isAlphanum || c == '_'

/-- The marks that are tokens by themselves. The comma is not among them: it only separates. -/
inductive Punctuator where
  | bang | dollar | amp | leftParen | rightParen | spread | colon | equals | atSign
  | leftBracket | rightBracket | leftBrace | pipe | rightBrace
  deriving DecidableEq, Repr

/-- **What keeps a piece of source from being a token.** -/
inductive LexicalFault where
  | unexpectedCharacter (c : Char)
  | unterminatedSpread
  | loneMinus
  | notADigit (c : Char)
  | leadingZero
  | numberEndsEarly
  | notAFractionDigit (c : Char)
  | notAnExponentDigit (c : Char)
  | notAnExponentStart (c : Char)
  | numberSuffix (c : Char) (float : Bool)
  | stringEndsAtOnce
  | unterminatedString
  | lineTerminatorInString
  | unknownEscape
  | incompleteUnicodeEscape
  | invalidUnicodeEscape
  | notAScalarValue
  | unpairedSurrogate
  deriving DecidableEq, Repr

/-- The wording of a lexical fault. -/
def LexicalFault.message : LexicalFault → String
  | .unexpectedCharacter c => s!"Unexpected character \"{c}\""
  | .unterminatedSpread => "Unterminated spread operator"
  | .loneMinus => "Unexpected character \"-\""
  | .notADigit c => s!"Unexpected character `{c}`"
  | .leadingZero => "Numbers must not have non-significant leading zeroes"
  | .numberEndsEarly => "Unexpected EOF in float value"
  | .notAFractionDigit c => s!"Unexpected character `{c}`, expected fractional digit"
  | .notAnExponentDigit c => s!"Unexpected character `{c}`, expected exponent digit"
  | .notAnExponentStart c => s!"Unexpected character `{c}`, expected exponent digit or sign"
  | .numberSuffix c true => s!"Unexpected character `{c}` as float suffix"
  | .numberSuffix c false => s!"Unexpected character `{c}` as integer suffix"
  | .stringEndsAtOnce => "unexpected end of data while lexing string value"
  | .unterminatedString => "unterminated string value"
  | .lineTerminatorInString => "unexpected line terminator"
  | .unknownEscape => "unexpected escaped character"
  | .incompleteUnicodeEscape => "incomplete unicode escape sequence"
  | .invalidUnicodeEscape => "invalid unicode escape sequence"
  | .notAScalarValue => "unicode escape sequence must specify a Unicode scalar value"
  | .unpairedSurrogate => "unpaired surrogate in unicode escape sequence"

/-- What a token is. -/
inductive TokenKind where
  | punctuator (p : Punctuator)
  | name
  | int
  | float
  | string
  | endOfInput
  /-- A piece of source that is not a token of the language. -/
  | invalid (fault : LexicalFault)
  deriving DecidableEq, Repr

/-- **A token and where it stands.** -/
structure Token where
  kind : TokenKind
  /-- The source text of the token; for a string, its quotes included. -/
  text : String
  span : Span
  /-- Whether a comma stands between this token and the next one that is not invalid. -/
  commaNext : Bool
  deriving DecidableEq, Repr

namespace Token

/-- Whether a token is the given mark. -/
def isMark (t : Token) (p : Punctuator) : Bool := t.kind == .punctuator p

/-- Whether a token is a name. -/
def isName (t : Token) : Bool := t.kind == .name

/-- Whether a token is the given word. -/
def isWord (t : Token) (word : String) : Bool := t.isName && t.text == word

/-- Whether a token is a string. -/
def isString (t : Token) : Bool := t.kind == .string

/-- Whether the source has ended. -/
def isEnd (t : Token) : Bool := t.kind == .endOfInput

/-- Whether a token is a piece of source that is none. -/
def isInvalid (t : Token) : Bool :=
  match t.kind with
  | .invalid _ => true
  | _ => false

/-- How a token is called where it was not expected. -/
def description (t : Token) : String :=
  match t.kind with
  | .endOfInput => "<EOF>"
  | .float => s!"Float \"{t.text}\""
  | .int => s!"Int \"{t.text}\""
  | .name => s!"Name \"{t.text}\""
  | .string => s!"String {t.text}"
  | .punctuator _ | .invalid _ => s!"\"{t.text}\""

end Token

end QueryAid
