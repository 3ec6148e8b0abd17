import QueryAid.Document.Token
/-!
# Tokens of schemas

The tokens of the schema definition language and the places where they stand. A place is a line and a column,
both counted from one, and says where a definition is when it is reported.
-/

namespace QueryAid

namespace Sdl

/-- **A line and a column**, both counted from one. -/
structure Place where
  line : Nat
  column : Nat
  deriving DecidableEq, Repr, Inhabited

/-- What a token is. -/
inductive TokenKind where
  | punctuator (p : Punctuator)
  | name
  | int
  | float
  /-- A string in single quotation marks. -/
  | string
  /-- A string in triple quotation marks. -/
  | blockString
  | endOfInput
  /-- Something that is not a token; nothing after it is read. -/
  | unreadable
  deriving DecidableEq, Repr

/-- **A token and where it starts.** -/
structure Token where
  kind : TokenKind
  /-- The source text of the token. -/
  text : List Char
  place : Place
  deriving DecidableEq, Repr

namespace Token

/-- Whether a token is the given mark. -/
def isMark (t : Token) (p : Punctuator) : Bool := t.kind == .punctuator p

/-- Whether a token is a name. -/
def isName (t : Token) : Bool := t.kind == .name

/-- Whether a token is the given word. -/
def isWord (t : Token) (word : String) : Bool := t.isName && t.text == word.toList

/-- Whether a token is a string of either form. -/
def isString (t : Token) : Bool := t.kind == .string || t.kind == .blockString

/-- Whether the source has ended. -/
def isEnd (t : Token) : Bool := t.kind == .endOfInput

end Token

end Sdl

end QueryAid
