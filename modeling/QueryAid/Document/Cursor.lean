import QueryAid.Parsing
import QueryAid.Document.Basic
import QueryAid.Document.SyntaxError
import QueryAid.Document.Lexer
/-!
# Reading tokens

A cursor stands on a token, never on an invalid one: going on to a piece of source that is no token is the
error. The grammar of documents is written with the moves of this module.
-/

namespace QueryAid

/-- **A place among the tokens of a source.** -/
structure Cursor where
  /-- The token that comes next. -/
  token : Token
  /-- The tokens after it. -/
  ahead : List Token
  /-- Where the last token that was read ends. -/
  readTo : Nat

instance : Unread Cursor := ⟨fun c => c.ahead.length⟩

/-- Parsers of parts of documents. -/
abbrev TokenParser : Type → Type := Parser Cursor SyntaxError

namespace Cursor

/-- The cursor on a token, unless that is an invalid piece of source. -/
def onto (readTo : Nat) (t : Token) (ahead : List Token) : Except SyntaxError Cursor :=
  match t.kind with
  | .invalid fault => .error ⟨.lexical fault, t⟩
  | _ => .ok ⟨t, ahead, readTo⟩

/-- The cursor at the start of a source. -/
def ofSource (source : List Char) : Except SyntaxError Cursor :=
  match tokens source with
  | [] => onto 0 (endToken source) []
  | t :: ts => onto 0 t (ts ++ [endToken source])

/-- The token after the current one, if no comma stands between the two. Invalid pieces are passed over. -/
def second? (c : Cursor) : Option Token :=
  if c.token.commaNext then none else c.ahead.find? fun t => !t.isInvalid

/-- Whether the current token is the given mark. -/
def atMark (p : Punctuator) (c : Cursor) : Bool := c.token.isMark p

/-- Whether the current token is a name. -/
def atName (c : Cursor) : Bool := c.token.isName

/-- Whether the current token is the given word. -/
def atWord (word : String) (c : Cursor) : Bool := c.token.isWord word

/-- Whether the current token is a string. -/
def atString (c : Cursor) : Bool := c.token.isString

/-- Whether the source has ended. -/
def atEnd (c : Cursor) : Bool := c.token.isEnd

end Cursor

namespace TokenParser

variable {α : Type}

/-- Fails at the current token. -/
def fail (fault : SyntaxFault) : TokenParser α := Parser.failAt fun c => ⟨fault, c.token⟩

/-- Goes on to the next token. -/
def advance : TokenParser Unit := fun c =>
  match c.ahead with
  | [] => .ok ((), c)
  | t :: ts => (Cursor.onto c.token.span.stop t ts).map ((), ·)

/-- Fails unless the cursor satisfies `test`. -/
def require (test : Cursor → Bool) (fault : SyntaxFault) : TokenParser Unit := fun c =>
  if test c then .ok ((), c) else .error ⟨fault, c.token⟩

/-- Reads a token that satisfies `test`. -/
def expect (test : Cursor → Bool) (fault : SyntaxFault) : TokenParser Unit := do
  require test fault
  advance

/-- Reads the mark that closes what was opened. -/
def close (closer : Closer) : TokenParser Unit := expect (Cursor.atMark closer.mark) (.unclosed closer)

/-- Reads a token that is passed over if it is not there. -/
def skip (test : Cursor → Bool) : TokenParser Unit := fun c =>
  if test c then advance c else .ok ((), c)

/-- Reads a name. -/
def name (fault : SyntaxFault) : TokenParser Name := fun c =>
  if c.atName then
    match advance c with
    | .error e => .error e
    | .ok (_, c') => .ok (⟨c.token.text, c.token.span⟩, c')
  else .error ⟨fault, c.token⟩

/-- Reads a construct that knows its own span: from the start of its first token to the end of its last. -/
def spanned (p : TokenParser (Span → α)) : TokenParser α := fun c =>
  match p c with
  | .error e => .error e
  | .ok (f, c') => .ok (f ⟨c.token.span.start, c'.readTo⟩, c')

end TokenParser

end QueryAid
