import QueryAid.Text.CodePoint
import QueryAid.Document.Token
/-!
# Cutting a document into tokens

A source is cut into lexemes: tokens, runs of white space, comments, commas, and pieces that are none of
these. Every lexeme takes at least one character, and each scanner below says how many characters after
the first one belong to it; so the lexemes of a source, put together, are the source
(`lexemes_flatMap_text`).

A fault does not end a string: scanning goes on to the closing quote, and the last fault met is the one that
counts. A quote inside an escape sequence ends the string at once.
-/

namespace QueryAid

/-- What a piece of source is. -/
inductive LexemeClass where
  | token (kind : TokenKind)
  | whiteSpace
  | comment
  | comma
  deriving DecidableEq, Repr

/-- A piece of source, and the byte offset at which it starts. -/
structure Lexeme where
  cls : LexemeClass
  text : List Char
  start : Nat
  deriving DecidableEq, Repr

/-- What starts at a character, and how many characters after that one belong to it. -/
structure Scan where
  cls : LexemeClass
  extra : Nat
  deriving DecidableEq, Repr

namespace Scan

/-- A token of `extra + 1` characters. -/
def token (kind : TokenKind) (extra : Nat) : Scan := ⟨.token kind, extra⟩

/-- A piece of `extra + 1` characters that is no token. -/
def invalid (fault : LexicalFault) (extra : Nat) : Scan := ⟨.token (.invalid fault), extra⟩

/-! ### Numbers

The argument `n` counts the characters after the first one that are already known to belong to the number. -/

/-- How many digits a text starts with. -/
def digitCount (cs : List Char) : Nat := (cs.takeWhile Char.isDigit).length

/-- A number must not run into a name, and one with a fraction or an exponent not into a point either. -/
def numberSuffix (float : Bool) (n : Nat) (rest : List Char) : Scan :=
  match rest with
  | [] => token (if float then .float else .int) n
  | c :: _ =>
    if isNameStart c || (float && c == '.') then invalid (.numberSuffix c float) (n + 1)
    else token (if float then .float else .int) n

/-- The exponent, if there is one. -/
def exponent (float : Bool) (n : Nat) (rest : List Char) : Scan :=
  match rest with
  | [] => numberSuffix float n []
  | e :: more =>
    if e == 'e' || e == 'E' then
      match more with
      | [] => invalid .numberEndsEarly (n + 1)
      | s :: digits =>
        if s == '+' || s == '-' then
          match digits with
          | [] => invalid .numberEndsEarly (n + 2)
          | d :: _ =>
            if d.isDigit then
              numberSuffix true (n + 2 + digitCount digits) (digits.drop (digitCount digits))
            else invalid (.notAnExponentDigit d) (n + 3)
        else if s.isDigit then
          numberSuffix true (n + 1 + digitCount more) (more.drop (digitCount more))
        else invalid (.notAnExponentStart s) (n + 2)
    else numberSuffix float n rest

/-- The fraction, if there is one. -/
def fraction (n : Nat) (rest : List Char) : Scan :=
  match rest with
  | '.' :: digits =>
    match digits with
    | [] => invalid .numberEndsEarly (n + 1)
    | d :: _ =>
      if d.isDigit then
        exponent true (n + 1 + digitCount digits) (digits.drop (digitCount digits))
      else invalid (.notAFractionDigit d) (n + 2)
  | _ => exponent false n rest

/-- The digits before the point, of which `d` is the first. -/
def integerPart (n : Nat) (d : Char) (rest : List Char) : Scan :=
  if d == '0' then
    match rest with
    | [] => fraction n []
    | c :: _ => if c.isDigit then invalid .leadingZero (n + 1) else fraction n rest
  else fraction (n + digitCount rest) (rest.drop (digitCount rest))

/-- A number, which starts with a digit or a minus sign. -/
def number (c : Char) (rest : List Char) : Scan :=
  if c == '-' then
    match rest with
    | [] => invalid .loneMinus 0
    | d :: more => if d.isDigit then integerPart 1 d more else invalid (.notADigit d) 1
  else integerPart 0 c rest

/-! ### Strings -/

/-- Where in a quoted string the scanner stands. -/
inductive StringState where
  /-- Between characters; `first` directly after the opening quote, where a line terminator is let pass. -/
  | text (first : Bool)
  /-- After a backslash. -/
  | escape
  /-- In `\uXXXX`; `low` in the second of two, which must complete a pair. -/
  | hex (low : Bool) (value count : Nat)
  /-- In `\u{…}`. -/
  | braces (value : Nat) (empty : Bool)
  /-- After the first half of a pair, where a backslash must come. -/
  | pairBackslash
  /-- After that backslash, where a `u` must come. -/
  | pairLetter

/-- What a character does to the scanner: it goes on, perhaps with a fault, or the string ends here. -/
inductive StringStep where
  | go (state : StringState) (fault : Option LexicalFault)
  | stop (fault : Option LexicalFault)

/-- The characters that a backslash makes into another one. -/
def isSimpleEscape (c : Char) : Bool := ['"', '\\', '/', 'b', 'f', 'n', 'r', 't'].contains c

/-- The state after the fourth digit of `\uXXXX`. -/
def afterHex (low : Bool) (value : Nat) : StringStep :=
  if low then .go (.text false) (if isLowSurrogate value then none else some .unpairedSurrogate)
  else if isLowSurrogate value then .go (.text false) (some .unpairedSurrogate)
  else if isHighSurrogate value then .go .pairBackslash none
  else .go (.text false) none

/-- One character of a quoted string. -/
def stringStep (state : StringState) (c : Char) : StringStep :=
  match state with
  | .text first =>
    if c == '"' then .stop none
    else if c == '\\' then .go .escape none
    else if (c == '\r' || c == '\n') && !first then .go (.text false) (some .lineTerminatorInString)
    else .go (.text false) none
  | .escape =>
    if isSimpleEscape c then .go (.text false) none
    else if c == 'u' then .go (.hex false 0 0) none
    else .go (.text false) (some .unknownEscape)
  | .hex low value count =>
    if c == '"' then .stop (some .incompleteUnicodeEscape)
    else if c == '\x7b' && count == 0 && !low then .go (.braces 0 true) none
    else match hexDigit? c with
      | none => .go (.text false) (some .invalidUnicodeEscape)
      | some d =>
        if count == 3 then afterHex low (value * 16 + d)
        else .go (.hex low (value * 16 + d) (count + 1)) none
  | .braces value empty =>
    -- A quote ends the string even here.
    if c == '\x7d' then
      let scalar := !empty && value ≤ 0x10FFFF && !isHighSurrogate value && !isLowSurrogate value
      .go (.text false) (if scalar then none else some .notAScalarValue)
    else if c == '"' then .stop (some .incompleteUnicodeEscape)
    else match hexDigit? c with
      | none => .go (.text false) (some .invalidUnicodeEscape)
      | some d => .go (.braces (value * 16 + d) false) none
  | .pairBackslash =>
    if c == '"' then .stop (some .unpairedSurrogate)
    else if c == '\\' then .go .pairLetter none
    else .go (.text false) (some .unpairedSurrogate)
  | .pairLetter =>
    if c == 'u' then .go (.hex true 0 0) none
    else .go (.text false) (some .unpairedSurrogate)

/-- A quoted string from some state on; `n` characters after the opening quote are behind, and `fault` is
the last fault among them. -/
def quoted (state : StringState) (fault : Option LexicalFault) (n : Nat) : List Char → Scan
  | [] => invalid .unterminatedString n
  | c :: rest =>
    match stringStep state c with
    | .go state' none => quoted state' fault (n + 1) rest
    -- A fault is told when the string ends, and a later one takes the place of an earlier one.
    | .go state' (some f) => quoted state' (some f) (n + 1) rest
    | .stop (some f) => invalid f (n + 1)
    | .stop none =>
      match fault with
      | some f => invalid f (n + 1)
      | none => token .string (n + 1)

/-- Where in a block string the scanner stands. -/
inductive BlockState where
  /-- After this many quotes in a row. -/
  | quotes (count : Nat)
  /-- After a backslash, or several. -/
  | backslash
  /-- After a backslash and this many quotes, which are part of the text. -/
  | escapedQuotes (count : Nat)

/-- A block string from some state on; `n` characters after its very first quote are behind. -/
def block (state : BlockState) (n : Nat) : List Char → Scan
  | [] => invalid .unterminatedString n
  | c :: rest =>
    match state with
    | .quotes count =>
      if c == '"' then
        if count == 2 then token .string (n + 1) else block (.quotes (count + 1)) (n + 1) rest
      else if c == '\\' then block .backslash (n + 1) rest
      else block (.quotes 0) (n + 1) rest
    | .backslash =>
      if c == '\\' then block .backslash (n + 1) rest
      else if c == '"' then block (.escapedQuotes 1) (n + 1) rest
      else block (.quotes 0) (n + 1) rest
    | .escapedQuotes count =>
      -- The third quote completes the escape; what follows may be the end of the string again.
      if c == '"' then
        if count == 2 then block (.quotes 0) (n + 1) rest
        else block (.escapedQuotes (count + 1)) (n + 1) rest
      else if c == '\\' then block .backslash (n + 1) rest
      else block (.quotes 0) (n + 1) rest

/-- A string of either form; `rest` follows its first quote. -/
def string (rest : List Char) : Scan :=
  match rest with
  | [] => invalid .stringEndsAtOnce 0
  | '"' :: '"' :: more => block (.quotes 0) 2 more
  | '"' :: _ => token .string 1
  | _ => quoted (.text true) none 0 rest

/-! ### Everything else -/

/-- The mark that a character by itself is. -/
def mark? (c : Char) : Option Punctuator :=
  match c with
  | '!' => some .bang
  | '$' => some .dollar
  | '&' => some .amp
  | '(' => some .leftParen
  | ')' => some .rightParen
  | ':' => some .colon
  | '=' => some .equals
  | '@' => some .atSign
  | '[' => some .leftBracket
  | ']' => some .rightBracket
  | '\x7b' => some .leftBrace
  | '|' => some .pipe
  | '\x7d' => some .rightBrace
  | _ => none

/-- White space between tokens; the byte order mark counts. -/
def isSpace (c : Char) : Bool := ['\t', ' ', '\n', '\r', '\uFEFF'].contains c

/-- Three points. With fewer than three, the point and the character after it are no token. -/
def spread (rest : List Char) : Scan :=
  match rest with
  | '.' :: '.' :: _ => token (.punctuator .spread) 2
  | _ => invalid .unterminatedSpread (min 1 rest.length)

/-- The lexeme that starts with `c`, when `rest` follows. -/
def start (c : Char) (rest : List Char) : Scan :=
  match mark? c with
  | some p => token (.punctuator p) 0
  | none =>
    if c == ',' then ⟨.comma, 0⟩
    else if isNameStart c then token .name (rest.takeWhile isNameContinue).length
    else if isSpace c then ⟨.whiteSpace, (rest.takeWhile isSpace).length⟩
    else if c == '#' then ⟨.comment, (rest.takeWhile fun d => d != '\r' && d != '\n').length⟩
    else if c == '.' then spread rest
    else if c == '-' || c.isDigit then number c rest
    else if c == '"' then string rest
    else invalid (.unexpectedCharacter c) 0

end Scan

/-- The lexemes of a text that starts at a byte offset. -/
def lexemesFrom (offset : Nat) : List Char → List Lexeme
  | [] => []
  | c :: rest =>
    let scan := Scan.start c rest
    let text := c :: rest.take scan.extra
    ⟨scan.cls, text, offset⟩ :: lexemesFrom (offset + byteLength text) (rest.drop scan.extra)
termination_by cs => cs.length
decreasing_by simp only [List.length_drop, List.length_cons]; omega

/-- **The lexemes of a source.** -/
def lexemes (source : List Char) : List Lexeme := lexemesFrom 0 source

theorem lexemesFrom_flatMap_text (offset : Nat) (cs : List Char) :
    (lexemesFrom offset cs).flatMap Lexeme.text = cs := by
  fun_induction lexemesFrom offset cs with
  | case1 => rfl
  | case2 offset c rest scan text ih =>
    rw [List.flatMap_cons, ih]
    simp [text]

/-- **Nothing of a source is lost:** its lexemes put together are the source. -/
theorem lexemes_flatMap_text (source : List Char) :
    (lexemes source).flatMap Lexeme.text = source :=
  lexemesFrom_flatMap_text 0 source

/-! ### Tokens -/

/-- Whether a comma comes before the next token, where white space, comments and invalid pieces do not
count. -/
def commaFirst : List Lexeme → Bool
  | [] => false
  | l :: ls =>
    match l.cls with
    | .comma => true
    | .whiteSpace | .comment | .token (.invalid _) => commaFirst ls
    | .token _ => false

/-- The tokens among lexemes. -/
def significant : List Lexeme → List Token
  | [] => []
  | l :: ls =>
    match l.cls with
    | .token kind =>
      ⟨kind, String.ofList l.text, ⟨l.start, l.start + byteLength l.text⟩, commaFirst ls⟩ :: significant ls
    | .whiteSpace | .comment | .comma => significant ls

/-- **The tokens of a source**, invalid pieces among them; the end of the input is not listed. -/
def tokens (source : List Char) : List Token := significant (lexemes source)

/-- The token that stands for the end of a source. -/
def endToken (source : List Char) : Token :=
  ⟨.endOfInput, "", Span.emptyAt (byteLength source), false⟩

end QueryAid
