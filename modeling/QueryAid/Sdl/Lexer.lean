import QueryAid.Sdl.Token
import QueryAid.Sdl.Number
/-!
# Cutting a schema into tokens

Columns count characters, with three exceptions: a tab is eight wide, a carriage return or byte order mark has no
width, and a comment moves nothing but the line it ends. At most fifty brackets may be open at a time.
-/

namespace QueryAid

namespace Sdl

/-- How many brackets may be open at a time. -/
def bracketLimit : Nat := 50

/-! ### Places -/

/-- The place after some text between tokens. `comment` says whether the text starts inside a comment. -/
def placeAfterBlank (comment : Bool) (place : Place) : List Char → Place
  | [] => place
  | c :: cs =>
    if comment then
      if c == '\r' || c == '\n' then placeAfterBlank false ⟨place.line + 1, 1⟩ cs
      else placeAfterBlank true place cs
    else if c == '#' then placeAfterBlank true place cs
    else if c == '\n' then placeAfterBlank false ⟨place.line + 1, 1⟩ cs
    else if c == '\t' then placeAfterBlank false ⟨place.line, place.column + 8⟩ cs
    else if c == '\r' || c == '\uFEFF' then placeAfterBlank false place cs
    else placeAfterBlank false ⟨place.line, place.column + 1⟩ cs

/-- The place after a token. -/
def placeAfterToken (place : Place) : List Char → Place
  | [] => place
  | c :: cs =>
    placeAfterToken (if c == '\n' then ⟨place.line + 1, 1⟩ else ⟨place.line, place.column + 1⟩) cs

/-- The blanks, line ends, commas and comments at the front of a text, and the rest. -/
def spanBlank (comment : Bool) : List Char → List Char × List Char
  | [] => ([], [])
  | c :: cs =>
    if comment then
      let (blank, rest) := spanBlank (c != '\r' && c != '\n') cs
      (c :: blank, rest)
    else if [' ', ',', '\t', '\n', '\r', '\uFEFF', '#'].contains c then
      let (blank, rest) := spanBlank (c == '#') cs
      (c :: blank, rest)
    else ([], c :: cs)

/-! ### Tokens -/

/-- How many characters after the opening quote belong to a string, its closing quote included. A string
does not reach over the end of a line. -/
def stringLength? (escaped : Bool) : List Char → Option Nat
  | [] => none
  | c :: cs =>
    if c == '"' && !escaped then some 1
    else if c == '\n' then none
    else (stringLength? (!escaped && c == '\\') cs).map (· + 1)

/-- How many characters after the three opening quotes belong to a block string, its closing quotes included.
Three quotes after a backslash do not close it; `escaped` tells whether a backslash is directly before. -/
def blockStringLength? (escaped : Bool) : List Char → Option Nat
  | [] => none
  | '"' :: '"' :: '"' :: cs =>
    if escaped then (blockStringLength? false cs).map (· + 3) else some 3
  | c :: cs => (blockStringLength? (c == '\\') cs).map (· + 1)

/-- The mark that a character by itself is. -/
def mark? (c : Char) : Option Punctuator :=
  match c with
  | '!' => some .bang
  | '$' => some .dollar
  | '&' => some .amp
  | '(' => some .leftParen
  | ')' => some .rightParen
  | ':' => some .colon
  | '=' => some .equals
  | '@' => some .atSign
  | '[' => some .leftBracket
  | ']' => some .rightBracket
  | '\x7b' => some .leftBrace
  | '|' => some .pipe
  | '\x7d' => some .rightBrace
  | _ => none

/-- The kind of a number. -/
def numberKind (cs : List Char) : TokenKind :=
  if cs.any fun c => c == '.' || c == 'e' || c == 'E' then
    if (floatParts? cs).isSome then .float else .unreadable
  else if isInteger cs then .int
  else .unreadable

/-- What starts with `c` when `rest` follows, and how many characters of `rest` belong to it. -/
def scan (c : Char) (rest : List Char) : TokenKind × Nat :=
  match mark? c with
  | some p => (.punctuator p, 0)
  | none =>
    if isNameStart c then (.name, (rest.takeWhile isNameContinue).length)
    else if c == '-' || c.isDigit then
      let body := rest.takeWhile fun d => !endsNumber d
      (numberKind (c :: body), body.length)
    else if c == '.' then
      match rest with
      | '.' :: '.' :: _ => (.punctuator .spread, 2)
      | _ => (.unreadable, 0)
    else if c == '"' then
      match rest with
      | '"' :: '"' :: body =>
        match blockStringLength? false body with
        | some n => (.blockString, n + 2)
        | none => (.unreadable, 0)
      | _ =>
        match stringLength? false rest with
        | some n => (.string, n)
        | none => (.unreadable, 0)
    else (.unreadable, 0)

/-- Whether a mark opens a bracket. -/
def opens (k : TokenKind) : Bool :=
  [.punctuator .leftParen, .punctuator .leftBracket, .punctuator .leftBrace].contains k

/-- Whether a mark closes a bracket. -/
def closes (k : TokenKind) : Bool :=
  [.punctuator .rightParen, .punctuator .rightBracket, .punctuator .rightBrace].contains k

theorem spanBlank_snd_length_le (comment : Bool) (cs : List Char) :
    (spanBlank comment cs).2.length ≤ cs.length := by
  induction cs generalizing comment with
  | nil => simp [spanBlank]
  | cons c cs ih =>
    simp only [spanBlank]
    split
    · exact Nat.le_succ_of_le (ih _)
    · split
      · exact Nat.le_succ_of_le (ih _)
      · simp

/-- The tokens of a text that starts at a place, with `room` more brackets allowed. The last token is the end
of the input, or the first piece that cannot be read. -/
def tokensFrom (room : Nat) (place : Place) (cs : List Char) : List Token :=
  let blank := spanBlank false cs
  let place := placeAfterBlank false place blank.1
  match _h : blank.2 with
  | [] => [⟨.endOfInput, [], place⟩]
  | c :: rest =>
    let (kind, extra) := scan c rest
    if kind == .unreadable || (opens kind && room == 0) then [⟨.unreadable, [], place⟩]
    else
      let text := c :: rest.take extra
      let room := if opens kind then room - 1 else if closes kind then room + 1 else room
      ⟨kind, text, place⟩ :: tokensFrom room (placeAfterToken place text) (rest.drop extra)
termination_by cs.length
decreasing_by
  have := spanBlank_snd_length_le false cs
  simp only [blank] at _h
  rw [_h] at this
  simp only [List.length_drop, List.length_cons] at this ⊢
  omega

/-- **The tokens of a schema source.** -/
def tokens (source : List Char) : List Token := tokensFrom bracketLimit ⟨1, 1⟩ source

end Sdl

end QueryAid
