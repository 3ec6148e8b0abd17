import QueryAid.Text.WhiteSpace
import QueryAid.Text.CodePoint
import QueryAid.Source.Span
/-!
# Strings in schemas

What the text between the quotation marks of a string stands for, and how a string is written.
-/

namespace QueryAid

namespace Sdl

/-! ### Strings in single quotation marks -/

/-- The character that a backslash makes of another one. -/
def simpleEscape? (c : Char) : Option Char :=
  match c with
  | '"' | '\\' | '/' => some c
  | 'b' => some '\x10'
  | 'f' => some '\x0c'
  | 'n' => some '\n'
  | 'r' => some '\r'
  | 't' => some '\t'
  | _ => none

/-- The number that hexadecimal digits stand for. -/
def hexNumber? (cs : List Char) : Option Nat :=
  cs.foldlM (fun n c => (hexDigit? c).map fun d => n * 16 + d) 0

/-- The character that the four characters of an escape stand for. The first may be a plus sign. -/
def fourDigits? (a b c d : Char) : Option Char := do
  let n ← hexNumber? (if a == '+' then [b, c, d] else [a, b, c, d])
  if isHighSurrogate n || isLowSurrogate n then none else some (Char.ofNat n)

/-- What the text between single quotation marks stands for. -/
def quotedText? : List Char → Option (List Char)
  | [] => some []
  | '\\' :: 'u' :: a :: b :: c :: d :: cs => do
    let x ← fourDigits? a b c d
    return x :: (← quotedText? cs)
  | '\\' :: e :: cs => do
    let x ← simpleEscape? e
    return x :: (← quotedText? cs)
  | ['\\'] => none
  | c :: cs => do return c :: (← quotedText? cs)

/-! ### Strings in triple quotation marks -/

/-- The lines of a text. A carriage return before a line feed belongs to the line's end, and a line end at
the end of the text starts no further line. -/
def textLines : List Char → List (List Char)
  | [] => []
  | '\n' :: cs => [] :: textLines cs
  | '\r' :: '\n' :: cs => [] :: textLines cs
  | c :: cs =>
    match textLines cs with
    | [] => [[c]]
    | l :: ls => (c :: l) :: ls

/-- How many bytes of white space a line starts with. -/
def indentOf (line : List Char) : Nat := byteLength (line.takeWhile isWhite)

/-- The least indent of the lines that are not blank. -/
def commonIndent (lines : List (List Char)) : Nat :=
  ((lines.filter fun l => !isBlank l).map indentOf).min?.getD 0

/-- A line without the given indent, if it is long enough. -/
def unindent (indent : Nat) (line : List Char) : List Char :=
  if indent ≤ byteLength line then dropBytes indent line else line

/-- Three quotes for each backslash that has three quotes behind it. -/
def unescapeQuotes : List Char → List Char
  | '\\' :: '"' :: '"' :: '"' :: cs => '"' :: '"' :: '"' :: unescapeQuotes cs
  | c :: cs => c :: unescapeQuotes cs
  | [] => []

/-- Lines without the blank ones at the two ends. -/
def trimBlankLines (lines : List (List Char)) : List (List Char) :=
  ((lines.dropWhile isBlank).reverse.dropWhile isBlank).reverse

/-- Lines with line feeds between them. -/
def joinLines (lines : List (List Char)) : List Char := List.intercalate ['\n'] lines

/-- What the text between triple quotation marks stands for: its lines, without the indent that all but the
first one share, and without the blank lines at the two ends. -/
def blockText (cs : List Char) : List Char :=
  match textLines cs with
  | [] => []
  | first :: rest =>
    -- The first line starts behind the quotation marks, so that its indent says nothing.
    let rest := rest.map (unindent (commonIndent rest))
    joinLines ((trimBlankLines (first :: rest)).map unescapeQuotes)

/-! ### Writing strings -/

/-- Whether a string can be written in triple quotation marks. -/
def fitsBlock (c : Char) : Bool :=
  c == '\r' || c == '\n' || c == '\t' || (' ' ≤ c && c ≤ '\uFFFF')

/-- A natural number in decimal, with at least four digits. -/
def fourDecimals (n : Nat) : List Char :=
  let ds := Nat.toDigits 10 n
  List.replicate (4 - ds.length) '0' ++ ds

/-- How a character is written between single quotation marks. -/
def writtenChar (c : Char) : List Char :=
  match c with
  | '\r' => ['\\', 'r']
  | '\n' => ['\\', 'n']
  | '\t' => ['\\', 't']
  | '"' => ['\\', '"']
  | '\\' => ['\\', '\\']
  | _ => if ' ' ≤ c && c ≤ '\uFFFF' then [c] else '\\' :: 'u' :: fourDecimals c.toNat

/-- A backslash before each three quotes. -/
def escapeQuotes : List Char → List Char
  | '"' :: '"' :: '"' :: cs => '\\' :: '"' :: '"' :: '"' :: escapeQuotes cs
  | c :: cs => c :: escapeQuotes cs
  | [] => []

/-- A line of a string in triple quotation marks. -/
def writtenLine (line : List Char) : List Char :=
  if isBlank line then ['\n'] else ' ' :: ' ' :: escapeQuotes line ++ ['\n']

/-- **How a string is written:** in triple quotation marks if it has more than one line. -/
def writtenString (s : String) : String :=
  let cs := s.toList
  if cs.contains '\n' && cs.all fitsBlock then
    "\"\"\"\n" ++ String.ofList ((textLines cs).flatMap writtenLine) ++ "\"\"\""
  else "\"" ++ String.ofList (cs.flatMap writtenChar) ++ "\""

end Sdl

end QueryAid
