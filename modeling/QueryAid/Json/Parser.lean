import QueryAid.Parsing
import QueryAid.Json.Basic
import QueryAid.Text.CodePoint
/-!
# Reading JSON

The strict grammar: no comments, no trailing commas, no leading zeros, no control characters in strings. An
escape may name one half of a UTF-16 pair; only together with the other half it is part of a text.
-/

namespace QueryAid

/-- Parsers of texts, whose errors say nothing. -/
abbrev TextParser : Type → Type := Parser (List Char) Unit

namespace TextParser

variable {α : Type}

/-- Fails. -/
def fail : TextParser α := Parser.failAt fun _ => ()

/-- Whether a text starts with the given character. -/
def startsWith (c : Char) (cs : List Char) : Bool := cs.head? == some c

/-- Reads a character that satisfies `test`. -/
def charWhere (test : Char → Bool) : TextParser Char
  | c :: cs => if test c then .ok (c, cs) else .error ()
  | [] => .error ()

/-- Reads the given character. -/
def char (c : Char) : TextParser Unit := do
  let _ ← charWhere fun d => d == c

/-- Reads the longest run of characters that satisfy `test`. -/
def run (test : Char → Bool) : TextParser (List Char) := fun cs => .ok (cs.takeWhile test, cs.dropWhile test)

/-- Reads the given characters. -/
def word : List Char → TextParser Unit
  | [] => pure ()
  | c :: cs => do
    char c
    word cs

/-- Passes over white space: blank, tab, line feed and carriage return. -/
def space : TextParser Unit := do
  let _ ← run fun c => c == ' ' || c == '\t' || c == '\n' || c == '\r'

/-- Reads at least one digit. -/
def digits : TextParser (List Char) := do
  let d ← charWhere Char.isDigit
  let ds ← run Char.isDigit
  return d :: ds

/-- Reads a number. -/
def number : TextParser String := do
  let minus ← Parser.optional (startsWith '-') (char '-')
  let zero ← Parser.optional (startsWith '0') (char '0')
  let whole ← if zero.isSome then pure ['0'] else digits
  let fraction ← Parser.optional (startsWith '.') do
    char '.'
    digits
  let exponent ← Parser.optional (fun cs => startsWith 'e' cs || startsWith 'E' cs) do
    let e ← charWhere fun _ => true
    let sign ← Parser.optional (fun cs => startsWith '+' cs || startsWith '-' cs) (charWhere fun _ => true)
    let ds ← digits
    return e :: sign.toList ++ ds
  return String.ofList
    ((if minus.isSome then ['-'] else []) ++ whole ++ (fraction.map fun ds => '.' :: ds).getD []
      ++ exponent.getD [])

/-- The code point that the character after a backslash stands for. -/
def escaped? (c : Char) : Option Nat :=
  match c with
  | '"' | '\\' | '/' => some c.toNat
  | 'b' => some 0x08
  | 'f' => some 0x0C
  | 'n' => some 0x0A
  | 'r' => some 0x0D
  | 't' => some 0x09
  | _ => none

/-- The code point that four hexadecimal digits stand for. -/
def hex4? (a b c d : Char) : Option Nat := do
  return (((← hexDigit? a) * 16 + (← hexDigit? b)) * 16 + (← hexDigit? c)) * 16 + (← hexDigit? d)

/-- Puts what was read before the rest of a reading. -/
def precede (a : Option α) (rest : Except Unit (List α × List Char)) : Except Unit (List α × List Char) :=
  match a, rest with
  | some a, .ok (as, cs) => .ok (a :: as, cs)
  | _, _ => .error ()

/-- Reads a string from behind its opening quote to its closing one, and gives its code points. -/
def stringRest : TextParser (List Nat)
  | [] => .error ()
  | c :: cs =>
    if c == '"' then .ok ([], cs)
    else if c == '\\' then
      match cs with
      | 'u' :: h₁ :: h₂ :: h₃ :: h₄ :: cs => precede (hex4? h₁ h₂ h₃ h₄) (stringRest cs)
      | e :: cs => precede (escaped? e) (stringRest cs)
      | [] => .error ()
    else precede (if c.toNat < 0x20 then none else some c.toNat) (stringRest cs)

/-- Reads a string, and gives its text if it has one. -/
def string : TextParser (Option String) := do
  char '"'
  return (textOfCodePoints? (← stringRest)).map String.ofList

/-- Reads at most so many more items, each with a comma in front of it, and the character that closes the
list. -/
def listRest (closing : Char) (item : TextParser α) : Nat → TextParser (List α)
  | 0 => do
    char closing
    return []
  | room + 1 => do
    if ← Parser.look (startsWith ',') then
      char ','
      let a ← item
      space
      return a :: (← listRest closing item room)
    else
      char closing
      return []

/-- Reads at most so many items with commas between them, and the character that closes the list. The opening
one is behind. -/
def list (closing : Char) (item : TextParser α) (room : Nat) : TextParser (List α) := do
  space
  if ← Parser.look (startsWith closing) then
    char closing
    return []
  else
    let a ← item
    space
    return a :: (← listRest closing item room)

/-- Reads a field of an object, with `nested` for its value. -/
def field (nested : TextParser Json) : TextParser (Option String × Json) := do
  space
  let name ← string
  space
  char ':'
  return (name, ← nested)

/-- A value with at most so many items side by side, and with `nested` for the values in it. -/
def jsonWith (room : Nat) (nested : TextParser Json) : TextParser Json := do
  space
  let next ← Parser.look List.head?
  match next with
  | some 'n' => do
    word ['n', 'u', 'l', 'l']
    return .null
  | some 't' => do
    word ['t', 'r', 'u', 'e']
    return .bool true
  | some 'f' => do
    word ['f', 'a', 'l', 's', 'e']
    return .bool false
  | some '"' => return ((← string).map Json.string).getD .broken
  | some '[' => do
    char '['
    return .array (← list ']' nested room)
  | some '\x7b' => do
    char '\x7b'
    return .ofFields (← list '\x7d' (field nested) room)
  | _ => return .number (← number)

/-- A value in which at most `room` levels are nested, and at most as many items stand side by side. -/
def json : Nat → List Char → Except Unit (Json × List Char)
  | 0, cs => jsonWith 0 fail cs
  | room + 1, cs => jsonWith room (fun cs => json room cs) cs

end TextParser

/-- **The value that a text is.** No text nests deeper than it is long, or lists more than it has characters
left. -/
def Json.parse? (text : String) : Option Json :=
  let cs := text.toList
  match TextParser.json cs.length cs with
  | .error _ => none
  | .ok (v, rest) => if rest.all fun c => c == ' ' || c == '\t' || c == '\n' || c == '\r' then some v else none

end QueryAid
