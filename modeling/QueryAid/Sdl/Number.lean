/-!
# Numbers in schemas

Which texts are numbers. A number reaches up to the next blank, mark or comment, and is then taken apart at
its last point and its last `e`.
-/

namespace QueryAid

namespace Sdl

/-- The characters that end a number. -/
def endsNumber (c : Char) : Bool :=
  [' ', '\n', '\r', '\t', ',', '#', '!', '$', ':', '=', '@', '|', '&', '(', ')', '[', ']', '\x7b', '\x7d'].contains c

/-- What comes before and after the last occurrence of a character that satisfies `test`. -/
def splitLast? (test : Char → Bool) (cs : List Char) : Option (List Char × List Char) :=
  let back := cs.reverse
  match back.dropWhile fun c => !test c with
  | [] => none
  | _ :: front => some (front.reverse, (back.takeWhile fun c => !test c).reverse)

/-- An integer: digits after an optional minus sign, without leading zeros. -/
def isInteger (cs : List Char) : Bool :=
  match cs with
  | ['0'] | ['-', '0'] => true
  | '0' :: _ | '-' :: '0' :: _ | ['-'] | [] => false
  | _ :: rest => rest.all Char.isDigit

/-- The digits after a point. -/
def isFraction (cs : List Char) : Bool := !cs.isEmpty && cs.all Char.isDigit

/-- The digits of an exponent, after an optional sign. Without a sign the first digit is neither 0 nor 9. -/
def isExponent (cs : List Char) : Bool :=
  match cs with
  | [] => false
  | c :: rest =>
    if c == '+' || c == '-' then !rest.isEmpty && rest.all Char.isDigit
    else '0' < c && c < '9' && rest.all Char.isDigit

/-- **The parts of a number that is not an integer:** what precedes the point, the fraction and the exponent. -/
structure FloatParts where
  whole : List Char
  fraction : List Char
  exponent : List Char
  deriving DecidableEq, Repr

/-- The parts of a text that is such a number. -/
def floatParts? (cs : List Char) : Option FloatParts :=
  match splitLast? (fun c => c == 'e' || c == 'E') cs with
  | none =>
    match splitLast? (· == '.') cs with
    | none => none
    | some (whole, fraction) =>
      if isInteger whole && isFraction fraction then some ⟨whole, fraction, []⟩ else none
  | some (significand, exponent) =>
    if exponent.contains '.' || !isExponent exponent then none
    else match splitLast? (· == '.') significand with
      | none => if isInteger significand then some ⟨significand, [], exponent⟩ else none
      | some (whole, fraction) =>
        if isInteger whole && isFraction fraction then some ⟨whole, fraction, exponent⟩ else none

end Sdl

end QueryAid
