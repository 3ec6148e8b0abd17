/-!
# Code points

Ranges of code points, hexadecimal digits, and the code points that stand for halves of UTF-16 pairs.
-/

namespace QueryAid

/-- Whether a code point lies in one of some ranges, the ends of which belong to them. -/
def inRanges (ranges : List (Nat × Nat)) (n : Nat) : Bool := ranges.any fun r => r.1 ≤ n && n ≤ r.2

/-- The value of a hexadecimal digit. -/
def hexDigit? (c : Char) : Option Nat :=
  if '0' ≤ c && c ≤ '9' then some (c.toNat - '0'.toNat)
  else if 'a' ≤ c && c ≤ 'f' then some (c.toNat - 'a'.toNat + 10)
  else if 'A' ≤ c && c ≤ 'F' then some (c.toNat - 'A'.toNat + 10)
  else none

/-- A code point that stands for the first half of a UTF-16 pair. -/
def isHighSurrogate (n : Nat) : Bool := 0xD800 ≤ n && n ≤ 0xDBFF

/-- A code point that stands for the second half of a UTF-16 pair. -/
def isLowSurrogate (n : Nat) : Bool := 0xDC00 ≤ n && n ≤ 0xDFFF

/-- The character that two halves of a UTF-16 pair stand for. -/
def pairChar (high low : Nat) : Char := Char.ofNat (0x10000 + (high - 0xD800) * 1024 + (low - 0xDC00))

/-- The text that code points stand for, in which two halves of a pair that stand side by side are one
character. A half that stands alone is no text. -/
def textOfCodePoints? : List Nat → Option (List Char)
  | [] => some []
  | [n] => if isHighSurrogate n || isLowSurrogate n then none else some [Char.ofNat n]
  | m :: n :: rest =>
    if isHighSurrogate m && isLowSurrogate n then (textOfCodePoints? rest).map (pairChar m n :: ·)
    else if isHighSurrogate m || isLowSurrogate m then none
    else (textOfCodePoints? (n :: rest)).map (Char.ofNat m :: ·)

/-- The value of a text of decimal digits. -/
def natOfDigits (cs : List Char) : Nat := cs.foldl (fun n c => n * 10 + (c.toNat - '0'.toNat)) 0

end QueryAid
