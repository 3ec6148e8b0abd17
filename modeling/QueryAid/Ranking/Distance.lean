/-!
# Edit distance

The distance of two texts is the least number of edits that make one into the other, where an edit adds,
drops or replaces a character or exchanges two neighbours, and no part of the text is edited twice (optimal
string alignment).

The distances of a text to all suffixes of another one form a row. The row of `a :: s` follows from the
row of `s` and, for exchanged neighbours, the one of the tail of `s`.
-/

namespace QueryAid

/-- The lengths of the suffixes of a text, longest first: the distances of the empty text. -/
def suffixLengths : List Char → List Nat
  | [] => [0]
  | _ :: t => (t.length + 1) :: suffixLengths t

/-- The row of `a :: s`, where `next` is the first character of `s`, `row` is the row of `s` and `below` the
one of the tail of `s`. -/
def nextRow (a : Char) (next : Option Char) : List Char → List Nat → List Nat → List Nat
  | [], row, _ => [row.headD 0 + 1]
  | b :: t, row, below =>
    let rest := nextRow a next t row.tail below.tail
    let replaced := row.tail.headD 0 + if a == b then 0 else 1
    let dropped := row.headD 0 + 1
    let added := rest.headD 0 + 1
    let least := min replaced (min dropped added)
    -- `a` and the character after it are the next two characters of the other text, exchanged.
    let least :=
      if next == some b && t.head? == some a then min least (below.tail.tail.headD 0 + 1) else least
    least :: rest

/-- The row of a text, and the one of its tail. -/
def distanceRows (t : List Char) : List Char → List Nat × List Nat
  | [] => (suffixLengths t, [])
  | a :: s =>
    let (row, below) := distanceRows t s
    (nextRow a s.head? t row below, row)

/-- **The edit distance of two texts.** -/
def editDistance (s t : List Char) : Nat := (distanceRows t s).1.headD 0

end QueryAid
