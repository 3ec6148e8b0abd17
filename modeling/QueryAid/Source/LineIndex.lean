import QueryAid.Source.Span
/-!
# Lines and columns

A line ends with `\n`, with `\r\n`, or with a `\r` that no `\n` follows; the terminator belongs to the line
it ends. Lines and columns are counted from zero. Columns come in characters and in UTF-16 units.
-/

namespace QueryAid

/-- The number of UTF-16 units of a character: two above U+FFFF, one otherwise. -/
def utf16Size (c : Char) : Nat := if 0xFFFF < c.toNat then 2 else 1

/-- The number of UTF-16 units of a text. -/
def utf16Length : List Char → Nat
  | [] => 0
  | c :: cs => utf16Size c + utf16Length cs

/-- **A place in a source**, by line and column and by byte offset. -/
structure Position where
  /-- The line. -/
  line : Nat
  /-- The number of characters before the place on its line. -/
  column : Nat
  /-- The number of UTF-16 units before the place on its line. -/
  column16 : Nat
  /-- The number of bytes before the place. -/
  offset : Nat
  deriving DecidableEq, Repr, Inhabited

/-- The offsets just after each line terminator of a text that starts at `offset`. -/
def lineStartsFrom (offset : Nat) : List Char → List Nat
  | [] => []
  | '\r' :: '\n' :: cs => (offset + 2) :: lineStartsFrom (offset + 2) cs
  | c :: cs =>
    if c = '\r' ∨ c = '\n' then (offset + 1) :: lineStartsFrom (offset + 1) cs
    else lineStartsFrom (offset + c.utf8Size) cs

/-- **A source together with the offsets at which its lines start.** -/
structure LineIndex where
  /-- The source. -/
  source : List Char
  /-- The offsets of the line starts after the first one, which is zero. -/
  laterStarts : List Nat

namespace LineIndex

/-- The index of a source. -/
def ofSource (source : List Char) : LineIndex := ⟨source, lineStartsFrom 0 source⟩

/-- The offsets at which lines start, in order. -/
def starts (ix : LineIndex) : List Nat := 0 :: ix.laterStarts

/-- The place of a byte offset. An offset past the end counts as the end, and one inside a character as the
start of that character. -/
def position (ix : LineIndex) (offset : Nat) : Position :=
  let offset := floorBoundary ix.source offset
  let line := (ix.laterStarts.takeWhile (· ≤ offset)).length
  let start := ix.starts.getD line 0
  let before := takeBytes (offset - start) (dropBytes start ix.source)
  ⟨line, before.length, utf16Length before, offset⟩

/-- The places of the two ends of a range. -/
def span (ix : LineIndex) (s : Span) : Position × Position :=
  (ix.position s.start, ix.position s.stop)

/-- The text of a line, its terminator included. -/
def lineText (ix : LineIndex) (line : Nat) (start : Nat) : List Char :=
  let stop := ix.starts.getD (line + 1) (byteLength ix.source)
  takeBytes (stop - start) (dropBytes start ix.source)

/-- The byte offset of a line and a column in characters. A column past the end of its line counts as the
end of the line, and a line that does not exist as the end of the source. -/
def offsetOf (ix : LineIndex) (line column : Nat) : Nat :=
  match ix.starts[line]? with
  | none => byteLength ix.source
  | some start => start + byteLength ((ix.lineText line start).take column)

end LineIndex

end QueryAid
