/-!
# Spans of source text

Places in a source are byte offsets into its UTF-8 form. A source is kept as its list of characters, so the
byte length of a text is the sum of its characters' sizes, and an offset is a character boundary when
some of the leading characters take up exactly that many bytes.
-/

namespace QueryAid

/-- How many bytes a text takes up in UTF-8. -/
def byteLength : List Char → Nat
  | [] => 0
  | c :: cs => c.utf8Size + byteLength cs

/-- The leading characters that fit into `n` bytes. -/
def takeBytes : Nat → List Char → List Char
  | _, [] => []
  | n, c :: cs => if c.utf8Size ≤ n then c :: takeBytes (n - c.utf8Size) cs else []

/-- What is left when the leading characters that fit into `n` bytes are dropped. -/
def dropBytes : Nat → List Char → List Char
  | _, [] => []
  | n, c :: cs => if c.utf8Size ≤ n then dropBytes (n - c.utf8Size) cs else c :: cs

/-- The greatest character boundary that is not above `offset`. -/
def floorBoundary (cs : List Char) (offset : Nat) : Nat := byteLength (takeBytes offset cs)

/-- Whether an offset lies between two characters, or at one of the two ends. -/
def isBoundary (cs : List Char) (offset : Nat) : Bool := floorBoundary cs offset == offset

/-- **A half-open range of byte offsets.** -/
structure Span where
  /-- The offset of the first byte. -/
  start : Nat
  /-- The offset just after the last byte. -/
  stop : Nat
  deriving DecidableEq, Repr, Inhabited

namespace Span

/-- The range without bytes at an offset. -/
def emptyAt (offset : Nat) : Span := ⟨offset, offset⟩

/-- The number of bytes, as a word of 64 bits: a range that stops before it starts wraps around. -/
def length (s : Span) : UInt64 := UInt64.ofNat s.stop - UInt64.ofNat s.start

/-- Whether the range ends where it starts. -/
def isEmpty (s : Span) : Bool := s.start == s.stop

/-- Whether the byte at an offset belongs to the range. -/
def contains (s : Span) (offset : Nat) : Bool := s.start ≤ offset && offset < s.stop

/-- The text covered, if the range lies in the source and its ends are character boundaries. -/
def text? (s : Span) (source : List Char) : Option (List Char) :=
  if s.start ≤ s.stop && isBoundary source s.start && isBoundary source s.stop then
    some (takeBytes (s.stop - s.start) (dropBytes s.start source))
  else none

end Span

theorem takeBytes_append_dropBytes (n : Nat) (cs : List Char) :
    takeBytes n cs ++ dropBytes n cs = cs := by
  induction cs generalizing n with
  | nil => rfl
  | cons c cs ih =>
    by_cases h : c.utf8Size ≤ n
    · simp [takeBytes, dropBytes, h, ih]
    · simp [takeBytes, dropBytes, h]

theorem floorBoundary_le (cs : List Char) (offset : Nat) : floorBoundary cs offset ≤ offset := by
  induction cs generalizing offset with
  | nil => simp [floorBoundary, takeBytes, byteLength]
  | cons c cs ih =>
    by_cases h : c.utf8Size ≤ offset
    · have := ih (offset - c.utf8Size)
      simp only [floorBoundary, takeBytes, h, ite_true, byteLength] at this ⊢
      omega
    · simp [floorBoundary, takeBytes, h, byteLength]

end QueryAid
