import QueryAid.Text.CodePoint
/-!
# White space

The characters with the Unicode property White_Space, and the removal of white space from the two ends of
a text.
-/

namespace QueryAid

/-- The characters that Unicode gives the property White_Space. -/
def whiteSpaceRanges : List (Nat × Nat) :=
  [(0x9, 0xD), (0x20, 0x20), (0x85, 0x85), (0xA0, 0xA0), (0x1680, 0x1680), (0x2000, 0x200A),
   (0x2028, 0x2029), (0x202F, 0x202F), (0x205F, 0x205F), (0x3000, 0x3000)]

/-- Whether a character has the Unicode property White_Space. -/
def isWhite (c : Char) : Bool := inRanges whiteSpaceRanges c.toNat

/-- A text without the white space at its front. -/
def trimFront (cs : List Char) : List Char := cs.dropWhile isWhite

/-- A text without the white space at its back. -/
def trimBack (cs : List Char) : List Char := (trimFront cs.reverse).reverse

/-- A text without the white space at its two ends. -/
def trim (s : String) : String := String.ofList (trimBack (trimFront s.toList))

/-- Whether a text holds nothing but white space; the empty text does. -/
def isBlank (cs : List Char) : Bool := cs.all isWhite

end QueryAid
