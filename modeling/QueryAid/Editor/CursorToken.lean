import QueryAid.Text.WhiteSpace
/-!
# The token under the cursor

The text that a completion is chosen by, and the part of the source that it replaces.
-/

namespace QueryAid

/-- **The token under the cursor** and the byte offsets at which it starts and ends. -/
structure CursorToken where
  text : String
  start : UInt64
  stop : UInt64
  deriving DecidableEq, Repr

namespace CursorToken

/-- Whether there is nothing but white space under the cursor. -/
def isWhiteSpace (t : CursorToken) : Bool := isBlank t.text.toList

/-- The text that a completion is chosen by; white space is none. -/
def partialText (t : CursorToken) : String := if t.isWhiteSpace then "" else t.text

/-- Where the replaced part starts. White space is not replaced, nor is a mark in front of a word. -/
def replaceFrom (t : CursorToken) : UInt64 :=
  match t.text.toList with
  | [] => t.stop
  | c :: _ =>
    if t.isWhiteSpace then t.stop
    else if c.isAlphanum || c == '_' then t.start
    else min (t.start + UInt64.ofNat c.utf8Size) t.stop

end CursorToken

end QueryAid
