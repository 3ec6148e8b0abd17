/-!
# UTF-8

Reading octets as UTF-8. The text is refused at the first octet of the first character that is not well
formed; everything before it is well formed.
-/

namespace QueryAid

namespace Utf8

/-- The octets that may follow a character's first octet. -/
def isTail (b : UInt8) : Bool := 0x80 ≤ b && b ≤ 0xBF

/-- The least and the greatest second octet of a three-octet character: no character is written longer than
need be, and no surrogate is written. -/
def secondOfThree (a : UInt8) : UInt8 × UInt8 :=
  if a = 0xE0 then (0xA0, 0xBF) else if a = 0xED then (0x80, 0x9F) else (0x80, 0xBF)

/-- The least and the greatest second octet of a four-octet character: no character is written longer than
need be, and none is above U+10FFFF. -/
def secondOfFour (a : UInt8) : UInt8 × UInt8 :=
  if a = 0xF0 then (0x90, 0xBF) else if a = 0xF4 then (0x80, 0x8F) else (0x80, 0xBF)

/-- The payload of a continuation octet. -/
def low (b : UInt8) : Nat := b.toNat % 64

/-- Reads a text that starts `offset` octets into the whole. The error is the number of octets before the
first character that is not well formed. -/
def decodeFrom (offset : Nat) : List UInt8 → Except Nat (List Char)
  | [] => .ok []
  | a :: rest =>
    if a < 0x80 then do
      let cs ← decodeFrom (offset + 1) rest
      return Char.ofNat a.toNat :: cs
    else match rest with
      | [] => .error offset
      | b :: rest =>
        if 0xC2 ≤ a && a ≤ 0xDF then
          if isTail b then do
            let cs ← decodeFrom (offset + 2) rest
            return Char.ofNat (a.toNat % 32 * 64 + low b) :: cs
          else .error offset
        else match rest with
          | [] => .error offset
          | c :: rest =>
            if 0xE0 ≤ a && a ≤ 0xEF then
              if (secondOfThree a).1 ≤ b && b ≤ (secondOfThree a).2 && isTail c then do
                let cs ← decodeFrom (offset + 3) rest
                return Char.ofNat (a.toNat % 16 * 4096 + low b * 64 + low c) :: cs
              else .error offset
            else match rest with
              | [] => .error offset
              | d :: rest =>
                if 0xF0 ≤ a && a ≤ 0xF4 && (secondOfFour a).1 ≤ b && b ≤ (secondOfFour a).2
                    && isTail c && isTail d then do
                  let cs ← decodeFrom (offset + 4) rest
                  return Char.ofNat (a.toNat % 8 * 262144 + low b * 4096 + low c * 64 + low d) :: cs
                else .error offset

end Utf8

/-- The text that octets stand for, or the length of their longest well-formed beginning. -/
def decodeUtf8 (octets : List UInt8) : Except Nat String :=
  (Utf8.decodeFrom 0 octets).map String.ofList

/-- The octets of a text. -/
def encodeUtf8 (s : String) : List UInt8 := s.toUTF8.toList

end QueryAid
