/-!
# Text for a terminal

A terminal takes some characters for commands. In what is shown on one, the number of such a character stands in
its place. Line feeds, carriage returns and tabs are left as they are.
-/

namespace QueryAid

/-- Commands of a single octet: bell, backspace, form feed, escape and delete. -/
def isTerminalCommand (c : Char) : Bool := ['\x07', '\x08', '\x0c', '\x1b', '\x7f'].contains c

/-- The commands that are numbered from 128 on. -/
def isHighControl (c : Char) : Bool := 0x80 ≤ c.toNat && c.toNat ≤ 0x9F

/-- How a character is shown on a terminal. -/
def shownChar (c : Char) : List Char :=
  if isTerminalCommand c then ['\\', 'x', Nat.digitChar (c.toNat / 16), Nat.digitChar (c.toNat % 16)]
  else if isHighControl c then ['\\', 'u', '\x7b'] ++ Nat.toDigits 16 c.toNat ++ ['\x7d']
  else [c]

/-- **A text as it is shown on a terminal.** -/
def shownText (s : String) : String := String.ofList (s.toList.flatMap shownChar)

end QueryAid
