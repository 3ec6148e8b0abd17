import QueryAid.Text.CaseTables
import QueryAid.Text.CodePoint
/-!
# Lower case

The lower case of a text by the full rules of Unicode. Two characters need more than a look into a table: the
capital I with a dot above becomes two characters, and a capital sigma takes its final form at the end of a
word.
-/

namespace QueryAid

/-- Whether a character has case, those that are passed over aside. -/
def isCased (c : Char) : Bool := inRanges casedRanges c.toNat

/-- Whether a character is passed over when a neighbour with case is looked for. -/
def isCaseIgnorable (c : Char) : Bool := inRanges caseIgnorableRanges c.toNat

/-- The lower case of a character for which it is one character, without regard to its neighbours. -/
def lowerChar (c : Char) : Char :=
  if c.toNat < 0x80 then c.toLower
  else
    match lowerCaseRuns.find? fun r => r.1 ≤ c.toNat && c.toNat ≤ r.2.1 && (c.toNat - r.1) % r.2.2.1 == 0 with
    | some r => Char.ofNat ((c.toNat : Int) + r.2.2.2).toNat
    | none => c

/-- Whether the first character that is not passed over has case. -/
def startsCased (cs : List Char) : Bool := ((cs.dropWhile isCaseIgnorable).head?.map isCased).getD false

/-- The lower case of a text before which `before` stands, nearest character first. -/
def lowerCaseFrom (before : List Char) : List Char → List Char
  | [] => []
  | c :: rest =>
    let lower :=
      if c == '\u0130' then ['i', '\u0307']
      else if c == '\u03A3' then [if startsCased before && !startsCased rest then '\u03C2' else '\u03C3']
      else [lowerChar c]
    lower ++ lowerCaseFrom (c :: before) rest

/-- **The lower case of a text.** -/
def lowerCase (s : String) : String := String.ofList (lowerCaseFrom [] s.toList)

end QueryAid
