import QueryAid.Ranking.Distance
import QueryAid.Text.LowerCase
/-!
# Ranking candidates

How near a suggestion is to what was typed, and the candidates that are near enough, nearest first.
-/

namespace QueryAid

/-- Whether a character counts when texts are compared. -/
def isRanked (c : Char) : Bool := c.isAlphanum || c == '_'

/-- **A text as it is compared:** in lower case, and of ASCII letters, digits and underscores alone. -/
def normalizeText (s : String) : List Char := (lowerCaseFrom [] s.toList).filter isRanked

/-- **How far a suggestion is from a text,** in halves: the edit distance, in which of the excess of a longer
suggestion only one character counts. A longer suggestion that the text does not begin is half a point
farther. -/
def proximity (suggestion text : List Char) : Int :=
  let distance : Int := 2 * (editDistance text suggestion : Int)
  if text.length < suggestion.length then
    distance - 2 * ((suggestion.length : Int) - text.length - 1) +
      if text.isPrefixOf suggestion then 0 else 1
  else distance

/-- A number of halves in decimal, with one place. -/
def halvesText (n : Int) : String :=
  (if n < 0 then "-" else "") ++ toString (n.natAbs / 2) ++ if n % 2 == 0 then ".0" else ".5"

/-- The greatest distance, in halves, of a candidate that is kept. -/
def proximityLimit : Int := 4

/-- A candidate, how far it is from the text, and how long its own text is. -/
structure Scored (α : Type) where
  item : α
  score : Int
  length : Nat

namespace Scored

variable {α : Type}

/-- Whether a candidate does not come after another one: nearer ones come first, and of equally near ones the
shorter. -/
def le (a b : Scored α) : Bool := a.score < b.score || (a.score == b.score && a.length ≤ b.length)

/-- The score of a candidate with respect to a text. -/
def of (text : α → String) (typed : List Char) (item : α) : Scored α :=
  ⟨item, proximity (normalizeText (text item)) typed, (text item).length⟩

end Scored

/-- **The candidates near enough to what was typed, nearest first.** Where nothing was typed that counts, or
nothing is near enough, all candidates stay as they are. -/
def rank {α : Type} (text : α → String) (candidates : List α) (typed : String) : List α :=
  let typed := normalizeText typed
  if typed.isEmpty then candidates
  else
    match (candidates.map (Scored.of text typed)).filter fun c => c.score ≤ proximityLimit with
    | [] => candidates
    | near => (near.mergeSort Scored.le).map Scored.item

end QueryAid
