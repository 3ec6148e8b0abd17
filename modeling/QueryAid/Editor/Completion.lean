import QueryAid.Editor.Candidate
import QueryAid.Editor.CursorToken
import QueryAid.Json.Basic
import QueryAid.Ranking.Rank
/-!
# Completions

What is offered to the author of a document where the cursor is.
-/

namespace QueryAid

/-- **What is offered,** best first, and the byte offsets of the part of the source that it replaces. -/
structure Completions where
  candidates : List Candidate
  replaceFrom : UInt64
  replaceTo : UInt64
  deriving DecidableEq

/-- Everything that could stand where a state is. -/
def candidatesAt? (s : Schema) (state : ParserState) : Option (List Candidate) := do
  let position ← GrammarPosition.ofState? state
  Candidate.at? s (TypeContext.ofState s state) state.enclosingKind? position

/-- **The completions of a token in a state.** There are none without a schema, at a state that has no position
in the grammar, and at one whose surroundings the schema does not explain. -/
def complete (s : Option Schema) (token : CursorToken) (state : ParserState) : Option Completions := do
  let candidates ← candidatesAt? (← s) state
  return ⟨rank Candidate.text candidates token.partialText, token.replaceFrom, token.stop⟩

/-! ### As JSON -/

/-- A candidate as JSON. -/
def Candidate.json (c : Candidate) : Json :=
  .object ([("text", .string c.text)] ++ Json.optionalField "type" (fun t => .string t.text) c.type ++
    Json.optionalField "description" .string c.description)

/-- Completions as JSON. -/
def Completions.json (c : Completions) : Json :=
  .object [("candidates", .array (c.candidates.map Candidate.json)),
    ("replace_from", .nat c.replaceFrom.toNat), ("replace_to", .nat c.replaceTo.toNat)]

end QueryAid
