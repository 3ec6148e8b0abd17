import QueryAid.Editor.CursorToken
import QueryAid.Editor.ParserState
import QueryAid.Json.Parser
/-!
# Completion requests

What an editor asks, as JSON: the token under the cursor and the parts of the document that the cursor is in.
A record is an object, of which unknown fields are passed over and known ones stand at most once, or else
the array of its fields in order.
-/

namespace QueryAid

/-- **What an editor asks.** -/
structure CompletionRequest where
  /-- The parts that the cursor is in, outermost first. -/
  state : List StateFrame
  token : CursorToken
  deriving DecidableEq, Repr

namespace Json

/-- The value of the only field of a name; no value if there is no such field, and failure if there are two. -/
def uniqueField? (fields : List (String × Json)) (name : String) : Option (Option Json) :=
  match fields.filter fun f => f.1 == name with
  | [] => some none
  | [f] => some (some f.2)
  | _ => none

/-- The value of the only field of a name, which must be there. -/
def requiredField? (fields : List (String × Json)) (name : String) : Option Json :=
  (uniqueField? fields name).join

/-- A natural number of 64 bits. -/
def word? (v : Json) : Option UInt64 := do
  let n ← v.nat?
  if n < UInt64.size then some (UInt64.ofNat n) else none

/-- A text, or null for none. -/
def optionalText? : Json → Option (Option String)
  | null => some none
  | string s => some (some s)
  | _ => none

end Json

/-- A kind: its name, or an object that gives null under its name. -/
def StateKind.ofJson? : Json → Option StateKind
  | .string s => ofText? s
  | .object [(name, .null)] => ofText? name
  | _ => none

/-- The token that its three fields describe. -/
def CursorToken.ofFields? (text start stop : Json) : Option CursorToken := do
  return ⟨← text.text?, ← start.word?, ← stop.word?⟩

/-- A token. -/
def CursorToken.ofJson? : Json → Option CursorToken
  | .object fields => do
    ofFields? (← Json.requiredField? fields "text") (← Json.requiredField? fields "start")
      (← Json.requiredField? fields "end")
  | .array [text, start, stop] => ofFields? text start stop
  | _ => none

/-- The part that its four fields describe; all but the first may be missing. -/
def StateFrame.ofFields? (kind : Json) (name step typeName : Option Json) : Option StateFrame := do
  let kind ← StateKind.ofJson? kind
  let name ← (name.getD .null).optionalText?
  let step ← (step.getD (.nat 0)).word?
  let typeName ← (typeName.getD .null).optionalText?
  return ⟨kind, name, step.toNat, typeName⟩

/-- A part. -/
def StateFrame.ofJson? : Json → Option StateFrame
  | .object fields => do
    ofFields? (← Json.requiredField? fields "kind") (← Json.uniqueField? fields "name")
      (← Json.uniqueField? fields "step") (← Json.uniqueField? fields "type")
  | .array [kind] => ofFields? kind none none none
  | .array [kind, name] => ofFields? kind (some name) none none
  | .array [kind, name, step] => ofFields? kind (some name) (some step) none
  | .array [kind, name, step, typeName] => ofFields? kind (some name) (some step) (some typeName)
  | _ => none

/-- The parts of a state. -/
def StateFrame.listOfJson? : Json → Option (List StateFrame)
  | .array items => items.mapM StateFrame.ofJson?
  | _ => none

namespace CompletionRequest

/-- The request that its two fields describe. -/
def ofFields? (state token : Json) : Option CompletionRequest := do
  return ⟨← StateFrame.listOfJson? state, ← CursorToken.ofJson? token⟩

/-- A request. Its object must not have unknown fields. -/
def ofJson? : Json → Option CompletionRequest
  | .object fields => do
    if fields.any fun f => f.1 != "state" && f.1 != "token" then none
    ofFields? (← Json.requiredField? fields "state") (← Json.requiredField? fields "token")
  | .array [state, token] => ofFields? state token
  | _ => none

/-- **The request in a text.** -/
def parse? (text : String) : Option CompletionRequest := (Json.parse? text).bind ofJson?

end CompletionRequest

end QueryAid
