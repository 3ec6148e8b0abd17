/-!
# Parsers

A parser reads from a state `σ`, and gives a result and the state after it or an error `ε`. The two grammars
of this library, the one of schemas and the one of documents, are written with the few operators below.
Repetition ends by itself: an item that consumes nothing is the last one.
-/

namespace QueryAid

/-- A function from a state to a result and a new state, or to an error. -/
def Parser (σ ε α : Type) : Type := σ → Except ε (α × σ)

/-- Parser states that hold a finite amount of unread input. -/
class Unread (σ : Type) where
  /-- How much input is left. -/
  unread : σ → Nat

namespace Parser

variable {σ ε α β : Type}

instance : Monad (Parser σ ε) where
  pure a := fun s => .ok (a, s)
  bind p f := fun s =>
    match p s with
    | .error e => .error e
    | .ok (a, s') => f a s'

/-- Fails with an error that depends on the state. -/
def failAt (e : σ → ε) : Parser σ ε α := fun s => .error (e s)

/-- Gives a value read off the state, and leaves the state alone. -/
def look (f : σ → α) : Parser σ ε α := fun s => .ok (f s, s)

/-- Runs `p` if the state satisfies `test`. -/
def optional (test : σ → Bool) (p : Parser σ ε α) : Parser σ ε (Option α) := fun s =>
  if test s then
    match p s with
    | .error e => .error e
    | .ok (a, s') => .ok (some a, s')
  else .ok (none, s)

/-- Runs `item` as long as the state satisfies `more`. -/
def many [Unread σ] (more : σ → Bool) (item : Parser σ ε α) (s : σ) : Except ε (List α × σ) :=
  if more s then
    match item s with
    | .error e => .error e
    | .ok (a, s') =>
      if Unread.unread s' < Unread.unread s then
        match many more item s' with
        | .error e => .error e
        | .ok (as, s'') => .ok (a :: as, s'')
      else .ok ([a], s')
  else .ok ([], s)
termination_by Unread.unread s

/-- Runs `item` once, and then as long as the state satisfies `more`. -/
def many1 [Unread σ] (more : σ → Bool) (item : Parser σ ε α) : Parser σ ε (List α) := do
  let a ← item
  let as ← many more item
  return a :: as

end Parser

end QueryAid
