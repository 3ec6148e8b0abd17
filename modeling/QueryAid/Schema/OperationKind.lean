import QueryAid.Schema.DirectiveLocation
/-!
# Kinds of operations

Queries, mutations and subscriptions, and one thing for each of them.
-/

namespace QueryAid

/-- The three kinds of operation. -/
inductive OperationKind where
  | query | mutation | subscription
  deriving DecidableEq, Repr

namespace OperationKind

/-- The location at which the directives of an operation stand. -/
def directiveLocation : OperationKind → DirectiveLocation
  | query => .query
  | mutation => .mutation
  | subscription => .subscription

/-- The keyword of an operation. -/
def keyword : OperationKind → String
  | query => "query"
  | mutation => "mutation"
  | subscription => "subscription"

/-- The name of a kind of operation, which is also the name of its root type unless another one is named. -/
def title : OperationKind → String
  | query => "Query"
  | mutation => "Mutation"
  | subscription => "Subscription"

/-- What operations of a kind are called together. -/
def plural : OperationKind → String
  | query => "queries"
  | mutation => "mutations"
  | subscription => "subscriptions"

end OperationKind

/-- **One thing for each kind of operation**, or none. -/
structure PerOperation (α : Type) where
  query : Option α
  mutation : Option α
  subscription : Option α
  deriving DecidableEq, Repr

namespace PerOperation

variable {α β : Type}

/-- Nothing for any kind of operation. -/
def none : PerOperation α := ⟨.none, .none, .none⟩

/-- What there is for a kind of operation. -/
def get (p : PerOperation α) : OperationKind → Option α
  | .query => p.query
  | .mutation => p.mutation
  | .subscription => p.subscription

/-- The same, with something else for one kind. -/
def set (p : PerOperation α) (k : OperationKind) (a : α) : PerOperation α :=
  match k with
  | .query => { p with query := some a }
  | .mutation => { p with mutation := some a }
  | .subscription => { p with subscription := some a }

/-- The kinds for which there is something, and what it is: queries first, then mutations, then
subscriptions. -/
def toList (p : PerOperation α) : List (OperationKind × α) :=
  [OperationKind.query, .mutation, .subscription].filterMap fun k => (p.get k).map (k, ·)

end PerOperation

end QueryAid
