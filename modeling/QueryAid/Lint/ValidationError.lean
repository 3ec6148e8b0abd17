import QueryAid.Source.Span
/-!
# Validation errors

What is said about a document, and about which parts of it.
-/

namespace QueryAid

/-- **A part of a document that something is said about.** -/
structure SourceNode where
  /-- Whether the part is a reference to a variable. -/
  isVariable : Bool
  /-- The name in the part. -/
  name : Option Span
  /-- The whole part. -/
  span : Span
  /-- The variable that the part defines. -/
  definedVariable : Option Span
  deriving DecidableEq, Repr

namespace SourceNode

/-- A part without a name. -/
def whole (span : Span) : SourceNode := ⟨false, none, span, none⟩

/-- A part with a name. -/
def named (span name : Span) : SourceNode := ⟨false, some name, span, none⟩

/-- A reference to a variable; the name is without the dollar sign. -/
def reference (span name : Span) : SourceNode := ⟨true, some name, span, none⟩

/-- A part that defines a variable. -/
def defining (span variableSpan : Span) : SourceNode := ⟨false, none, span, some variableSpan⟩

/-- **What is to be underlined:** the variable that is defined, or else the name, or else everything. A reference
to a variable defines none. -/
def highlight (n : SourceNode) : Span :=
  match n.isVariable, n.definedVariable, n.name with
  | false, some v, _ => v
  | _, _, some name => name
  | _, _, none => n.span

end SourceNode

/-- **A broken rule** and the parts of the document that break it. -/
structure ValidationError where
  message : String
  nodes : List SourceNode
  deriving DecidableEq, Repr

namespace ValidationError

/-- Where the first part starts that an error is about, plus one; zero if it is about none. -/
def order (e : ValidationError) : Nat :=
  match e.nodes with
  | [] => 0
  | n :: _ => n.highlight.start + 1

end ValidationError

/-- A list in which no element equals the one before it. -/
def dedupAdjacent {α : Type} [DecidableEq α] : List α → List α
  | [] => []
  | [a] => [a]
  | a :: b :: l => if a = b then dedupAdjacent (b :: l) else a :: dedupAdjacent (b :: l)

/-- **Errors in the order in which they stand in the document,** each once. Errors that start at one place keep
their order. -/
def sortErrors (errors : List ValidationError) : List ValidationError :=
  dedupAdjacent (errors.mergeSort fun a b => decide (a.order ≤ b.order))

end QueryAid
