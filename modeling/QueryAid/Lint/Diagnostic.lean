import QueryAid.Document.Parser
import QueryAid.Lint.Validation
import QueryAid.Source.LineIndex
/-!
# Diagnostics

What is told to the author of a document. A source that is no document has one diagnostic, at the token that shows
it; a document is validated if there is a schema, and has a diagnostic for each part that an error is about.
-/

namespace QueryAid

/-- Whether a diagnostic is about the form of a document or about its meaning. -/
inductive DiagnosticCategory where
  | syntactic
  | validation
  deriving DecidableEq, Repr

/-- The name of a category. -/
def DiagnosticCategory.text : DiagnosticCategory → String
  | syntactic => "syntax"
  | validation => "validation"

/-- **A message and the range it is attached to.** -/
structure Diagnostic where
  category : DiagnosticCategory
  message : String
  /-- The first place of the range. -/
  start : Position
  /-- The place just after the range. -/
  stop : Position
  deriving DecidableEq, Repr

namespace Diagnostic

/-- Every diagnostic is an error. -/
def severity : String := "error"

/-- A diagnostic on one line, with its line and column counted from one. -/
def text (x : Diagnostic) : String :=
  toString (x.start.line + 1) ++ ":" ++ toString (x.start.column + 1) ++ ": " ++ x.category.text ++ " " ++
    severity ++ ": " ++ x.message

/-- The diagnostic of a source that is no document. -/
def ofSyntaxError (ix : LineIndex) (e : SyntaxError) : Diagnostic :=
  let (start, stop) := ix.span e.span
  ⟨.syntactic, e.message, start, stop⟩

/-- The diagnostics of an error, one for each part that it is about. -/
def ofError (ix : LineIndex) (e : ValidationError) : List Diagnostic :=
  e.nodes.map fun n =>
    let (start, stop) := ix.span n.highlight
    ⟨.validation, e.message, start, stop⟩

end Diagnostic

/-- The diagnostics of a source when documents are validated by `validator`. -/
def lintWith (validator : Schema → Document → List ValidationError) (source : List Char)
    (s : Option Schema) : List Diagnostic :=
  let ix := LineIndex.ofSource source
  match Document.parse source with
  | .error e => [.ofSyntaxError ix e]
  | .ok d =>
    match s with
    | none => []
    | some s => (validator s d).flatMap (Diagnostic.ofError ix)

/-- **The diagnostics of a source.** -/
def lint (source : List Char) (s : Option Schema) : List Diagnostic := lintWith validate source s

end QueryAid
