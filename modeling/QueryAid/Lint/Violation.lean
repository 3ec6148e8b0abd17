import QueryAid.Lint.ValidationError
import QueryAid.Schema.Basic
/-!
# Violations

The ways in which a document can be at odds with a schema, and how each is worded.
-/

namespace QueryAid

/-- Who arguments are given to. -/
inductive ArgumentOwner where
  | field (name parentType : String)
  | directive (name : String)
  deriving DecidableEq, Repr

/-- **What is wrong with a document.** -/
inductive Violation where
  | notExecutable (definition : Option String)
  | noRoot (kind : OperationKind)
  | unknownType (name : String)
  | nonInputVariable (name type : String)
  /-- The condition of a fragment, which has a name unless it is an inline fragment. -/
  | nonCompositeCondition (fragment : Option String) (type : String)
  | unknownFragment (name : String)
  | unknownField (name parentType : String)
  | selectionsOnLeaf (field type : String)
  | selectionsMissing (field type : String)
  | unknownDirective (name : String)
  | repeatedDirective (name : String)
  | misplacedDirective (name : String) (location : DirectiveLocation)
  | unknownArgument (name : String) (owner : ArgumentOwner)
  | missingArgument (name type : String) (owner : ArgumentOwner)
  /-- In an operation, which may have a name. -/
  | undefinedVariable (name : String) (operation : Option String)
  /-- In an operation, which may have a name. -/
  | unusedVariable (name : String) (operation : Option String)
  deriving DecidableEq, Repr

namespace Violation

/-- The wording of a violation. -/
def message : Violation → String
  | notExecutable (some name) => s!"The \"{name}\" definition is not executable."
  | notExecutable none => "The schema definition is not executable."
  | noRoot kind => "Schema is not configured for " ++ kind.plural ++ "."
  | unknownType name => s!"Unknown type \"{name}\"."
  | nonInputVariable name type => s!"Variable \"${name}\" cannot be non-input type \"{type}\"."
  | nonCompositeCondition (some fragment) type =>
    s!"Fragment \"{fragment}\" cannot condition on non composite type \"{type}\"."
  | nonCompositeCondition none type => s!"Fragment cannot condition on non composite type \"{type}\"."
  | unknownFragment name => s!"Unknown fragment \"{name}\"."
  | unknownField name parentType => s!"Cannot query field \"{name}\" on \"{parentType}\"."
  | selectionsOnLeaf field type => s!"Field \"{field}\" of type \"{type}\" must not have a sub selection."
  | selectionsMissing field type => s!"Field \"{field}\" of type \"{type}\" must have a sub selection."
  | unknownDirective name => s!"Unknown directive \"{name}\"."
  | repeatedDirective name => s!"The directive \"@{name}\" can only be used once at this location."
  | misplacedDirective name location =>
    s!"Directive \"{name}\" may not be used on " ++ location.text ++ "."
  | unknownArgument name (.field field parentType) =>
    s!"Unknown argument \"{name}\" on field \"{field}\" of type \"{parentType}\"."
  | unknownArgument name (.directive directive) =>
    s!"Unknown argument \"{name}\" on directive \"@{directive}\"."
  | missingArgument name type (.field field _) =>
    s!"Field \"{field}\" argument \"{name}\" of type \"{type}\" is required but not provided."
  | missingArgument name type (.directive directive) =>
    s!"Directive \"@{directive}\" argument \"{name}\" of type \"{type}\" is required but not provided."
  | undefinedVariable name (some operation) =>
    s!"Variable \"${name}\" is not defined by operation \"{operation}\"."
  | undefinedVariable name none => s!"Variable \"${name}\" is not defined."
  | unusedVariable name (some operation) =>
    s!"Variable \"${name}\" is never used in operation \"{operation}\"."
  | unusedVariable name none => s!"Variable \"${name}\" is never used."

/-- A violation, said of a part of a document. -/
def on (v : Violation) (node : SourceNode) : ValidationError := ⟨v.message, [node]⟩

end Violation

end QueryAid
