import QueryAid.Sdl.Basic
/-!
# Type annotations

The type of a field, an argument or an input field: a name under list layers, each of which may or may not
be null.
-/

namespace QueryAid

/-- **A type annotation.** -/
inductive TypeAnnotation where
  | named (name : String) (nullable : Bool)
  | list (inner : TypeAnnotation) (nullable : Bool)
  deriving DecidableEq, Repr

namespace TypeAnnotation

/-- Whether null is among the values of the outermost layer. -/
def nullable : TypeAnnotation → Bool
  | named _ n | list _ n => n

/-- The name under all layers. -/
def namedType : TypeAnnotation → String
  | named name _ => name
  | list inner _ => inner.namedType

/-- The annotation of the items, if the outermost layer is a list. -/
def element? : TypeAnnotation → Option TypeAnnotation
  | named .. => none
  | list inner _ => some inner

/-- The layers, outermost first. -/
def layers : TypeAnnotation → List TypeAnnotation
  | named name n => [named name n]
  | list inner n => list inner n :: inner.layers

/-- How an annotation is written. -/
def text : TypeAnnotation → String
  | named name n => name ++ if n then "" else "!"
  | list inner n => "[" ++ inner.text ++ "]" ++ if n then "" else "!"

/-- The annotation without null among its values. -/
def nonNull : TypeAnnotation → TypeAnnotation
  | named name _ => named name false
  | list inner _ => list inner false

/-- The annotation that a written type is. -/
def ofExpression : Sdl.TypeExpression → TypeAnnotation
  | .named name => named name true
  | .list inner => list (ofExpression inner) true
  | .nonNull inner => (ofExpression inner).nonNull

end TypeAnnotation

end QueryAid
