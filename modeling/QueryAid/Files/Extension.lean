import QueryAid.Text.LowerCase
import QueryAid.Text.WhiteSpace
/-!
# File extensions

The extension of a path, and the extensions by which GraphQL files are told from others.
-/

namespace QueryAid

/-- The last component of a path that is neither empty nor a single point; two points are no name. -/
def fileName? (path : String) : Option String :=
  match ((path.splitOn "/").filter fun c => c != "" && c != ".").getLast? with
  | some ".." | none => none
  | some name => some name

/-- **What follows the last point in a file's name,** unless nothing precedes it. -/
def extension? (path : String) : Option String := do
  let name ← fileName? path
  let back := name.toList.reverse
  match back.dropWhile fun c => c != '.' with
  | [] | ['.'] => none
  | _ => some (String.ofList (back.takeWhile fun c => c != '.').reverse)

/-- An extension without white space around it, without points before it, and in lower case. -/
def normalizeExtension (e : String) : String :=
  lowerCase (String.ofList ((trim e).toList.dropWhile fun c => c == '.'))

/-- A text added to texts in order, none of them twice. -/
def insertSorted (s : String) : List String → List String
  | [] => [s]
  | t :: ts => if s == t then t :: ts else if s < t then s :: t :: ts else t :: insertSorted s ts

/-- **The extensions that are meant,** in order, those that are empty left out. -/
def normalizeExtensions (es : List String) : List String :=
  (es.map normalizeExtension).foldl (fun sorted e => if e.isEmpty then sorted else insertSorted e sorted) []

/-- Whether a path has one of some extensions, in upper or lower case. -/
def hasExtension (extensions : List String) (path : String) : Bool :=
  (extension? path).any fun e => extensions.contains (lowerCase e)

/-- The extensions of GraphQL files when no others are named. -/
def defaultExtensions : List String := ["graphql", "graphqls", "gql"]

end QueryAid
