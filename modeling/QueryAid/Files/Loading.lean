import QueryAid.Files.Tree
import QueryAid.Schema.Builder
import QueryAid.Text.Utf8
/-!
# Reading schema files

Files are read as UTF-8, and loaded under the path by which they were asked for.
-/

namespace QueryAid

/-- The text of a file. -/
def FileTree.readText (t : FileTree) (path : String) : Except FileReadError String :=
  match t.find path with
  | .error fault => .error (.refused path fault.message)
  | .ok ⟨_, .directory _⟩ => .error (.notAFile path)
  | .ok ⟨_, .file octets⟩ =>
    match decodeUtf8 octets with
    | .error offset => .error (.notUtf8 path offset)
    | .ok text => .ok text

/-- Loads a file. -/
def SchemaBuilder.loadFile (t : FileTree) (b : SchemaBuilder) (path : String) :
    Except BuildError SchemaBuilder :=
  match t.readText path with
  | .error e => .error (.fileRead e)
  | .ok text => b.load (some path) text

/-- **Loads files, in order.** -/
def SchemaBuilder.loadFiles (t : FileTree) (b : SchemaBuilder) (paths : List String) :
    Except BuildError SchemaBuilder :=
  paths.foldlM (SchemaBuilder.loadFile t) b

end QueryAid
