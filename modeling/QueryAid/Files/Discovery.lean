import QueryAid.Files.Extension
import QueryAid.Files.Tree
/-!
# Finding GraphQL files

All files with one of some extensions at or under some paths. A directory's entries are visited in order, and a
directory among them when its turn comes.
-/

namespace QueryAid

mutual

/-- The files with one of some extensions at or under a node of a name. -/
def filesAt (extensions : List String) (components : List String) (name : String) :
    FileNode → List (List String)
  | .file _ => if hasExtension extensions name then [components] else []
  | .directory entries => filesIn extensions components entries

/-- The files with one of some extensions at or under entries of a directory. -/
def filesIn (extensions : List String) (components : List String) :
    List (String × FileNode) → List (List String)
  | [] => []
  | (name, node) :: rest =>
    filesAt extensions (components ++ [name]) name node ++ filesIn extensions components rest

end

/-- A path that cannot be searched, and why. -/
structure ScanError where
  path : String
  fault : FileFault
  deriving DecidableEq, Repr

/-- The wording of a scan error. -/
def ScanError.message (e : ScanError) : String :=
  let fault := e.fault.message
  let path := e.path
  s!"Failed to scan {path}: IO error for operation on {path}: {fault}: {fault}"

/-- The files at or under a path. -/
def filesUnder (t : FileTree) (extensions : List String) (path : String) :
    Except ScanError (List (List String)) :=
  match t.find path with
  | .error fault => .error ⟨path, fault⟩
  | .ok found => .ok (filesAt extensions found.components path found.node)

/-- The files found, by their full paths, and the path that was taken although its extension is none of those
asked for. -/
structure Discovery where
  files : List String
  forced : Option String
  deriving DecidableEq, Repr

/-- **The GraphQL files at or under some paths.** A single path that leads to a file is taken whatever its
extension. -/
def discover (t : FileTree) (extensions : List String) (paths : List String) : Except ScanError Discovery := do
  let found := (← paths.mapM (filesUnder t extensions)).flatten.map t.fullPath
  -- A path that was given alone is meant, whatever it is called.
  match found, paths with
  | [], [path] =>
    match t.find path with
    | .ok ⟨components, .file _⟩ => return ⟨[t.fullPath components], some (t.fullPath components)⟩
    | _ => return ⟨[], none⟩
  | _, _ => return ⟨found, none⟩

end QueryAid
