/-!
# File trees

Files and directories as a program sees them: a tree, a working directory in it, and paths that lead from one of
the two to a file or directory. There are no links.
-/

namespace QueryAid

/-- **A file or a directory.** -/
inductive FileNode where
  | file (octets : List UInt8)
  /-- The entries are sorted by name. -/
  | directory (entries : List (String × FileNode))

instance : Inhabited FileNode := ⟨.directory []⟩

namespace FileNode

/-- Entries with the one of a name made anew from what it was, or added in its place in the order. -/
def updateEntry (name : String) (f : Option FileNode → FileNode) :
    List (String × FileNode) → List (String × FileNode)
  | [] => [(name, f none)]
  | (n, node) :: rest =>
    if name == n then (n, f (some node)) :: rest
    else if name < n then (name, f none) :: (n, node) :: rest
    else (n, node) :: updateEntry name f rest

/-- A tree in which what some components lead to is made anew from what it was; the directories on the way
are added where they are missing. -/
def update (f : Option FileNode → FileNode) : List String → Option FileNode → FileNode
  | [], node => f node
  | c :: cs, some (.directory entries) => .directory (updateEntry c (update f cs) entries)
  | c :: cs, _ => .directory [(c, update f cs none)]

end FileNode

/-- Why a path leads nowhere, or what it leads to cannot be read. -/
inductive FileFault where
  | notFound
  | notADirectory
  | isADirectory
  /-- A component or the whole path is longer than a file system takes. -/
  | nameTooLong
  /-- No name holds the character that ends one for the operating system. -/
  | nulInPath
  deriving DecidableEq, Repr

/-- The wording of a fault, with the number of those that the operating system tells. -/
def FileFault.message : FileFault → String
  | notFound => "No such file or directory (os error 2)"
  | notADirectory => "Not a directory (os error 20)"
  | isADirectory => "Is a directory (os error 21)"
  | nameTooLong => "File name too long (os error 36)"
  | nulInPath => "file name contained an unexpected NUL byte"

/-- **A tree of files** and the place in it where paths start. -/
structure FileTree where
  /-- What stands before the first component of a path written in full. -/
  rootName : String
  /-- The components of the working directory. -/
  workingDirectory : List String
  /-- The root. -/
  top : FileNode

/-- What a path leads to, and its components from the root. -/
structure FoundNode where
  components : List String
  node : FileNode

namespace FileTree

/-- The entry of a name. -/
def child? (entries : List (String × FileNode)) (name : String) : Option FileNode :=
  (entries.find? fun e => e.1 == name).map Prod.snd

/-- A place in a tree: the names on the way to it and what they lead to, innermost first. -/
abbrev Trail := List (String × FileNode)

/-- What a trail leads to. -/
def current (t : FileTree) (trail : Trail) : FileNode := (trail.head?.map Prod.snd).getD t.top

/-- How many octets a component has at most. -/
def longestName : Nat := 255

/-- How many octets a path has at most. -/
def longestPath : Nat := 4095

/-- One component further. Whatever the component is, there must be a directory to take it in. -/
def step (t : FileTree) (trail : Trail) (component : String) : Except FileFault Trail :=
  match t.current trail with
  | .file _ => .error .notADirectory
  | .directory entries =>
    if component == "" || component == "." then .ok trail
    else if component == ".." then .ok trail.tail
    else if component.utf8ByteSize > longestName then .error .nameTooLong
    else match child? entries component with
      | some node => .ok ((component, node) :: trail)
      | none => .error .notFound

/-- The components of a path, with an empty one for each slash that has nothing before or after it. -/
def components (path : String) : List String := path.splitOn "/"

/-- Whether a path is a single component of the given name. What follows it may only lead from a place to itself;
nothing comes before it. -/
def isComponent (name path : String) : Bool :=
  match components path with
  | [] => false
  | first :: rest => first == name && rest.all fun c => c == "" || c == "."

/-- Whether a path starts at the root. -/
def isAbsolute (path : String) : Bool := path.toList.head? == some '/'

/-- **What a path leads to.** What is wrong with the path as a whole is told first. -/
def find (t : FileTree) (path : String) : Except FileFault FoundNode := do
  if path.toList.contains '\x00' then throw .nulInPath
  if path.isEmpty then throw .notFound
  if path.utf8ByteSize > longestPath then throw .nameTooLong
  let start ← if isAbsolute path then pure [] else t.workingDirectory.foldlM t.step []
  let trail ← (components path).foldlM t.step start
  return ⟨(trail.map Prod.fst).reverse, t.current trail⟩

/-- A path written in full. -/
def fullPath (t : FileTree) (components : List String) : String :=
  t.rootName ++ "/".intercalate components

/-- The octets of the file that a path leads to. -/
def read (t : FileTree) (path : String) : Except FileFault (List UInt8) := do
  match (← t.find path).node with
  | .file octets => return octets
  | .directory _ => throw .isADirectory

end FileTree

end QueryAid
