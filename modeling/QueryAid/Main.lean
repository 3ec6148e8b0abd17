import QueryAid.Cli.Response
/-!
# The program

The command line program: it reads from the disk what the invocation can need, lets the library respond, and prints.
-/

namespace QueryAid

namespace Program

/-- What stands at a place on the disk. The content of a file is read only if `wanted` says so of its name. -/
partial def readNode (wanted : String → Bool) (path name : String) : IO (Option FileNode) := do
  match ← (IO.FS.realPath path).toBaseIO with
  | .error _ => return none
  | .ok place =>
    if ← place.isDir then
      let names := (← place.readDir).toList.map fun e => e.fileName
      let sorted := names.mergeSort fun a b => decide (a ≤ b)
      let nodes ← sorted.filterMapM fun n => do
        return (← readNode wanted (path ++ "/" ++ n) n).map fun node => (n, node)
      return some (.directory nodes)
    else if wanted name then return some (.file (← IO.FS.readBinFile place).toList)
    else return some (.file [])

/-- What stands at a place on the disk, without anything in it. -/
def emptyNode (path : String) : IO (Option FileNode) := do
  match ← (IO.FS.realPath path).toBaseIO with
  | .error _ => return none
  | .ok place => return some (if ← place.isDir then .directory [] else .file [])

/-- The components of a path on the disk that lead somewhere. -/
def namesOf (path : String) : List String := (path.splitOn "/").filter fun c => c != "" && c != "."

/-- The path that some components are. -/
def pathOf (names : List String) : String := "/" ++ "/".intercalate names

/-- A tree with what stands on the disk on the way to a path, and with everything at and under it. -/
def addPath (wanted : String → Bool) (start : List String) (top : FileNode) (path : String) : IO FileNode := do
  let mut top := top
  let mut trail := if FileTree.isAbsolute path then [] else start
  for name in namesOf path do
    trail := if name == ".." then trail.dropLast else trail ++ [name]
    if let some node ← emptyNode (pathOf trail) then
      top := FileNode.update (fun old => old.getD node) trail (some top)
  match ← readNode wanted (pathOf trail) (trail.getLastD "") with
  | some node => return FileNode.update (fun _ => node) trail (some top)
  | none => return top

/-- The paths that an invocation names. -/
def pathsOf (i : Invocation) : List String :=
  i.schema ++ match i.command with
    | some (.lint paths _) => paths
    | some (.complete request) => if Invocation.isStandardInput request then [] else [request]
    | none => []

/-- Whether an invocation reads the standard input. -/
def readsInput (i : Invocation) : Bool :=
  match i.command with
  | some (.complete request) => Invocation.isStandardInput request
  | _ => false

/-- What is told about the command line. -/
def usage : String := "\n".intercalate
  ["Usage: " ++ programName ++ " [OPTIONS] [COMMAND]",
   "",
   "Commands:",
   "  complete [REQUEST_PATH]         Compute ranked completions for a cursor position",
   "  lint [--json] FILE_OR_DIR_PATHS...  Report syntax and validation problems in GraphQL documents",
   "  help [COMMAND]                  Print this message",
   "",
   "Options:",
   "      --graphql-file-exts EXTS    Set of file extensions to filter to when searching for files",
   "  -s, --schema PATHS              Paths to GraphQL schema files or directories containing them",
   "  -v, --verbose                   Enable verbose output",
   "  -h, --help                      Print help",
   "  -V, --version                   Print version"]

/-- What is told instead of doing something. -/
def noticeText : Notice → String
  | .help => usage
  | .version => versionText
  | .missingOperand => "error: a required argument was not provided\n\n" ++ usage
  | .unknownSubcommand => "error: unrecognized subcommand\n\n" ++ usage
  | .unknownArgument => "error: unexpected argument\n\n" ++ usage
  | .badValue => "error: a value is required but none was supplied\n\n" ++ usage
  | .surplusValue => "error: unexpected value for a flag\n\n" ++ usage
  | .repeatedFlag => "error: a flag cannot be used multiple times\n\n" ++ usage

/-- Prints a response, and gives its exit code. -/
def tell : Response → IO UInt32
  | .notice n => do
    if n.exitCode = 0 then IO.println (noticeText n) else IO.eprintln (noticeText n)
    return n.exitCode.toUInt32
  | .outcome o => do
    for w in o.warnings do IO.eprintln ("WARN " ++ w)
    if let some text := o.output then IO.println text
    if let some text := o.errorOutput then IO.eprintln text
    return o.exitCode.toUInt32

/-- The tree that an invocation looks at. -/
def treeOf (i : Invocation) : IO FileTree := do
  let start := namesOf (toString (← IO.currentDir))
  let extensions := normalizeExtensions i.extensions
  let named := (pathsOf i).filterMap fun p => (namesOf p).getLast?
  let wanted (n : String) : Bool := named.contains n || hasExtension extensions n
  let top ← (pathsOf i).foldlM (addPath wanted start) (FileNode.update (fun _ => .directory []) start none)
  return ⟨"/", start, top⟩

end Program

end QueryAid

open QueryAid in
/-- Runs the program. -/
def main (arguments : List String) : IO UInt32 := do
  let setting ← IO.getEnv "LOG_LEVEL"
  match Invocation.read arguments with
  | .error n => Program.tell (.notice n)
  | .ok i =>
    let t ← Program.treeOf i
    let input ← if Program.readsInput i then (← IO.getStdin).readBinToEnd else pure .empty
    Program.tell (respond t input.toList setting arguments)
