import QueryAid.Cli.FileReport
import QueryAid.Cli.Invocation
import QueryAid.Editor.Completion
import QueryAid.Editor.Request
import QueryAid.Files.Discovery
import QueryAid.Files.Loading
import QueryAid.Text.Quoted
/-!
# Sessions

What an invocation does on a tree of files: it loads the schema, and then lints files or completes a request. It
may give warnings on its way, which stand even if it fails in the end.
-/

namespace QueryAid

/-- A computation that gives warnings, and that may fail with a message. -/
abbrev Session (α : Type) : Type := ExceptT String (StateM (List String)) α

namespace Session

/-- Gives a warning. -/
def warn (message : String) : Session Unit := modify fun ws => ws ++ [message]

/-- Extensions as a list in a sentence. -/
def extensionList (extensions : List String) : String :=
  ", ".intercalate (extensions.map fun e => s!"`{e}`")

/-- Finds the files with some extensions at or under some paths. -/
def find (t : FileTree) (extensions paths : List String) : Session (List String) := do
  let extensions := normalizeExtensions extensions
  match discover t extensions paths with
  | .error e => throw e.message
  | .ok found =>
    if let some path := found.forced then
      let path := quoted path
      let listed := extensionList extensions
      warn s!"Proceeding with {path} even though it doesn't match any of the --graphql-file-exts ({listed})."
    return found.files

/-- The causes of a build error, each one the cause of the one before it. -/
def causes : BuildError → List String
  | .fileRead (.refused path reason) => [(FileReadError.refused path reason).message, reason]
  | .fileRead cause => [cause.message]
  | _ => []

/-- The wording of what keeps a schema from being built, with its causes. -/
def buildFailure (e : BuildError) : String := ": ".intercalate (e.message :: causes e)

/-- The schema in some files. -/
def schemaOfFiles (t : FileTree) (files : List String) : Except BuildError Schema := do
  (← SchemaBuilder.loadFiles t .new files).build

/-- **Loads the schema** of an invocation, if it names one. -/
def loadSchema (t : FileTree) (i : Invocation) : Session (Option Schema) := do
  if i.schema.isEmpty then return none
  let files ← find t i.extensions i.schema
  if files.isEmpty then throw ("No schema files found at " ++ quotedList i.schema ++ ".")
  match schemaOfFiles t files with
  | .error e => throw ("Failed to build the schema: " ++ buildFailure e)
  | .ok s => return some s

/-- The wording of octets that are no UTF-8. -/
def notText : String := "stream did not contain valid UTF-8"

/-- Reads a file. -/
def readText (t : FileTree) (path : String) : Session String :=
  match t.read path with
  | .error fault => throw (s!"Failed to read {path}: " ++ fault.message)
  | .ok octets =>
    match decodeUtf8 octets with
    | .error _ => throw (s!"Failed to read {path}: " ++ notText)
    | .ok text => return text

/-! ### Linting -/

/-- Lints a file. -/
def lintFile (t : FileTree) (s : Option Schema) (path : String) : Session FileReport := do
  return ⟨path, lint (← readText t path).toList s⟩

/-- **Lints files.** -/
def lintFiles (t : FileTree) (i : Invocation) (paths : List String) : Session (List FileReport) := do
  let s ← loadSchema t i
  if s.isNone then warn "No --schema given; only syntax will be checked."
  (← find t i.extensions paths).mapM (lintFile t s)

/-! ### Completing -/

/-- Reads a request. -/
def readRequest (t : FileTree) (input : List UInt8) (path : String) : Session String :=
  if Invocation.isStandardInput path then
    match decodeUtf8 input with
    | .error _ => throw ("Failed to read the request from stdin: " ++ notText)
    | .ok text => return text
  else readText t path

/-- The completions of a request. -/
def completionsOf (s : Option Schema) (r : CompletionRequest) : Option Completions :=
  (ParserState.ofFrames? r.state).bind (complete s r.token)

/-- **Completes a request.** -/
def completeRequest (t : FileTree) (input : List UInt8) (i : Invocation) (path : String) :
    Session (Option Completions) := do
  let s ← loadSchema t i
  match CompletionRequest.parse? (← readRequest t input path) with
  | none => throw "Invalid completion request"
  | some r => return completionsOf s r

end Session

end QueryAid
