import QueryAid.Cli.LogLevel
import QueryAid.Cli.Outcome
import QueryAid.Text.Terminal
/-!
# Responses

What a run of the program comes to, from its arguments, its input, the files and the setting of the log level.
-/

namespace QueryAid

/-- The name by which the program is called. -/
def programName : String := "graphql-assist"

/-- The program's name and version. -/
def versionText : String := programName ++ " 0.0.1"

/-- What a run of the program comes to. -/
inductive Response where
  | notice (n : Notice)
  | outcome (o : Outcome)
  deriving DecidableEq, Repr

/-- **A run of the program** with a setting of the log level. Without a subcommand it explains itself. Warnings
are shown if the log level lets them through, first the one about the log level, and go to a terminal. -/
def respond (t : FileTree) (input : List UInt8) (setting : Option String) (arguments : List String) :
    Response :=
  match Invocation.read arguments with
  | .error n => .notice n
  | .ok i =>
    match i.run t input with
    | none => .notice .help
    | some o =>
      let (level, warning) := LogLevel.resolve i.verbose setting
      let warnings := if level.shows .warn then (warning.toList ++ o.warnings).map shownText else []
      .outcome { o with warnings := warnings }

end QueryAid
