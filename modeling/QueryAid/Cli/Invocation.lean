import QueryAid.Cli.Occurrences
import QueryAid.Files.Extension
import QueryAid.Files.Tree
/-!
# Invocations

What a command line asks for. The flags for the schema, for the file extensions and for more records may stand
before or after the subcommand; those after it win.
-/

namespace QueryAid

/-- What is to be done. -/
inductive Command where
  /-- Complete the request in a file, or in the standard input if the path is a hyphen. -/
  | complete (request : String)
  /-- Lint the files at or under some paths. -/
  | lint (paths : List String) (json : Bool)
  deriving DecidableEq, Repr

/-- **What a command line asks for.** -/
structure Invocation where
  /-- The paths of the schema. -/
  schema : List String
  /-- The extensions of GraphQL files. -/
  extensions : List String
  verbose : Bool
  command : Option Command
  deriving DecidableEq, Repr

namespace Invocation

/-- The path of the request when none is given. -/
def standardInput : String := "-"

/-- Whether a path stands for the standard input: it is a hyphen. -/
def isStandardInput (path : String) : Bool := FileTree.isComponent standardInput path

/-- The first of two lists that holds something. -/
def firstGiven (a b : List String) : List String := if a.isEmpty then b else a

/-- What the two parts of a command line ask for. -/
def ofParts (before after : Occurrences) (command : Option Command) : Invocation where
  schema := firstGiven after.schema before.schema
  extensions := firstGiven (firstGiven after.extensions before.extensions) defaultExtensions
  verbose := before.verbose || after.verbose
  command := command

/-- What the part after a subcommand asks for. -/
def commandOf (c : Subcommand) (o : Occurrences) : Except Notice Command :=
  match c with
  | .complete => .ok (.complete (o.operands.head?.getD standardInput))
  | .lint => if o.operands.isEmpty then .error .missingOperand else .ok (.lint o.operands o.json)

/-- The part after a subcommand. -/
def readAfter (c : Subcommand) (arguments : List String) : Except Notice Occurrences := do
  (← arguments.foldlM (Occurrences.take (.under c)) .empty).settle

/-- The notice that the words after `help` call for. -/
def helpNotice : List String → Notice
  | [] => .help
  | [w] => if w == "help" || (Subcommand.ofText? w).isSome then .help else .unknownSubcommand
  | _ => .unknownSubcommand

/-- Reads a command line, the first arguments of which gave `o`. -/
def readFrom (o : Occurrences) : List String → Except Notice Invocation
  | [] => do return ofParts (← o.settle) .empty none
  | a :: rest =>
    -- A word that a flag waits for is its value, even if it names a subcommand.
    if o.separated || o.awaited?.isSome then do readFrom (← o.take .top a) rest
    else if a == "help" then .error (helpNotice rest)
    else match Subcommand.ofText? a with
      | none => do readFrom (← o.take .top a) rest
      | some c => do
        -- Faults after the subcommand are told before those of the last value in front of it.
        let after ← readAfter c rest
        let command ← commandOf c after
        return ofParts (← o.settle) after (some command)

/-- **Reads a command line.** -/
def read (arguments : List String) : Except Notice Invocation := readFrom .empty arguments

end Invocation

end QueryAid
