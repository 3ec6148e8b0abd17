/-!
# Flags

The flags of the command line, the values that some of them take, where each of them may stand, and the forms
that an argument can have.
-/

namespace QueryAid

/-- What collects the values of a command line. -/
inductive Slot where
  | schema
  | extensions
  /-- The arguments that belong to no flag. -/
  | operands
  deriving DecidableEq, Repr

/-- A flag. -/
inductive Flag where
  | schema | extensions | verbose | json | help | version
  deriving DecidableEq, Repr

namespace Flag

/-- What follows two hyphens. -/
def long : Flag → String
  | schema => "schema"
  | extensions => "graphql-file-exts"
  | verbose => "verbose"
  | json => "json"
  | help => "help"
  | version => "version"

/-- What follows one hyphen. -/
def short? : Flag → Option Char
  | schema => some 's'
  | verbose => some 'v'
  | help => some 'h'
  | version => some 'V'
  | extensions | json => none

/-- Where the value of a flag goes, if it takes one. -/
def slot? : Flag → Option Slot
  | schema => some .schema
  | extensions => some .extensions
  | verbose | json | help | version => none

end Flag

/-- What can be done. -/
inductive Subcommand where
  | complete | lint
  deriving DecidableEq, Repr

namespace Subcommand

/-- The subcommand of a name. -/
def ofText? : String → Option Subcommand
  | "complete" => some complete
  | "lint" => some lint
  | _ => none

end Subcommand

/-- The two parts of a command line: what stands before the subcommand, and what stands after it. -/
inductive Scope where
  | top
  | under (subcommand : Subcommand)
  deriving DecidableEq, Repr

namespace Scope

/-- The flags that may stand in a part. -/
def flags : Scope → List Flag
  | top => [.schema, .extensions, .verbose, .help, .version]
  | under .complete => [.schema, .extensions, .verbose, .help]
  | under .lint => [.schema, .extensions, .verbose, .help, .json]

/-- The flag that a word after two hyphens means. -/
def long? (s : Scope) (name : String) : Option Flag := s.flags.find? fun f => f.long == name

/-- The flag that a letter after one hyphen means. -/
def short? (s : Scope) (c : Char) : Option Flag := s.flags.find? fun f => f.short? == some c

end Scope

/-- **The form of an argument.** -/
inductive ArgumentForm where
  /-- Two hyphens. What comes after them is no flag. -/
  | separator
  /-- A flag after two hyphens, and what follows an equals sign in it. -/
  | long (name : String) (value : Option String)
  /-- Flags after one hyphen. The last of them may be followed by its value. -/
  | short (letters : List Char)
  | word (text : String)
  deriving DecidableEq, Repr

/-- The form of an argument. One hyphen alone is a word. -/
def ArgumentForm.ofText (s : String) : ArgumentForm :=
  match s.toList with
  | ['-', '-'] => separator
  | '-' :: '-' :: cs =>
    let name := String.ofList (cs.takeWhile fun c => c != '=')
    match cs.dropWhile fun c => c != '=' with
    | [] => long name none
    | _ :: value => long name (some (String.ofList value))
  | '-' :: c :: cs => short (c :: cs)
  | _ => word s

end QueryAid
