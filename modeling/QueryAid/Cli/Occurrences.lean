import QueryAid.Cli.Flag
/-!
# What a part of a command line gives

The arguments of a part are taken one after the other. The values of a flag, and operands that stand side by
side, are checked together when the next thing is met, which decides which of two faults is told.
-/

namespace QueryAid

/-- **What is told instead of doing something.** -/
inductive Notice where
  | help
  | version
  | missingOperand
  | unknownSubcommand
  | unknownArgument
  /-- A value is missing or empty. -/
  | badValue
  /-- A flag that takes no value has one. -/
  | surplusValue
  | repeatedFlag
  deriving DecidableEq, Repr

/-- How the program exits after a notice: with success if the notice is what was asked for. -/
def Notice.exitCode : Notice → Nat
  | help | version => 0
  | _ => 2

/-- What the arguments of a part gave so far. -/
structure Occurrences where
  schema : List String
  extensions : List String
  verbose : Bool
  json : Bool
  operands : List String
  /-- The values that were given last and are not checked yet. A flag that waits for its value has none. -/
  pending : Option (Slot × List String)
  /-- Whether the separator was met. -/
  separated : Bool
  deriving DecidableEq, Repr

namespace Occurrences

/-- Nothing. -/
def empty : Occurrences := ⟨[], [], false, false, [], none, false⟩

/-- The items of lists with commas between them. -/
def commaItems (values : List String) : List String := values.flatMap fun v => v.splitOn ","

/-- Checks values and keeps them. Paths must not be empty. -/
def store (o : Occurrences) (slot : Slot) (values : List String) : Except Notice Occurrences :=
  let items := if slot = .operands then values else commaItems values
  if items.isEmpty || (slot != .extensions && items.any String.isEmpty) then .error .badValue
  else match slot with
    | .schema => .ok { o with schema := o.schema ++ items }
    | .extensions => .ok { o with extensions := o.extensions ++ items }
    | .operands => .ok { o with operands := o.operands ++ items }

/-- Checks and keeps the values that are pending. -/
def settle (o : Occurrences) : Except Notice Occurrences :=
  match o.pending with
  | none => .ok o
  | some (slot, values) => { o with pending := none }.store slot values

/-- The slot of the flag that waits for its value. -/
def awaited? (o : Occurrences) : Option Slot :=
  match o.pending with
  | some (slot, []) => some slot
  | _ => none

/-- Takes a flag together with its value. -/
def give (o : Occurrences) (slot : Slot) (value : String) : Except Notice Occurrences := do
  (← o.settle).store slot [value]

/-- Takes a flag whose value comes next. -/
def await (o : Occurrences) (slot : Slot) : Except Notice Occurrences := do
  return { ← o.settle with pending := some (slot, []) }

/-- Takes a flag without a value. -/
def raise (o : Occurrences) (f : Flag) : Except Notice Occurrences := do
  let o ← o.settle
  match f with
  | .help => throw .help
  | .version => throw .version
  | .verbose => if o.verbose then throw .repeatedFlag else return { o with verbose := true }
  | .json => if o.json then throw .repeatedFlag else return { o with json := true }
  | .schema | .extensions => return o

/-- Takes a flag after two hyphens. -/
def takeLong (s : Scope) (o : Occurrences) (name : String) (value : Option String) :
    Except Notice Occurrences :=
  match s.long? name with
  | none => .error .unknownArgument
  | some f =>
    match f.slot?, value with
    | some slot, some v => o.give slot v
    | some slot, none => o.await slot
    | none, some _ => .error .surplusValue
    | none, none => o.raise f

/-- Takes flags after one hyphen. -/
def takeShort (s : Scope) (o : Occurrences) : List Char → Except Notice Occurrences
  | [] => .ok o
  | c :: cs =>
    match s.short? c with
    | none => .error .unknownArgument
    | some f =>
      match f.slot?, cs with
      | some slot, [] => o.await slot
      | some slot, '=' :: v => o.give slot (String.ofList v)
      | some slot, v => o.give slot (String.ofList v)
      | none, cs =>
        match o.raise f with
        | .error e => .error e
        | .ok o => takeShort s o cs

/-- The operands that came just before. -/
def pendingOperands (o : Occurrences) : List String :=
  match o.pending with
  | some (.operands, values) => values
  | _ => []

/-- Takes one more operand. -/
def addOperand (o : Occurrences) (w : String) : Except Notice Occurrences :=
  match o.pendingOperands with
  | [] => do return { ← o.settle with pending := some (.operands, [w]) }
  | values => .ok { o with pending := some (.operands, values ++ [w]) }

/-- Takes an argument that is no flag and no value of a flag. Linting has any number of operands, completing
has one, and before the subcommand there is none. -/
def takeOperand (s : Scope) (o : Occurrences) (w : String) : Except Notice Occurrences :=
  match s with
  | .top =>
    if o.separated && (w == "help" || (Subcommand.ofText? w).isSome) then .error .unknownArgument
    else .error .unknownSubcommand
  | .under .complete =>
    if o.operands.isEmpty && o.pendingOperands.isEmpty then o.addOperand w
    else .error .unknownArgument
  | .under .lint => o.addOperand w

/-- **Takes an argument.** -/
def take (s : Scope) (o : Occurrences) (argument : String) : Except Notice Occurrences :=
  if o.separated then o.takeOperand s argument
  else match ArgumentForm.ofText argument with
    -- A flag that waits for its value goes on waiting, in vain.
    | .separator => .ok { o with separated := true }
    | .long name value => o.takeLong s name value
    | .short letters => o.takeShort s letters
    | .word w =>
      match o.awaited? with
      | some slot => .ok { o with pending := some (slot, [w]) }
      | none => o.takeOperand s w

end Occurrences

end QueryAid
