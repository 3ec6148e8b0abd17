import QueryAid.Text.CodePoint
import QueryAid.Text.WhiteSpace
/-!
# Log levels

How much is told to the user beside the results. A level is set by a switch or else by a setting, which is
a word or a number from one, for the fewest records, to five, for the most.
-/

namespace QueryAid

/-- The kinds of records, from the gravest on. -/
inductive LogLevel where
  | error | warn | info | debug | trace
  deriving DecidableEq, Repr

namespace LogLevel

/-- All levels, from the gravest on. -/
def all : List LogLevel := [error, warn, info, debug, trace]

/-- The name of a level. -/
def text : LogLevel → String
  | error => "ERROR"
  | warn => "WARN"
  | info => "INFO"
  | debug => "DEBUG"
  | trace => "TRACE"

/-- The number of a level. -/
def number : LogLevel → Nat
  | error => 1
  | warn => 2
  | info => 3
  | debug => 4
  | trace => 5

/-- Whether records of a kind are shown when the level is `limit`. -/
def shows (limit kind : LogLevel) : Bool := kind.number ≤ limit.number

/-- The level when nothing else is set. -/
def default : LogLevel := warn

/-- Whether two texts differ at most in the case of ASCII letters. -/
def sameWord (s t : String) : Bool := s.toList.map Char.toLower == t.toList.map Char.toLower

/-- The number that decimal digits stand for; a plus sign may precede them. -/
def number? (cs : List Char) : Option Nat :=
  let digits := match cs with
    | '+' :: rest => rest
    | _ => cs
  if !digits.isEmpty && digits.all Char.isDigit then some (natOfDigits digits) else none

/-- The level that a text names, by its name or by its number. -/
def ofText? (s : String) : Option LogLevel :=
  all.find? fun l => sameWord s l.text || number? s.toList == some l.number

/-- **The level that is set, and the warning about a setting that means nothing.** The switch comes
before the setting. -/
def resolve (verbose : Bool) (setting : Option String) : LogLevel × Option String :=
  if verbose then (debug, none)
  else
    let word := trim (setting.getD "")
    if word.isEmpty then (default, none)
    else if sameWord word "verbose" then (debug, none)
    else match ofText? word with
      | some l => (l, none)
      | none => (default, some s!"Invalid `LOG_LEVEL` environment variable value: `{word}`")

end LogLevel

end QueryAid
