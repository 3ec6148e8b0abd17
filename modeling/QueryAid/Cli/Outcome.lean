import QueryAid.Cli.Session
/-!
# Outcomes

What is left of an invocation when it is over: an exit code, what is printed, and the warnings. Exactly one of the
two outputs is there, the one for errors if the session failed.
-/

namespace QueryAid

/-- **What is left of a session.** -/
structure Outcome where
  exitCode : Nat
  output : Option String
  errorOutput : Option String
  /-- The warnings, in order. -/
  warnings : List String
  deriving DecidableEq, Repr

namespace Outcome

/-- The outcome of a session, when a result is told as `report` says. -/
def ofSession {α : Type} (report : α → Nat × String) (session : Session α) : Outcome :=
  match StateT.run (ExceptT.run session) [] with
  | (.error message, warnings) => ⟨1, none, some ("❌ " ++ message), warnings⟩
  | (.ok a, warnings) => ⟨(report a).1, some (report a).2, none, warnings⟩

/-- How reports are told: with a failure if there are problems. -/
def ofReports (json : Bool) (reports : List FileReport) : Nat × String :=
  (if FileReport.problemCount reports = 0 then 0 else 1,
    if json then FileReport.jsonText reports else FileReport.text reports)

/-- How completions are told. -/
def ofCompletions (c : Option Completions) : Nat × String := (0, (Json.ofOption Completions.json c).pretty)

end Outcome

/-- **Does what an invocation asks for.** -/
def Invocation.run (t : FileTree) (input : List UInt8) (i : Invocation) : Option Outcome :=
  i.command.map fun
    | .lint paths json => .ofSession (Outcome.ofReports json) (Session.lintFiles t i paths)
    | .complete request => .ofSession Outcome.ofCompletions (Session.completeRequest t input i request)

end QueryAid
