import QueryAid.Json.Printer
import QueryAid.Lint.Diagnostic
/-!
# Lint reports

What is told about linted files, as text for people and as JSON for programs.
-/

namespace QueryAid

/-- A position as JSON. -/
def Position.json (p : Position) : Json :=
  .object [("line", .nat p.line), ("col_utf8", .nat p.column), ("col_utf16", .nat p.column16),
    ("byte_offset", .nat p.offset)]

/-- A diagnostic as JSON. -/
def Diagnostic.json (x : Diagnostic) : Json :=
  .object [("category", .string x.category.text), ("message", .string x.message),
    ("severity", .string Diagnostic.severity),
    ("span", .object [("start_inclusive", x.start.json), ("end_exclusive", x.stop.json)])]

/-- **A file and its diagnostics.** -/
structure FileReport where
  file : String
  diagnostics : List Diagnostic
  deriving DecidableEq, Repr

namespace FileReport

/-- A report as JSON. -/
def json (r : FileReport) : Json :=
  .object [("diagnostics", .array (r.diagnostics.map Diagnostic.json)), ("file", .string r.file)]

/-- The lines about a file. -/
def lines (r : FileReport) : List String := r.diagnostics.map fun x => r.file ++ ":" ++ x.text

/-- The number of diagnostics in all reports. -/
def problemCount (reports : List FileReport) : Nat := (reports.flatMap FileReport.diagnostics).length

/-- The reports in which there is a diagnostic. -/
def withProblems (reports : List FileReport) : List FileReport :=
  reports.filter fun r => !r.diagnostics.isEmpty

/-- **Reports as text:** a line for each diagnostic, and the totals. -/
def text (reports : List FileReport) : String :=
  let files := toString reports.length
  let problems := toString (problemCount reports)
  let bad := toString (withProblems reports).length
  if problemCount reports = 0 then s!"✅ No problems found in {files} files."
  else "\n".intercalate (reports.flatMap lines) ++ s!"\n❌ {problems} problems in {bad} of {files} files."

/-- **Reports as JSON.** -/
def jsonText (reports : List FileReport) : String := (Json.array (reports.map json)).pretty

end FileReport

end QueryAid
