import EntryLint.JsonDoc.Basic
import EntryLint.Rule.Basic
import EntryLint.Tool

/-!
# Reports

What a run found: broken rules with their places, files that could not be read, and counts. A report
is written as a JSON document or as text.
-/

namespace EntryLint

/-- A broken rule at an import. -/
structure Diagnostic where
  file : String
  span : Span
  ruleId : String
  messageId : String
  message : String
  severity : Severity
  importPath : String
  deriving DecidableEq, Repr

/-- A file that could not be read, and why. -/
structure SkippedFile where
  file : String
  reason : String
  deriving DecidableEq, Repr

/-- What a run found. -/
structure CheckReport where
  root : String := ""
  /-- The configuration file, if there is one. -/
  config : Option String := none
  filesChecked : Int := 0
  errorCount : Int := 0
  warningCount : Int := 0
  diagnostics : List Diagnostic := []
  skipped : List SkippedFile := []
  deriving DecidableEq, Repr

/-! ## JSON -/

namespace Diagnostic

/-- A broken rule as a document. -/
def json (d : Diagnostic) : JsonDoc :=
  .object
    [("file", .string d.file), ("line", .int d.span.line), ("column", .int d.span.column),
      ("endLine", .int d.span.endLine), ("endColumn", .int d.span.endColumn),
      ("ruleId", .string d.ruleId), ("messageId", .string d.messageId),
      ("message", .string d.message), ("severity", .string d.severity.name),
      ("importPath", .string d.importPath)]

end Diagnostic

namespace SkippedFile

/-- A skipped file as a document. -/
def json (s : SkippedFile) : JsonDoc :=
  .object [("file", .string s.file), ("reason", .string s.reason)]

end SkippedFile

namespace CheckReport

/-- The version of the form of reports. -/
def protocol : Int := 1

/-- A report as a document. -/
def json (r : CheckReport) : JsonDoc :=
  .object
    [("protocol", .int protocol), ("tool", .string Tool.name), ("version", .string Tool.version),
      ("root", .string r.root), ("config", .text? r.config), ("filesChecked", .int r.filesChecked),
      ("errorCount", .int r.errorCount), ("warningCount", .int r.warningCount),
      ("diagnostics", .array (r.diagnostics.map Diagnostic.json)),
      ("skipped", .array (r.skipped.map SkippedFile.json))]

end CheckReport

/-! ## Text -/

namespace Diagnostic

/-- The order of diagnostics in a text: by file, line, column and rule. -/
def before (a b : Diagnostic) : Bool :=
  if a.file ≠ b.file then a.file < b.file
  else if a.span.line ≠ b.span.line then a.span.line < b.span.line
  else if a.span.column ≠ b.span.column then a.span.column < b.span.column
  else a.ruleId < b.ruleId

/-- Diagnostics in order; equal ones keep theirs. -/
def sorted (ds : List Diagnostic) : List Diagnostic :=
  ds.mergeSort fun a b => !b.before a

/-- The line of a diagnostic. -/
def line (d : Diagnostic) : String :=
  "  " ++ toString d.span.line ++ ":" ++ toString d.span.column ++ "  " ++ d.severity.name ++
    "  " ++ d.message ++ "  " ++ d.ruleId

end Diagnostic

namespace CheckReport

/-- A count of things. -/
def counted (n : Int) (noun : String) : String :=
  toString n ++ " " ++ noun ++ (if n = 1 then "" else "s")

/-- The lines of the diagnostics of one file, with its name in front and an empty line behind. -/
def fileLines (ds : List Diagnostic) : List String :=
  (ds.head?.map Diagnostic.file).toList ++ ds.map Diagnostic.line ++ [""]

/-- The lines of all diagnostics. -/
def diagnosticLines (r : CheckReport) : List String :=
  ((Diagnostic.sorted r.diagnostics).splitBy fun a b => a.file = b.file).flatMap fileLines

/-- The lines of the files that were skipped. -/
def skippedLines (r : CheckReport) : List String :=
  if r.skipped.isEmpty then []
  else (r.skipped.map fun s => "skipped " ++ s.file ++ ": " ++ s.reason) ++ [""]

/-- The line with the counts, unless there is nothing to count. -/
def summaryLines (r : CheckReport) : List String :=
  let total := r.errorCount + r.warningCount
  if total = 0 then []
  else
    [counted total "problem" ++ " (" ++ counted r.errorCount "error" ++ ", " ++
      counted r.warningCount "warning" ++ ")"]

/-- A report as text; nothing at all if there is nothing to say. -/
def text (r : CheckReport) : String :=
  let lines := r.diagnosticLines ++ r.skippedLines ++ r.summaryLines
  if lines.isEmpty then "" else Text.join "\n" lines ++ "\n"

end CheckReport

end EntryLint
