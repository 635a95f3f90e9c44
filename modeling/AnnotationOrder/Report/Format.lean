/-
  Reports as text.

  * `Report.text`: for readers, each finding with its line underlined;
  * `Report.json`: one JSON object;
  * `Report.porcelain`: one line for each finding, for scripts;
  * `Report.formatText`, `Report.formatJson`, `Report.formatPorcelain`: the same for any
    numbers; one with too many digits cannot be written.
-/
import AnnotationOrder.Document.Value
import AnnotationOrder.Report.Finding
import AnnotationOrder.Report.Json

namespace AnnotationOrder.Report

open AnnotationOrder.Order Document

/-- What identifies the issue in every format. -/
def issueId : String := "WrongAnnotationOrder"

/-- How severe the issue is. -/
def severity : String := "warning"

/-! ## For readers -/

/-- A character, a number of times; none for a negative number. -/
def repeated (c : Char) (n : Int) : String := String.ofList (List.replicate n.toNat c)

/-- Tildes under a stretch of a line, at least one. -/
def underline (s : Java.Span) : String :=
  repeated ' ' s.column ++ repeated '~' (max (s.endColumn - s.column) 1)

/-- The lines on a finding. -/
def Finding.textLines (f : Finding) : List String :=
  (f.filePath ++ ":" ++ toString f.line ++ ": Warning: " ++ f.violation.message
      ++ " [" ++ issueId ++ "]")
    :: match f.span with
      | some s => if f.sourceLine.isEmpty then [] else [f.sourceLine, underline s]
      | none => []

/-- A report for readers. -/
def text (r : Report) : String :=
  if r.findings.isEmpty then "No issues found."
  else "\n".intercalate (r.findings.flatMap Finding.textLines
    ++ ["0 errors, " ++ toString r.findings.length ++ " warnings"])

/-! ## JSON -/

/-- A finding as a JSON value. -/
def Finding.json (f : Finding) : Json :=
  .object [
    ("issue_id", .text issueId),
    ("severity", .text severity),
    ("file_path", .text f.filePath),
    ("line_number", .integer f.line),
    ("column", (f.column?.map Json.integer).getD .null),
    ("declaration", (f.subject.name.map Json.text).getD .null),
    ("declaration_kind", .text f.subject.kind),
    ("annotation", .text f.violation.misplaced.name),
    ("conflicts_with", .text f.violation.conflictsWith.name),
    ("rule_name", .text f.violation.constraint.name),
    ("expected_order", .list (f.violation.expectedOrder.map Json.text)),
    ("message", .text f.violation.message)]

/-- The counters of a report as a JSON value. -/
def summaryJson (r : Report) : Json :=
  .object [
    ("rules_loaded", .integer r.rulesLoaded),
    ("findings_count", .integer r.findings.length),
    ("files_scanned", .integer r.filesScanned),
    ("declarations_checked", .integer r.declarationsChecked),
    ("elapsed_ms", .float r.elapsed)]

/-- A report as a JSON value. -/
def jsonValue (r : Report) : Json :=
  .object [("findings", .list (r.findings.map Finding.json)), ("summary", r.summaryJson)]

/-- A report as a JSON text. -/
def json (r : Report) : String := r.jsonValue.toText

/-! ## For scripts -/

/-- The line on a finding: path, line, column, issue and the order proposed. -/
def Finding.porcelain (f : Finding) : String :=
  ":".intercalate [f.filePath, toString f.line, (f.column?.map toString).getD "", issueId,
    " ".intercalate (f.violation.expectedOrder.map ("@" ++ ·))]

/-- A report for scripts. -/
def porcelain (r : Report) : String := "\n".intercalate (r.findings.map Finding.porcelain)

/-! ## Numbers with too many digits -/

/-- The text of a report for readers. -/
def formatText (r : Report) : Except TextError String :=
  if r.findings.all (fun f => Number.isShort f.line) && Number.isShort r.findings.length then
    .ok r.text
  else .error .tooLong

/-- The JSON text of a report. -/
def formatJson (r : Report) : Except TextError String :=
  if r.jsonValue.isShort then .ok r.json else .error .tooLong

/-- The line and the column of a finding can be written. -/
def Finding.isShort (f : Finding) : Bool :=
  Number.isShort f.line && f.column?.all Number.isShort

/-- The text of a report for scripts. -/
def formatPorcelain (r : Report) : Except TextError String :=
  if r.findings.all Finding.isShort then .ok r.porcelain else .error .tooLong

end AnnotationOrder.Report
