/-
  Runs over the sources of a project.

  Every source that a run comes across is looked at on its own, with an outcome:
  it is excluded, cannot be read, or is scanned.  The report and the log of a run
  are put together from the outcomes in their order.

  * `outcome`: what becomes of one source;
  * `reportOn`: the report on a list of outcomes, with `findings_reportOn_append`;
  * `run`: the run that a request asks for;
  * `Failure`: why there is no run.
-/
import AnnotationOrder.Java.Tree
import AnnotationOrder.Lint.Rules
import AnnotationOrder.Project.Discovery
import AnnotationOrder.Report.Finding
import AnnotationOrder.Rule.Warning
import AnnotationOrder.Text.Lines

namespace AnnotationOrder.Lint

open Project Rule AnnotationOrder.Order Java Text

/-! ## Findings -/

/-- The text of a source: line ends do not matter. -/
def sourceText (bytes : List UInt8) : Except Utf8.DecodeError String :=
  (Utf8.decode bytes).map unifyNewlines

/-- The text of the source that a path leads to. -/
def sourceText? (w : Workspace) (path : Path) : Option String :=
  (w.file? path).bind fun bytes => (sourceText bytes).toOption

/-- A line by its number, counted from one; empty if there is none. -/
def lineAt (ls : List String) (n : Int) : String := if 0 < n then ls.getD (n - 1).toNat "" else ""

/-- A violation on a declaration as a finding. -/
def findingOn (shown : String) (ls : List String) (d : Declaration) (v : Violation (Option Span)) :
    Report.Finding :=
  { filePath := shown
    subject := .ofDeclaration d
    violation := v
    sourceLine := lineAt ls ((v.misplaced.location.map (·.line)).getD d.line) }

/-- The findings on a declaration. -/
def findingsOn (t : Table) (reportAll : Bool) (shown : String) (ls : List String)
    (d : Declaration) : List Report.Finding :=
  (check t reportAll (d.annotations.map (·.map some))).map (findingOn shown ls d)

/-! ## Outcomes -/

/-- What becomes of a source. -/
inductive Outcome
  | excluded (shown : String)
  | unreadable (path : Path)
  | scanned (shown : String) (declarations : List Declaration) (findings : List Report.Finding)

namespace Outcome

/-- The findings of an outcome. -/
def findings : Outcome → List Report.Finding
  | scanned _ _ fs => fs
  | _ => []

/-- Whether a source was scanned. -/
def isScanned : Outcome → Bool
  | scanned _ _ _ => true
  | _ => false

/-- The declarations that were checked. -/
def declarations : Outcome → List Declaration
  | scanned _ ds _ => ds
  | _ => []

/-- What is logged about an outcome. -/
def record : Outcome → Record
  | excluded shown => ⟨.debug, .linter, "Excluded by config: " ++ shown⟩
  | unreadable path => ⟨.warning, .linter, "Cannot read file: " ++ path.text⟩
  | scanned shown ds _ =>
    ⟨.debug, .linter,
      "Scanned " ++ shown ++ ": " ++ toString ds.length ++ " annotated declarations"⟩

end Outcome

/-- What becomes of the text of a source. -/
def scan (t : Table) (reportAll : Bool) (shown text : String) : Outcome :=
  let ds := Java.declarations text
  .scanned shown ds (ds.flatMap (findingsOn t reportAll shown (lines text)))

/-- What becomes of a source. -/
def outcome (w : Workspace) (r : Rules) (reportAll : Bool) (c : Candidate) : Outcome :=
  if excludedBy r.exclude c.shown then .excluded c.shown
  else match sourceText? w c.path with
    | none => .unreadable c.path
    | some text => scan r.table reportAll c.shown text

/-- The report on a list of outcomes. -/
def reportOn (t : Table) (os : List Outcome) : Report where
  findings := os.flatMap Outcome.findings
  rulesLoaded := t.size
  filesScanned := os.countP Outcome.isScanned
  declarationsChecked := (os.flatMap Outcome.declarations).length

/-- The findings on more outcomes follow. -/
theorem findings_reportOn_append (t : Table) (os ps : List Outcome) :
    (reportOn t (os ++ ps)).findings = (reportOn t os).findings ++ (reportOn t ps).findings := by
  simp [reportOn]

/-! ## Runs -/

/-- What a run is asked to do. -/
structure Request where
  project : Path
  /-- The file with the rules, in place of the one of the project. -/
  rules : Option Path := none
  /-- Where to look, in place of the whole project. -/
  paths : List Path := []
  /-- Whether to report all violations of a declaration. -/
  reportAll : Bool := false

/-- What a run finds. -/
structure Run where
  report : Report
  warnings : List Warning
  log : List Record

/-- Why there is no run. -/
inductive Failure
  | rulesNotFound (path : Path)
  | rules (path : Path) (e : RulesFault)

/-- The text of a failure. -/
def Failure.message : Failure → Option String
  | rulesNotFound path => some ("Rules file not found: " ++ path.text)
  | rules path e =>
    (e.message path.name).map fun s =>
      if e.isMalformed then "Cannot parse " ++ path.name ++ ": " ++ s
      else "Invalid rules configuration: " ++ s

/-- The rules that a request asks for.  A file asked for has to exist. -/
def Request.loadRules (w : Workspace) (q : Request) : Except Failure Rules :=
  let path := Rules.pathFor q.project q.rules
  if q.rules.isSome && !w.isFile path then .error (.rulesNotFound path)
  else (Rules.ofFile w path).mapError (.rules path)

/-- What becomes of the sources that a request asks for. -/
def Request.outcomes (w : Workspace) (q : Request) (r : Rules) : List Outcome :=
  (candidates w q.project q.paths).map (outcome w r q.reportAll)

/-- A warning as it is logged. -/
def warningRecord (warning : Warning) : Record := ⟨.warning, .linter, warning.message⟩

/-- What is logged at the end of a run. -/
def closingRecord (r : Report) : Record :=
  ⟨.info, .linter, "Checked " ++ toString r.declarationsChecked ++ " declarations in "
    ++ toString r.filesScanned ++ " files: " ++ toString r.findings.length ++ " findings"⟩

/-- The run by the rules given. -/
def runBy (w : Workspace) (q : Request) (r : Rules) : Run :=
  let os := q.outcomes w r
  let report := reportOn r.table os
  let warnings := r.table.warnings
  { report, warnings
    log := r.log ++ warnings.map warningRecord ++ os.map Outcome.record ++ [closingRecord report] }

/-- The run that a request asks for. -/
def run (w : Workspace) (q : Request) : Except Failure Run := (q.loadRules w).map (runBy w q)

end AnnotationOrder.Lint
