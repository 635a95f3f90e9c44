/-
  The declarations that a run checks.

  The findings of a run are the findings on these declarations, one declaration after the
  other.  Which declarations are checked does not depend on how many of their violations are
  asked for.

  * `Request.checked`: the declarations of the sources that are visited and can be read;
  * `findings_runBy`, `declarationsChecked_runBy`: the report in terms of them;
  * `KeepsFirst`: the report with the first finding on each declaration beside the one with all
    findings, with `keepsFirst_runBy`.
-/
import AnnotationOrder.Proofs.Lint.Paths

namespace AnnotationOrder.Lint

open Project Rule AnnotationOrder.Order Java Text

variable {w : Workspace} {q : Request} {r : Rules} {c : Candidate} {t : Table}

/-- A declaration that is checked, with the path and the lines of its source. -/
structure Checked where
  shown : String
  lines : List String
  declaration : Declaration

/-- The findings on a declaration that is checked. -/
def Checked.findings (t : Table) (reportAll : Bool) (x : Checked) : List Report.Finding :=
  findingsOn t reportAll x.shown x.lines x.declaration

/-- The declarations that are checked in a source. -/
def checkedIn (w : Workspace) (c : Candidate) : List Checked :=
  match sourceText? w c.path with
  | none => []
  | some text => (declarations text).map fun d => ⟨c.shown, lines text, d⟩

/-- The declarations that a run checks, one source after the other. -/
def Request.checked (w : Workspace) (q : Request) (r : Rules) : List Checked :=
  (visited w q.project q.paths r.exclude).flatMap (checkedIn w)

/-- The findings on a declaration, when only one is asked for, are the first of all. -/
theorem Checked.findings_false (t : Table) (x : Checked) :
    x.findings t false = (x.findings t true).take 1 := by
  rw [Checked.findings, Checked.findings, findingsOn, findingsOn, check_eq, check_true,
    if_neg Bool.false_ne_true, List.map_take]

/-! ## Reports in terms of declarations -/

theorem outcome_of_mem_visited {reportAll : Bool}
    (h : c ∈ visited w q.project q.paths r.exclude) : outcome w r reportAll c =
      match sourceText? w c.path with
      | none => .unreadable c.path
      | some text => scan r.table reportAll c.shown text := by
  have hkept : excludedBy r.exclude c.shown = false := by
    simpa using (List.mem_filter.1 h).2
  rw [outcome, hkept]
  rfl

theorem findings_outcome_of_mem_visited {reportAll : Bool}
    (h : c ∈ visited w q.project q.paths r.exclude) :
    (outcome w r reportAll c).findings =
      (checkedIn w c).flatMap (Checked.findings r.table reportAll) := by
  rw [outcome_of_mem_visited h, checkedIn]
  cases sourceText? w c.path with
  | none => rfl
  | some text =>
    simp only [List.flatMap_map]
    rfl

theorem length_declarations_outcome_of_mem_visited {reportAll : Bool}
    (h : c ∈ visited w q.project q.paths r.exclude) :
    (outcome w r reportAll c).declarations.length = (checkedIn w c).length := by
  rw [outcome_of_mem_visited h, checkedIn]
  cases sourceText? w c.path with
  | none => rfl
  | some text => exact (List.length_map ..).symm

/-- The findings of a run, one declaration after the other. -/
theorem findings_runBy (w : Workspace) (q : Request) (r : Rules) :
    (runBy w q r).report.findings =
      (q.checked w r).flatMap (Checked.findings r.table q.reportAll) := by
  have hreport : (runBy w q r).report.findings = _ :=
    congrArg (·.findings) (reportOn_visited r.table)
  rw [hreport, reportOn, List.flatMap_map, Request.checked, List.flatMap_assoc]
  exact List.flatMap_congr fun c hc => findings_outcome_of_mem_visited hc

theorem declarationsChecked_runBy (w : Workspace) (q : Request) (r : Rules) :
    (runBy w q r).report.declarationsChecked = (q.checked w r).length := by
  have hreport : (runBy w q r).report.declarationsChecked = _ :=
    congrArg (·.declarationsChecked) (reportOn_visited r.table)
  have hlength : (((visited w q.project q.paths r.exclude).map (outcome w r q.reportAll)).flatMap
      Outcome.declarations).length = (q.checked w r).length := by
    rw [List.flatMap_map, Request.checked, List.length_flatMap, List.length_flatMap]
    congr 1
    exact List.map_congr_left fun c hc => length_declarations_outcome_of_mem_visited hc
  rw [hreport]
  exact congrArg Nat.cast hlength

/-- The sources that are scanned do not depend on what is asked for. -/
theorem filesScanned_runBy (w : Workspace) (q : Request) (r : Rules) (reportAll : Bool) :
    (runBy w { q with reportAll } r).report.filesScanned =
      (runBy w { q with reportAll := true } r).report.filesScanned := by
  simp only [runBy, reportOn, Request.outcomes, List.countP_map]
  congr 2
  funext c
  simp only [Function.comp_apply, outcome]
  split_ifs
  · rfl
  · cases sourceText? w c.path with
    | none => rfl
    | some text => rfl

/-! ## One finding for each declaration -/

/-- Of two reports on the declarations that are checked, one has all findings on each of them, and
    the other just the first. -/
structure KeepsFirst (t : Table) (xs : List Checked) (first all : Report) : Prop where
  allFindings : all.findings = xs.flatMap (Checked.findings t true)
  firstFindings : first.findings = xs.flatMap fun x => (x.findings t true).take 1
  declarations : all.declarationsChecked = xs.length
  declarationsChecked : first.declarationsChecked = all.declarationsChecked
  filesScanned : first.filesScanned = all.filesScanned
  rulesLoaded : first.rulesLoaded = all.rulesLoaded

theorem keepsFirst_runBy (w : Workspace) (q : Request) (r : Rules) :
    KeepsFirst r.table (q.checked w r) (runBy w { q with reportAll := false } r).report
      (runBy w { q with reportAll := true } r).report where
  allFindings := findings_runBy w { q with reportAll := true } r
  firstFindings := by
    rw [findings_runBy]
    exact List.flatMap_congr fun x _ => x.findings_false r.table
  declarations := declarationsChecked_runBy w { q with reportAll := true } r
  declarationsChecked := by
    rw [declarationsChecked_runBy, declarationsChecked_runBy]
    rfl
  filesScanned := filesScanned_runBy w q r false
  rulesLoaded := rfl

/-- There is a first finding just when there is one. -/
theorem KeepsFirst.findings_eq_nil_iff {xs : List Checked} {first all : Report}
    (h : KeepsFirst t xs first all) : first.findings = [] ↔ all.findings = [] := by
  rw [h.firstFindings, h.allFindings, List.flatMap_eq_nil_iff, List.flatMap_eq_nil_iff]
  refine forall₂_congr fun x _ => ?_
  rw [List.take_eq_nil_iff]
  exact or_iff_right Nat.one_ne_zero

end AnnotationOrder.Lint
