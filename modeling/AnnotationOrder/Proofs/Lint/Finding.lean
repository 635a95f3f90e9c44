/-
  Where the findings of a run come from.

  * `mem_findings_runBy`: a finding is a violation on a declaration of a source that
    is neither excluded nor unreadable;
  * `misplaced_mem_of_mem_check`: the misplaced annotation of a violation is one of the
    declaration;
  * `return_not_mem_sourceText`: the text of a source has no `\r` left.
-/
import AnnotationOrder.Lint.Run
import AnnotationOrder.Proofs.Order.Recheck
import AnnotationOrder.Proofs.Text.Lines

namespace AnnotationOrder.Lint

open Project Rule AnnotationOrder.Order Java Text

/-! ## Findings and declarations -/

theorem mem_findings_scan {t : Table} {reportAll : Bool} {shown text : String}
    {f : Report.Finding} :
    f ∈ (scan t reportAll shown text).findings ↔ ∃ d ∈ declarations text,
      ∃ v ∈ check t reportAll (d.annotations.map (·.map some)),
        f = findingOn shown (lines text) d v := by
  simp [scan, Outcome.findings, findingsOn, List.mem_flatMap, eq_comm]

theorem mem_findings_outcome {w : Workspace} {r : Rules} {reportAll : Bool} {c : Candidate}
    {f : Report.Finding} :
    f ∈ (outcome w r reportAll c).findings ↔ excludedBy r.exclude c.shown = false ∧
      ∃ text, sourceText? w c.path = some text ∧
        f ∈ (scan r.table reportAll c.shown text).findings := by
  unfold outcome
  split_ifs with he
  · simp [he, Outcome.findings]
  · cases h : sourceText? w c.path with
    | none => simp [Outcome.findings]
    | some text => simp [he]

/-- **The findings of a run.** -/
theorem mem_findings_runBy {w : Workspace} {q : Request} {r : Rules} {f : Report.Finding} :
    f ∈ (runBy w q r).report.findings ↔ ∃ c ∈ candidates w q.project q.paths,
      excludedBy r.exclude c.shown = false ∧ ∃ text, sourceText? w c.path = some text ∧
        ∃ d ∈ declarations text, ∃ v ∈ check r.table q.reportAll (d.annotations.map (·.map some)),
          f = findingOn c.shown (lines text) d v := by
  simp [runBy, reportOn, Request.outcomes, List.mem_flatMap, mem_findings_outcome,
    mem_findings_scan]

theorem run_eq_ok_iff {w : Workspace} {q : Request} {r : Run} :
    run w q = .ok r ↔ ∃ rules, q.loadRules w = .ok rules ∧ r = runBy w q rules := by
  unfold run
  cases q.loadRules w with
  | error e => simp [Except.map]
  | ok rules => simp [Except.map, eq_comm]

/-! ## Violations and annotations -/

section
variable {L : Type} {t : Table} {reportAll : Bool} {as : List (Annot L)} {v : Violation L}

theorem mem_checkAll_of_mem_check (h : v ∈ check t reportAll as) : v ∈ checkAll t as := by
  rw [check_eq] at h
  split_ifs at h
  · exact h
  · exact List.mem_of_mem_take h

theorem misplaced_mem_of_mem_check (h : v ∈ check t reportAll as) : v.misplaced ∈ as := by
  obtain ⟨i, j, -, -, hv⟩ := mem_checkAll.1 (mem_checkAll_of_mem_check h)
  obtain ⟨x, y, o, -, hy, -, -, rfl⟩ := violationAt_eq_some_iff.1 hv
  exact List.mem_of_getElem? hy

end

/-! ## Texts of sources -/

theorem return_not_mem_sourceText {w : Workspace} {p : Path} {text : String}
    (h : sourceText? w p = some text) : '\r' ∉ text.toList := by
  simp only [sourceText?, Option.bind_eq_some_iff, sourceText] at h
  obtain ⟨bytes, -, h⟩ := h
  cases hd : Utf8.decode bytes with
  | error e => simp [hd, Except.map, Except.toOption] at h
  | ok s =>
    simp only [hd, Except.map, Except.toOption, Option.some.injEq] at h
    rw [← h]
    exact return_not_mem_unifyNewlines s

end AnnotationOrder.Lint
