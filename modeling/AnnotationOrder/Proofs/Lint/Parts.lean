/-
  What the report of a run is put together from.

  A report adds up what becomes of each source.  So it falls into the reports on parts of
  the sources, and what is left out or cannot be read adds nothing to it.

  * `Run.results`: what a run finds, without its log, with `run_of_loadRules` and
    `run_of_fault`: a run ends with the fault of its rules, or with a report;
  * `Report.IsSum`: a report that is two reports, one after the other;
  * `reportOn_append`, `reportOn_map_filter`: the report on more outcomes, and on fewer.
-/
import AnnotationOrder.Lint.Run

namespace AnnotationOrder

/-- A report that is two reports, one after the other. -/
structure Report.IsSum (whole first second : Report) : Prop where
  findings : whole.findings = first.findings ++ second.findings
  filesScanned : whole.filesScanned = first.filesScanned + second.filesScanned
  declarationsChecked :
    whole.declarationsChecked = first.declarationsChecked + second.declarationsChecked
  rulesLoaded : whole.rulesLoaded = first.rulesLoaded ∧ whole.rulesLoaded = second.rulesLoaded

namespace Lint

open Project Rule

variable {w : Workspace} {q : Request} {r : Rules} {c : Candidate}

/-! ## Runs -/

theorem eq_ok_of_toOption {ε α : Type} {x : Except ε α} {a : α} (h : x.toOption = some a) :
    x = .ok a := by
  cases x with
  | error e => cases h
  | ok b => exact congrArg _ (Option.some.inj h)

/-- What a run finds, without its log. -/
def Run.results (r : Run) : Report × List Warning := (r.report, r.warnings)

theorem run_of_loadRules (h : q.loadRules w = .ok r) : run w q = .ok (runBy w q r) := by
  rw [run, h]
  rfl

theorem run_of_fault {e : Failure} (h : q.loadRules w = .error e) : run w q = .error e := by
  rw [run, h]
  rfl

/-! ## Outcomes -/

namespace Outcome

variable {o : Outcome}

theorem findings_of_not_isScanned (h : o.isScanned = false) : o.findings = [] := by
  cases o with
  | excluded | unreadable => rfl
  | scanned => cases h

theorem declarations_of_not_isScanned (h : o.isScanned = false) : o.declarations = [] := by
  cases o with
  | excluded | unreadable => rfl
  | scanned => cases h

end Outcome

theorem isScanned_of_excludedBy {reportAll : Bool} (h : excludedBy r.exclude c.shown = true) :
    (outcome w r reportAll c).isScanned = false := by
  rw [outcome, if_pos h]
  rfl

theorem isScanned_of_sourceText? {reportAll : Bool} (h : sourceText? w c.path = none) :
    (outcome w r reportAll c).isScanned = false := by
  by_cases he : excludedBy r.exclude c.shown = true
  · exact isScanned_of_excludedBy he
  · rw [outcome, if_neg he, h]
    rfl

/-! ## Reports -/

/-- The report on more outcomes. -/
theorem reportOn_append (t : Table) (os ps : List Outcome) :
    (reportOn t (os ++ ps)).IsSum (reportOn t os) (reportOn t ps) where
  findings := findings_reportOn_append t os ps
  filesScanned := by simp [reportOn]
  declarationsChecked := by simp [reportOn]
  rulesLoaded := ⟨rfl, rfl⟩

/-- What is left out does not matter where it has nothing to add. -/
theorem flatMap_filter_of_eq_nil {α β : Type} {keep : α → Bool} {f : α → List β} {xs : List α}
    (h : ∀ x ∈ xs, keep x = false → f x = []) : (xs.filter keep).flatMap f = xs.flatMap f := by
  induction xs with
  | nil => rfl
  | cons x xs ih =>
    rw [List.forall_mem_cons] at h
    by_cases hk : keep x = true
    · rw [List.filter_cons_of_pos hk, List.flatMap_cons, List.flatMap_cons, ih h.2]
    · rw [List.filter_cons_of_neg hk, List.flatMap_cons, h.1 (Bool.eq_false_iff.2 hk), ih h.2,
        List.nil_append]

/-- The report on what becomes of some things, when all that are scanned are among them. -/
theorem reportOn_map_filter {α : Type} {keep : α → Bool} {f : α → Outcome} {xs : List α} (t : Table)
    (h : ∀ x ∈ xs, keep x = false → (f x).isScanned = false) :
    reportOn t ((xs.filter keep).map f) = reportOn t (xs.map f) := by
  have hf : (xs.filter keep).flatMap (fun x => (f x).findings) =
      xs.flatMap fun x => (f x).findings :=
    flatMap_filter_of_eq_nil fun x hx hk => Outcome.findings_of_not_isScanned (h x hx hk)
  have hd : (xs.filter keep).flatMap (fun x => (f x).declarations) =
      xs.flatMap fun x => (f x).declarations :=
    flatMap_filter_of_eq_nil fun x hx hk => Outcome.declarations_of_not_isScanned (h x hx hk)
  have hs : (xs.filter keep).countP (fun x => (f x).isScanned) =
      xs.countP fun x => (f x).isScanned := by
    rw [List.countP_filter]
    refine List.countP_congr fun x hx => ?_
    cases hk : keep x with
    | true => simp
    | false => simp [h x hx hk]
  simp only [reportOn, List.flatMap_map, List.countP_map, Function.comp_def, hf, hd, hs]

end Lint

end AnnotationOrder
