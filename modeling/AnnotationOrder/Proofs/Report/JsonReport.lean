/-
  What is told by a report as a JSON text.

  * `Value.field?`: the value of an entry by its name;
  * `Finding.ToldBy`, `ToldBy`: a value that has every part of a finding, and of a report,
    under its name;
  * `formatJson_toldBy`: a report is told by the value that is read from its text, unless a
    number in it is too long to be written.
-/
import AnnotationOrder.Proofs.Report.Limit
import AnnotationOrder.Proofs.Report.ReadBack
import Mathlib.Data.List.Forall2

namespace AnnotationOrder.Report

open Json Number

namespace Json.Value

/-- The value of the only entry of a name. -/
def field? (name : String) : Value → Option Value
  | object entries =>
    match entries.filter (·.1 == name) with
    | [entry] => some entry.2
    | _ => none
  | _ => none

/-- An integer. -/
def integer (n : Int) : Value := number n 0

/-- A value that may be missing. -/
def orNull : Option Value → Value
  | some v => v
  | none => null

end Json.Value

/-- A value has every part of a finding under its name. -/
structure Finding.ToldBy (f : Finding) (v : Value) : Prop where
  filePath : v.field? "file_path" = some (.text f.filePath)
  line : v.field? "line_number" = some (.integer f.line)
  column : v.field? "column" = some (.orNull (f.span.map fun s => .integer (s.column + 1)))
  declaration : v.field? "declaration" = some (.orNull (f.subject.name.map .text))
  kind : v.field? "declaration_kind" = some (.text f.subject.kind)
  annotation : v.field? "annotation" = some (.text f.violation.misplaced.name)
  conflictsWith : v.field? "conflicts_with" = some (.text f.violation.conflictsWith.name)
  ruleName : v.field? "rule_name" = some (.text f.violation.constraint.name)
  expectedOrder : v.field? "expected_order" = some (.list (f.violation.expectedOrder.map .text))
  message : v.field? "message" = some (.text f.violation.message)

/-- A value has the counters of a report, and the time it took, under their names. -/
structure SummaryToldBy (r : Report) (v : Value) : Prop where
  rulesLoaded : v.field? "rules_loaded" = some (.integer r.rulesLoaded)
  findingsCount : v.field? "findings_count" = some (.integer r.findings.length)
  filesScanned : v.field? "files_scanned" = some (.integer r.filesScanned)
  declarationsChecked : v.field? "declarations_checked" = some (.integer r.declarationsChecked)
  elapsed : ∃ n k : Int, v.field? "elapsed_ms" = some (.number n k) ∧
    (n : ℚ) * 10 ^ k = r.elapsed.written

/-- A value has the findings of a report, one by one in their order, and its counters. -/
structure ToldBy (r : Report) (v : Value) : Prop where
  findings : ∃ vs, v.field? "findings" = some (.list vs) ∧
    List.Forall₂ Finding.ToldBy r.findings vs
  summary : ∃ w, v.field? "summary" = some w ∧ r.SummaryToldBy w

theorem Json.value_getD_null (j? : Option Json) :
    (j?.getD .null).value = .orNull (j?.map Json.value) := by
  cases j? <;> rfl

theorem Finding.toldBy_json (f : Finding) : f.ToldBy f.json.value where
  filePath := rfl
  line := rfl
  column := by
    change some (f.column?.map Json.integer |>.getD .null).value = _
    rw [value_getD_null, column?, Option.map_map, Option.map_map]
    rfl
  declaration := by
    change some (f.subject.name.map Json.text |>.getD .null).value = _
    rw [value_getD_null, Option.map_map]
    rfl
  kind := rfl
  annotation := rfl
  conflictsWith := rfl
  ruleName := rfl
  expectedOrder := by
    change some (Value.list (values (f.violation.expectedOrder.map Json.text))) = _
    rw [values_eq_map, List.map_map]
    rfl
  message := rfl

theorem summaryToldBy_json {r : Report} (h : r.elapsed.isFinite = true) :
    r.SummaryToldBy r.summaryJson.value where
  rulesLoaded := rfl
  findingsCount := rfl
  filesScanned := rfl
  declarationsChecked := rfl
  elapsed := by
    obtain ⟨n, k, hread, hvalue⟩ := word?_floatChars h
    refine ⟨n, k, ?_, hvalue⟩
    change some (floatValue r.elapsed) = _
    rw [floatValue, hread, Option.getD_some]

theorem toldBy_jsonValue {r : Report} (h : r.elapsed.isFinite = true) :
    r.ToldBy r.jsonValue.value where
  findings := by
    refine ⟨(r.findings.map Finding.json).map value, ?_, ?_⟩
    · rw [← values_eq_map]
      rfl
    · rw [List.map_map, List.forall₂_map_right_iff, List.forall₂_same]
      exact fun f _ => f.toldBy_json
  summary := ⟨r.summaryJson.value, rfl, summaryToldBy_json h⟩

/-- The only number of a report that can be infinite is the time it took. -/
theorem isFinite_jsonValue (r : Report) : r.jsonValue.isFinite = r.elapsed.isFinite := by
  have htexts (names : List String) : areFinite (names.map .text) = true := by
    induction names with
    | nil => rfl
    | cons name names ih => exact ih
  have hfinding (f : Finding) : f.json.isFinite = true := by
    simp only [Finding.json, isFinite, areFiniteEntries, htexts]
    cases f.column? <;> cases f.subject.name <;> rfl
  have hfindings : areFinite (r.findings.map Finding.json) = true := by
    induction r.findings with
    | nil => rfl
    | cons f fs ih => rw [List.map_cons, areFinite, hfinding f, ih, Bool.and_self]
  simp only [jsonValue, summaryJson, isFinite, areFiniteEntries, hfindings, Bool.true_and,
    Bool.and_true]

theorem formatJson_of_long {r : Report} (h : ∃ n ∈ r.numbers, Number.isShort n = false) :
    r.formatJson = .error .tooLong := by
  have hall : ¬ r.numbers.all Number.isShort = true := by
    simpa using h
  rw [formatJson, isShort_jsonValue, if_neg hall]

/-- A report without too long a number is written in JSON with line ends and visible characters of
ASCII only, and what is read from it tells all of the report, if the time it took is a number.  No
other report is written. -/
theorem formatJson_toldBy (r : Report) :
    ((∀ n ∈ r.numbers, Number.isShort n = true) → ∃ s, r.formatJson = .ok s ∧
      (∀ c ∈ s.toList, c = '\n' ∨ ' ' ≤ c ∧ c ≤ '~') ∧
      (r.elapsed.isFinite = true → ∃ v, read s = some v ∧ r.ToldBy v)) ∧
    ((∃ n ∈ r.numbers, Number.isShort n = false) → r.formatJson = .error .tooLong) := by
  constructor
  · intro h
    refine ⟨r.json, ?_, fun c hc => ?_, fun helapsed => ?_⟩
    · rw [formatJson, isShort_jsonValue, if_pos (List.all_eq_true.2 h)]
    · rw [json, toText, String.toList_ofList] at hc
      have hplain := List.all_eq_true.1 (isPlain_write _ 0) c hc
      simpa [isPlain] using hplain
    · rw [← isFinite_jsonValue] at helapsed
      exact ⟨_, read_toText helapsed, toldBy_jsonValue (isFinite_jsonValue r ▸ helapsed)⟩
  · exact formatJson_of_long

/-- A finding whose texts need escapes, in a declaration without a name. -/
def quotedFinding : Finding where
  filePath := "a\\\x7f.java"
  subject := ⟨"parameter", none, -3⟩
  violation := ⟨⟨"\"😀", none⟩, 1, ⟨"A", none⟩, 0, default, []⟩
  sourceLine := ""

/-- A report on it, which took a tenth of a millisecond. -/
def quotedReport : Report where
  findings := [quotedFinding]
  elapsed := .finite false 0x1999999999999a (-56)

theorem formatJson_toldBy_escapes : ∃ s, quotedReport.formatJson = .ok s ∧
    (∀ c ∈ s.toList, c = '\n' ∨ ' ' ≤ c ∧ c ≤ '~') ∧
      ∃ v, read s = some v ∧ quotedReport.ToldBy v := by
  obtain ⟨s, hs, hplain, hread⟩ := (formatJson_toldBy quotedReport).1 (by decide +kernel)
  exact ⟨s, hs, hplain, hread rfl⟩

/-- A column with too many digits cannot be written, and a time that is no number cannot be read. -/
theorem formatJson_unreadable :
    formatJson { findings := [farFinding] } = .error .tooLong ∧
      ∃ s, formatJson { elapsed := .nan } = .ok s ∧ read s = none := by
  refine ⟨formatJson_of_long ?_, json { elapsed := .nan }, ?_, by decide +kernel⟩
  · obtain ⟨n, hn, hlong⟩ := exists_long_farFinding
    exact ⟨n, List.mem_append_left _ (List.mem_flatMap.2 ⟨_, List.mem_cons_self, hn⟩), hlong⟩
  · rw [formatJson, if_pos (by decide +kernel)]

end AnnotationOrder.Report
