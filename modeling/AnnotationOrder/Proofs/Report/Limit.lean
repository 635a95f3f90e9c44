/-
  Numbers that are too long to be written.

  * `Finding.numbers`, `numbers`: the integers that a finding, and a report, is printed with;
  * `isShort_iff`, `isShort_jsonValue`: a text can be written if all of them are short;
  * `farFinding`: a finding that cannot be written.
-/
import AnnotationOrder.Report.Format

namespace AnnotationOrder.Report

open Number

/-- The integers that a finding is printed with. -/
def Finding.numbers (f : Finding) : List Int := f.line :: f.column?.toList

/-- The integers that a report is printed with. -/
def numbers (r : Report) : List Int :=
  r.findings.flatMap Finding.numbers ++
    [r.rulesLoaded, r.findings.length, r.filesScanned, r.declarationsChecked]

/-! ## What is short -/

theorem Finding.isShort_eq (f : Finding) : f.isShort = f.numbers.all Number.isShort := by
  rw [isShort, numbers, List.all_cons]
  cases f.column? with
  | none => rw [Option.all_none, Option.toList_none, List.all_nil]
  | some n =>
    rw [Option.all_some, Option.toList_some, List.all_cons, List.all_nil, Bool.and_true]

namespace Json

theorem isShort_getD_null {α : Type} (make : α → Json) (a? : Option α) :
    ((a?.map make).getD .null).isShort = a?.all fun a => (make a).isShort := by
  cases a? with
  | none => rw [Option.map_none, Option.getD_none, isShort, Option.all_none]
  | some a => rw [Option.map_some, Option.getD_some, Option.all_some]

theorem areShort_eq_all (xs : List Json) : areShort xs = xs.all isShort := by
  induction xs with
  | nil => rw [areShort, List.all_nil]
  | cons x xs ih => rw [areShort, List.all_cons, ih]

theorem areShort_texts (names : List String) : areShort (names.map text) = true := by
  rw [areShort_eq_all, List.all_map, List.all_eq_true]
  intro name _
  rw [Function.comp_apply, isShort]

end Json

/-- Of what is printed for a finding, only its integers can be too long. -/
theorem Finding.isShort_json (f : Finding) : f.json.isShort = f.numbers.all Number.isShort := by
  rw [← isShort_eq, isShort]
  simp only [json, Json.isShort, Json.areShortEntries, Json.isShort_getD_null,
    Json.areShort_texts, Option.all_true, Bool.true_and, Bool.and_true]

/-- Of what is printed for a report, only its integers can be too long. -/
theorem isShort_jsonValue (r : Report) : r.jsonValue.isShort = r.numbers.all Number.isShort := by
  simp only [numbers, jsonValue, summaryJson, Json.isShort, Json.areShortEntries,
    Json.areShort_eq_all, List.all_append, List.all_map, List.all_flatMap, List.all_cons,
    List.all_nil, Bool.and_true, Function.comp_def, Finding.isShort_json]

/-! ## A finding that is not -/

/-- A finding in a line that is so long that its column cannot be written. -/
def farFinding : Finding where
  filePath := "A.java"
  subject := ⟨"class_declaration", some "A", 1⟩
  violation := ⟨⟨"B", some ⟨1, tenTo digitLimit - 1, tenTo digitLimit⟩⟩, 1, ⟨"A", none⟩, 0, default,
    ["B", "A"]⟩
  sourceLine := ""

theorem exists_long_farFinding : ∃ n ∈ farFinding.numbers, Number.isShort n = false := by
  refine ⟨tenTo digitLimit - 1 + 1, List.mem_cons_of_mem _ List.mem_cons_self, ?_⟩
  rw [Int.sub_add_cancel, Number.isShort, Int.natAbs_natCast, decide_eq_false (Nat.lt_irrefl _)]

end AnnotationOrder.Report
