/-
  What the line of a finding shows.

  A span counts its line and its columns by rows, while the line that a finding shows
  is looked up among the lines.  A source with line ends that end no row in front of
  an annotation has the two apart.

  * `stretch`: the part of a line that a span covers;
  * `Shows`: the line of a finding and the tildes below it show the misplaced annotation;
  * `exists_of_mem_findings`: where the misplaced annotation of a finding stands in its source;
  * `sourceLine_of_mem_findings`: which line a finding shows, and when it shows the annotation.
-/
import AnnotationOrder.Proofs.Java.Location
import AnnotationOrder.Proofs.Lint.Finding
import AnnotationOrder.Report.Format

namespace AnnotationOrder.Lint

open Project Rule AnnotationOrder.Order Java Text Report

variable {before name behind : List Char} {f : Finding} {s : Span}

/-! ## Spans -/

/-- The part of a line between the columns of a span. -/
def stretch (line : String) (s : Span) : List Char :=
  (line.toList.take s.endColumn.toNat).drop s.column.toNat

/-- The span of a name by the text in front of it: its row, and where it stands in this row. -/
def spanBehind (before name : List Char) : Span :=
  ⟨(before.count '\n' + 1 : Nat), (lastRow before).length,
    ((lastRow before).length + name.length : Nat)⟩

/-- The line of a place, whose number counts every line end in front of the place. -/
def ownLine (before rest : List Char) : String :=
  String.ofList (lastLine before ++ rest.takeWhile (!isLineEnd ·))

/-- A finding shows the misplaced annotation: the span covers its name in the line, and below the line
    there are blanks up to the name and tildes under the name. -/
def Shows (f : Finding) (s : Span) : Prop :=
  stretch f.sourceLine s = f.violation.misplaced.name.toList ∧
    f.textLines.tail = [f.sourceLine, underline s] ∧
    (underline s).toList = List.replicate s.column.toNat ' ' ++
      List.replicate f.violation.misplaced.name.toList.length '~'

theorem lineAt_succ (ls : List String) (n : Nat) : lineAt ls (n + 1 : Nat) = ls.getD n "" := by
  rw [lineAt, if_pos (by omega)]
  congr 1
  omega

/-- The line of a name, as long as line ends and row ends in front of the name are the same. -/
theorem ownLine_eq (hb : ∀ c ∈ before, isForeignEnd c = false)
    (hn : ∀ c ∈ name, isLineEnd c = false) :
    ownLine before (name ++ behind) =
      String.ofList (lastRow before ++ (name ++ behind.takeWhile (!isLineEnd ·))) := by
  rw [ownLine, lastLine_eq_lastRow hb, List.takeWhile_append_of_pos]
  intro c hc
  rw [hn c hc]
  rfl

theorem stretch_spanBehind (ys : List Char) :
    stretch (String.ofList (lastRow before ++ (name ++ ys))) (spanBehind before name) = name := by
  simp only [stretch, spanBehind, String.toList_ofList, Int.toNat_natCast]
  rw [← List.append_assoc, List.take_append_of_le_length (by simp), ← List.length_append,
    List.take_length, List.drop_left]

theorem underline_spanBehind (hn : name ≠ []) :
    (underline (spanBehind before name)).toList =
      List.replicate (lastRow before).length ' ' ++ List.replicate name.length '~' := by
  have hpos : 0 < name.length := List.length_pos_iff.2 hn
  have hwidth : (max ((((lastRow before).length + name.length : Nat) : Int) -
      ((lastRow before).length : Nat)) 1).toNat = name.length := by
    omega
  simp only [underline, repeated, spanBehind, String.toList_append, String.toList_ofList,
    Int.toNat_natCast, hwidth]

/-- A finding shows the annotation if its line is the one of the name, counted by rows. -/
theorem shows_of_sourceLine (hn : f.violation.misplaced.name.toList ≠ [])
    (hspan : f.span = some (spanBehind before f.violation.misplaced.name.toList)) {ys : List Char}
    (hline : f.sourceLine =
      String.ofList (lastRow before ++ (f.violation.misplaced.name.toList ++ ys))) :
    Shows f (spanBehind before f.violation.misplaced.name.toList) := by
  have hne : f.sourceLine.isEmpty = false := by
    rw [hline, Bool.eq_false_iff, ne_eq, String.isEmpty_iff, String.ofList_eq_empty_iff]
    simpa using fun _ h => absurd (String.toList_eq_nil_iff.2 h) hn
  refine ⟨?_, ?_, ?_⟩
  · rw [hline, stretch_spanBehind]
  · rw [Finding.textLines, hspan]
    simp only [hne, Bool.false_eq_true, if_false, List.tail_cons]
  · rw [underline_spanBehind hn]
    simp [spanBehind]

/-! ## Findings -/

/-- The place of the misplaced annotation of a finding, and the line looked up for it. -/
theorem exists_of_mem_findings {w : Workspace} {q : Request} {r : Run} (h : run w q = .ok r)
    (hf : f ∈ r.report.findings) :
    ∃ c ∈ candidates w q.project q.paths, ∃ text, sourceText? w c.path = some text ∧
      f.filePath = c.shown ∧ f.violation.misplaced.name.toList ≠ [] ∧
      (∀ c ∈ f.violation.misplaced.name.toList, isNameChar c = true) ∧
      ∃ before behind, text.toList = before ++ (f.violation.misplaced.name.toList ++ behind) ∧
        f.span = some (spanBehind before f.violation.misplaced.name.toList) ∧
        f.sourceLine = (lines text).getD (before.count '\n') "" := by
  obtain ⟨rules, -, rfl⟩ := run_eq_ok_iff.1 h
  obtain ⟨c, hc, -, text, ht, d, hd, v, hv, rfl⟩ := mem_findings_runBy.1 hf
  obtain ⟨a, ha, hav⟩ := List.mem_map.1 (misplaced_mem_of_mem_check hv)
  obtain ⟨before, behind, hs, hne, hchars, hloc⟩ := exists_of_mem_declarations hd ha
  have hname : v.misplaced.name = a.name := by rw [← hav]; rfl
  have hspan : v.misplaced.location = some (spanBehind before a.name.toList) := by
    rw [← hav, spanBehind, ← hloc]
    rfl
  simp only [findingOn, Finding.span, hname, hspan]
  refine ⟨c, hc, text, ht, rfl, hne, hchars, before, behind, hs, rfl, ?_⟩
  rw [← lineAt_succ]
  rfl

/-- **The line of a finding.**  A finding shows the line whose number counts the row ends in front of
    the misplaced annotation, while the number of its own line counts all line ends.  Where the two
    are the same, which is to say where no line end in front of it is foreign to rows, the finding
    shows the annotation. -/
theorem sourceLine_of_mem_findings {w : Workspace} {q : Request} {r : Run} (h : run w q = .ok r)
    (hf : f ∈ r.report.findings) :
    ∃ c ∈ candidates w q.project q.paths, ∃ text, sourceText? w c.path = some text ∧
      f.filePath = c.shown ∧ ∃ before behind s,
      text.toList = before ++ (f.violation.misplaced.name.toList ++ behind) ∧
      f.span = some s ∧ s = spanBehind before f.violation.misplaced.name.toList ∧
      f.sourceLine = (lines text).getD (before.count '\n') "" ∧
      (lines text)[before.countP isLineEnd]? =
        some (ownLine before (f.violation.misplaced.name.toList ++ behind)) ∧
      (before.count '\n' = before.countP isLineEnd ↔ ∀ c ∈ before, isForeignEnd c = false) ∧
      ((∀ c ∈ before, isForeignEnd c = false) → Shows f s) := by
  obtain ⟨c, hc, text, ht, hpath, hne, hchars, before, behind, hs, hspan, hline⟩ :=
    exists_of_mem_findings h hf
  have hends : ∀ c ∈ f.violation.misplaced.name.toList, isLineEnd c = false :=
    fun c hc => isLineEnd_of_isNameChar (hchars c hc)
  have hown : (lines text)[before.countP isLineEnd]? =
      some (ownLine before (f.violation.misplaced.name.toList ++ behind)) := by
    refine getElem?_lines hs (return_not_mem_sourceText ht) ?_
    obtain ⟨d, ds, hd⟩ := List.exists_cons_of_ne_nil hne
    exact ⟨d, by simp [hd], hends d (by simp [hd])⟩
  have hsame := count_newline_eq_iff before
  refine ⟨c, hc, text, ht, hpath, before, behind, _, hs, hspan, rfl, hline, hown, hsame, fun hb => ?_⟩
  rw [hsame.2 hb, List.getD_eq_getElem?_getD, hown, Option.getD_some, ownLine_eq hb hends] at hline
  exact shows_of_sourceLine hne hspan hline

/-! ### Runs by the built-in rules -/

/-- Without a file with rules, a run goes by the built-in ones. -/
theorem run_eq_runBy_builtin {w : Workspace} {q : Request} (hq : q.rules = none)
    (hw : w.file? (Rules.pathFor q.project none) = none) : run w q = .ok (runBy w q .builtin) := by
  rw [run_eq_ok_iff]
  refine ⟨.builtin, ?_, rfl⟩
  simp [Request.loadRules, hq, Rules.ofFile, hw, Except.mapError]

/-- A project with one source, seen from its directory. -/
def soleSource (source : String) : Workspace :=
  (Workspace.emptyAt []).write (.ofText "A.java") (source.toList.map fun c => c.toNat.toUInt8)

/-- A request to look at the current directory. -/
def here : Request where
  project := .ofText "."

/-- A method with its annotations in the wrong order. -/
def plain : Workspace :=
  soleSource "class A \x7b\n  @Test @Override void f() \x7b \x7d\n\x7d\n"

/-- The same method with a form feed on a line of its own in front of it. -/
def behindFormFeed : Workspace :=
  soleSource "class A \x7b\n\x0c\n  @Test @Override void f() \x7b \x7d\n\x7d\n"

theorem sourceLine_of_mem_findings_plain :
    ∃ r f s, run plain here = .ok r ∧ f ∈ r.report.findings ∧ f.span = some s ∧ Shows f s := by
  have hr := run_eq_runBy_builtin (w := plain) (q := here) rfl (by decide +kernel)
  have hlen : 0 < (runBy plain here .builtin).report.findings.length := by decide +kernel
  have hends : (candidates plain here.project here.paths).all (fun c =>
      (sourceText? plain c.path).all fun text => text.toList.all (!isForeignEnd ·)) = true := by
    decide +kernel
  have hf := List.getElem_mem hlen
  obtain ⟨c, hc, text, ht, -, before, behind, s, htext, hs, -, -, -, -, hshows⟩ :=
    sourceLine_of_mem_findings hr hf
  refine ⟨_, _, s, hr, hf, hs, hshows fun d hd => ?_⟩
  have hc := List.all_eq_true.1 hends c hc
  rw [ht, Option.all_some, List.all_eq_true, htext] at hc
  simpa using hc d (List.mem_append_left _ hd)

/-- Behind a form feed the line of a finding need not show the annotation. -/
theorem sourceLine_behindFormFeed :
    ¬ ∀ (w : Workspace) (q : Request) (r : Run) (f : Finding) (s : Span), run w q = .ok r →
      f ∈ r.report.findings → f.span = some s →
      stretch f.sourceLine s = f.violation.misplaced.name.toList := by
  intro h
  have hr := run_eq_runBy_builtin (w := behindFormFeed) (q := here) rfl (by decide +kernel)
  have hbad : (runBy behindFormFeed here .builtin).report.findings.any (fun f =>
      f.span.any fun s => stretch f.sourceLine s != f.violation.misplaced.name.toList) = true := by
    decide +kernel
  simp only [List.any_eq_true, Option.any_eq_true, bne_iff_ne] at hbad
  obtain ⟨f, hf, s, hs, hne⟩ := hbad
  exact hne (h _ _ _ f s hr hf hs)

end AnnotationOrder.Lint
