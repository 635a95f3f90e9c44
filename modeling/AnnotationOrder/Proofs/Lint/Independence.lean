/-
  Runs before and after a change to one source.

  What becomes of a source depends on its own bytes only.  So other bytes in one source change the
  part of the report that is about this source, and nothing else; and a source that cannot be read
  could as well not be there.

  * `reportWhere`: the part of a report that is about some of the paths, with
    `reportOn_outcomes_isMixOf`: a report is its two parts, mixed;
  * `place?_pathFor_ne`: the file with the rules is another one than a source, unless a source is
    asked for as rules;
  * `reportWhere_eq`: after a change at one place, the part about other places is the same;
  * `run_replace_source`: the runs before and after a change to one source;
  * `rulesLoaded_replace_rules`: the change may reach further if the source is asked for as rules.
-/
import Mathlib.Data.List.Flatten
import AnnotationOrder.Proofs.Lint.Parts
import AnnotationOrder.Proofs.Project.Change

namespace AnnotationOrder

/-- A report that is two reports, mixed: the findings of each stand in their own order. -/
structure Report.IsMixOf (whole one other : Report) : Prop where
  one_sublist : one.findings.Sublist whole.findings
  other_sublist : other.findings.Sublist whole.findings
  perm : whole.findings.Perm (one.findings ++ other.findings)
  filesScanned : whole.filesScanned = one.filesScanned + other.filesScanned
  declarationsChecked :
    whole.declarationsChecked = one.declarationsChecked + other.declarationsChecked
  rulesLoaded : whole.rulesLoaded = one.rulesLoaded ∧ whole.rulesLoaded = other.rulesLoaded

namespace Lint

open Project Rule Text

variable {w v : Workspace} {q : Request} {r : Rules} {l : Location} {c : Candidate}
  {reportAll : Bool}

/-! ## Parts of a report -/

/-- The part of the report of a run that is about some of the paths. -/
def reportWhere (keep : Path → Bool) (w : Workspace) (q : Request) (r : Rules) : Report :=
  reportOn r.table
    (((candidates w q.project q.paths).filter (keep ·.path)).map (outcome w r q.reportAll))

theorem reportOn_outcomes_isMixOf (keep : Path → Bool) (w : Workspace) (q : Request) (r : Rules) :
    (reportOn r.table (q.outcomes w r)).IsMixOf (reportWhere (!keep ·) w q r)
      (reportWhere keep w q r) := by
  have hperm : (q.outcomes w r).Perm
      (((candidates w q.project q.paths).filter (!keep ·.path)).map (outcome w r q.reportAll) ++
        ((candidates w q.project q.paths).filter (keep ·.path)).map (outcome w r q.reportAll)) := by
    rw [← List.map_append]
    refine (List.Perm.map _ ?_)
    exact (List.filter_append_perm _ _).symm.trans List.perm_append_comm
  -- the counters are sums over the outcomes, in whatever order
  have hcount := hperm.countP_eq Outcome.isScanned
  have hlength := (hperm.flatMap_right Outcome.declarations).length_eq
  rw [List.countP_append] at hcount
  rw [List.flatMap_append, List.length_append] at hlength
  refine ⟨?_, ?_, ?_, ?_, ?_, rfl, rfl⟩
  · exact ((List.filter_sublist.map _).map Outcome.findings).flatten
  · exact ((List.filter_sublist.map _).map Outcome.findings).flatten
  · rw [reportWhere, reportWhere, ← findings_reportOn_append]
    exact hperm.flatMap_right Outcome.findings
  · simp only [reportOn, reportWhere, hcount, Int.natCast_add]
  · simp only [reportOn, reportWhere, hlength, Int.natCast_add]

/-- A place without a text may be left out of a report. -/
theorem reportWhere_eq_of_unreadable
    (h : (w.tree.file? l).bind (fun bytes => (sourceText bytes).toOption) = none) :
    reportWhere (!w.leadsTo l ·) w q r = reportOn r.table (q.outcomes w r) := by
  refine reportOn_map_filter r.table fun c _ hkeep => isScanned_of_sourceText? ?_
  have hp : w.place? c.path = some l := by simpa using hkeep
  rw [sourceText?, Workspace.file?, hp, Option.bind_some, h]

/-! ## The file with the rules -/

/-- The file with the rules of a project is no source.  So it is another one than a source, unless
    the source is asked for as rules. -/
theorem place?_pathFor_ne (hl : endsAsSource (l.getLastD "") = true)
    (h : ∀ p, q.rules = some p → w.place? p ≠ some l) :
    w.place? (Rules.pathFor q.project q.rules) ≠ some l := by
  cases hq : q.rules with
  | some p => exact h p hq
  | none =>
    intro hp
    have hname : (Rules.pathFor q.project none).name = Rules.fileName := by
      simp [Rules.pathFor, Path.name, Path.append]
    have hproper : isProper (Rules.pathFor q.project none).name = true := by
      rw [hname]
      decide
    rw [getLastD_of_place? hp hproper, hname] at hl
    exact absurd hl (by decide)

/-! ## Changes at one place -/

section
variable (h : DifferAt l w v)
include h

theorem loadRules_eq (hw : w.place? (Rules.pathFor q.project q.rules) ≠ some l)
    (hv : v.place? (Rules.pathFor q.project q.rules) ≠ some l) : q.loadRules w = q.loadRules v := by
  have hfile := h.file?_eq hw hv
  rw [Request.loadRules, Request.loadRules, Rules.ofFile, Rules.ofFile, Workspace.isFile,
    Workspace.isFile, hfile, h.setting]

theorem outcome_eq (hw : w.place? c.path ≠ some l) (hv : v.place? c.path ≠ some l) :
    outcome w r reportAll c = outcome v r reportAll c := by
  rw [outcome, outcome, sourceText?, sourceText?, h.file?_eq hw hv]

/-- **Other places.**  After a change at one place, the part of the report that is about all other
    places is the same. -/
theorem reportWhere_eq (q : Request) (r : Rules) :
    reportWhere (!w.leadsTo l ·) w q r = reportWhere (!v.leadsTo l ·) v q r := by
  have hcandidates := h.candidates_eq q.project q.paths
  rw [reportWhere, reportWhere, ← hcandidates]
  congr 1
  refine List.map_congr_left fun c hc => ?_
  have hw : w.place? c.path ≠ some l := by simpa using (List.mem_filter.1 hc).2
  rw [hcandidates] at hc
  have hv : v.place? c.path ≠ some l := by simpa using (List.mem_filter.1 hc).2
  exact outcome_eq h hw hv

end

/-! ## Changes to one source -/

section
variable {f : Location} (hfile : (w.tree.file? f).isSome = true)
  (hf : endsAsSource (f.getLastD "") = true)
  (hrules : ∀ p, q.rules = some p → w.place? p ≠ some f)
include hfile hf hrules

/-- A change to a source leaves the rules as they are. -/
theorem loadRules_of_differAt (h : DifferAt f w v) : q.loadRules v = q.loadRules w := by
  have hw := place?_pathFor_ne hf hrules
  refine (loadRules_eq h hw fun hv => hw ?_).symm
  -- what leads to the source after the change led there before
  exact h.symm.place?_eq_of hv fun _ => isSome_entry?_of_isSome_file? hfile

/-- A source that is no text could as well not be there. -/
theorem results_replaceAt_eq_results_eraseAt {bytes : List UInt8} {e : Utf8.DecodeError}
    (he : Utf8.decode bytes = .error e) :
    (run (w.replaceAt f bytes) q).map Run.results = (run (w.eraseAt f) q).map Run.results := by
  have hdir := isDirectory_of_isSome_file? hfile
  have hreplace : DifferAt f w (w.replaceAt f bytes) := differAt_replace hdir bytes
  have herase : DifferAt f w (w.eraseAt f) := differAt_erase hdir
  have hload := loadRules_of_differAt hfile hf hrules hreplace
  have hload' := loadRules_of_differAt hfile hf hrules herase
  cases hr : q.loadRules w with
  | error e => rw [run_of_fault (hload.trans hr), run_of_fault (hload'.trans hr)]
  | ok r =>
    have hbytes : ((w.replaceAt f bytes).tree.file? f).bind
        (fun bytes => (sourceText bytes).toOption) = none := by
      rw [Workspace.replaceAt, Tree.file?_replace_self]
      cases w.tree.file? f with
      | none => rfl
      | some old => simp [sourceText, he, Except.map, Except.toOption]
    have hgone : ((w.eraseAt f).tree.file? f).bind
        (fun bytes => (sourceText bytes).toOption) = none := by
      rw [Workspace.eraseAt, Tree.file?_erase_self]
      rfl
    -- both reports are those on the other places, and these are the same
    have hreport : reportOn r.table (q.outcomes (w.replaceAt f bytes) r) =
        reportOn r.table (q.outcomes (w.eraseAt f) r) := by
      rw [← reportWhere_eq_of_unreadable hbytes, ← reportWhere_eq_of_unreadable hgone]
      exact reportWhere_eq (hreplace.symm.trans herase) q r
    rw [run_of_loadRules (hload.trans hr), run_of_loadRules (hload'.trans hr)]
    exact congrArg Except.ok (Prod.ext hreport rfl)

end

/-- **Changes to one source.**  When the bytes of a source are replaced by others, and the source is
    not asked for as rules, a run fails for the same reason as before, or it goes by the same rules
    and its report is the same but for the part about this source.  If the new bytes are no text,
    the run finds the same as without the source. -/
theorem run_replace_source (w : Workspace) (q : Request) (f : Location) (bytes : List UInt8)
    (hfile : (w.tree.file? f).isSome = true) (hf : endsAsSource (f.getLastD "") = true)
    (hrules : ∀ p, q.rules = some p → w.place? p ≠ some f) :
    ((∃ e, run w q = .error e ∧ run (w.replaceAt f bytes) q = .error e) ∨
      ∃ r old new rest, q.loadRules w = .ok r ∧ q.loadRules (w.replaceAt f bytes) = .ok r ∧
        run w q = .ok old ∧ run (w.replaceAt f bytes) q = .ok new ∧
        new.warnings = old.warnings ∧ new.report.rulesLoaded = old.report.rulesLoaded ∧
        rest = reportWhere (!w.leadsTo f ·) w q r ∧
        rest = reportWhere (!(w.replaceAt f bytes).leadsTo f ·) (w.replaceAt f bytes) q r ∧
        old.report.IsMixOf rest (reportWhere (w.leadsTo f) w q r) ∧
        new.report.IsMixOf rest
          (reportWhere ((w.replaceAt f bytes).leadsTo f) (w.replaceAt f bytes) q r)) ∧
    ((∃ e, Utf8.decode bytes = .error e) →
      (run (w.replaceAt f bytes) q).map Run.results = (run (w.eraseAt f) q).map Run.results) := by
  refine ⟨?_, fun ⟨e, he⟩ => results_replaceAt_eq_results_eraseAt hfile hf hrules he⟩
  have hreplace : DifferAt f w (w.replaceAt f bytes) :=
    differAt_replace (isDirectory_of_isSome_file? hfile) bytes
  have hload := loadRules_of_differAt hfile hf hrules hreplace
  have hrest := reportWhere_eq hreplace q
  cases hr : q.loadRules w with
  | error e => exact .inl ⟨e, run_of_fault hr, run_of_fault (hload.trans hr)⟩
  | ok r =>
    refine .inr ⟨r, _, _, _, rfl, hload.trans hr, run_of_loadRules hr,
      run_of_loadRules (hload.trans hr), rfl, rfl, rfl, hrest r,
      reportOn_outcomes_isMixOf _ w q r, ?_⟩
    rw [hrest r]
    exact reportOn_outcomes_isMixOf _ (w.replaceAt f bytes) q r

/-- Two sources, each with a finding. -/
def twoSources : Workspace :=
  .ofTexts [("A.java", "@TargetApi @RestrictTo class A \x7b \x7d"),
    ("B.java", "@TargetApi @RestrictTo class B \x7b \x7d")]

theorem run_replace_source_undecodable :
    (twoSources.tree.file? ["A.java"]).isSome = true ∧ endsAsSource "A.java" = true ∧
    (∃ old new rest, run twoSources { project := .ofText "." } = .ok old ∧
      run (twoSources.replaceAt ["A.java"] [0xff]) { project := .ofText "." } = .ok new ∧
      new.report.rulesLoaded = old.report.rulesLoaded ∧
      old.report.IsMixOf rest (reportWhere (twoSources.leadsTo ["A.java"]) twoSources
        { project := .ofText "." } .builtin)) ∧
    (run (twoSources.replaceAt ["A.java"] [0xff]) { project := .ofText "." }).map Run.results =
      (run (twoSources.eraseAt ["A.java"]) { project := .ofText "." }).map Run.results := by
  have hfile : (twoSources.tree.file? ["A.java"]).isSome = true := by decide +kernel
  have hf : endsAsSource "A.java" = true := by decide +kernel
  have hload : Request.loadRules twoSources { project := .ofText "." } = .ok .builtin := by
    have hnone : (twoSources.file? (Rules.pathFor (.ofText ".") none)).isNone = true := by
      decide +kernel
    simp [Request.loadRules, Rules.ofFile, Option.isNone_iff_eq_none.1 hnone, Except.mapError]
  have h := run_replace_source twoSources { project := .ofText "." } ["A.java"] [0xff] hfile hf
    fun p hp => by cases hp
  refine ⟨hfile, hf, ?_, h.2 ⟨_, rfl⟩⟩
  rcases h.1 with ⟨e, he, -⟩ | ⟨r, old, new, rest, hr, -, hold, hnew, -, hrules, -, -, hmix, -⟩
  · cases (run_of_loadRules hload).symm.trans he
  · obtain rfl := Except.ok.inj (hload.symm.trans hr)
    exact ⟨old, new, rest, hold, hnew, hrules, hmix⟩

/-- A source that says which rules apply, for the one who reads it so. -/
def rulesInSource : Workspace := .ofTexts [("R.java", "version: 1\n")]

/-- The same rules without the built-in ones. -/
def withoutDefaults : List UInt8 := asciiBytes "version: 1\ndefaults: false\n"

/-- A source that is asked for as rules has a say in all findings. -/
theorem rulesLoaded_replace_rules :
    ¬ ∀ (w : Workspace) (q : Request) (f : Location) (bytes : List UInt8) (old new : Run),
      (w.tree.file? f).isSome = true → endsAsSource (f.getLastD "") = true →
      run w q = .ok old → run (w.replaceAt f bytes) q = .ok new →
      new.report.rulesLoaded = old.report.rulesLoaded := by
  intro h
  let q : Request := { project := .ofText ".", rules := some (.ofText "R.java") }
  have hsize : ∀ {w : Workspace} {n : Nat},
      ((q.loadRules w).toOption.any fun r => r.table.size == n) = true →
      ∃ s, run w q = .ok s ∧ s.report.rulesLoaded = n := by
    intro w n hread
    obtain ⟨r, hr, hn⟩ := (Option.any_eq_true _ _).1 hread
    exact ⟨_, run_of_loadRules (eq_ok_of_toOption hr), congrArg Nat.cast (eq_of_beq hn)⟩
  obtain ⟨old, hold, hbefore⟩ := hsize (w := rulesInSource) (n := 13) (by decide +kernel)
  obtain ⟨new, hnew, hafter⟩ := hsize (w := rulesInSource.replaceAt ["R.java"] withoutDefaults)
    (n := 0) (by decide +kernel)
  have hsame := h rulesInSource q ["R.java"] withoutDefaults old new (by decide +kernel)
    (by decide +kernel) hold hnew
  rw [hbefore, hafter] at hsame
  cases hsame

end Lint

end AnnotationOrder
