/-
  More paths left out.

  Exclusion patterns look at the very paths that findings carry.  So a run by a configuration with
  more patterns finds the same, in the same order, but for the findings with a path that one of
  these patterns matches.

  * `findings_outcome_excluding`, `findings_reportOn_excluding`: what more patterns leave of the
    findings in one source, and of those in all sources;
  * `Request.GoesBy`: the configuration that decides about a run, with `GoesBy.loadRules`;
  * `SameSources`: runs come across the same sources, with `sameSources_of_differAt`: they do when
    only what is no source changes, as the file with the rules;
  * `run_excluding_more`: the runs without and with more patterns.
-/
import AnnotationOrder.Proofs.Lint.Finding
import AnnotationOrder.Proofs.Lint.Parts
import AnnotationOrder.Proofs.Project.Change

namespace AnnotationOrder.Lint

open Project Rule Text

variable {w v : Workspace} {q : Request} {r s : Rules} {l : Location} {c : Candidate}
  {reportAll : Bool} {patterns : List String} {f : Report.Finding}

/-! ## Findings and patterns -/

/-- A finding carries the path that patterns look at. -/
theorem filePath_of_mem_findings_outcome (h : f ∈ (outcome w r reportAll c).findings) :
    f.filePath = c.shown := by
  obtain ⟨-, text, -, hscan⟩ := mem_findings_outcome.1 h
  obtain ⟨d, -, v, -, rfl⟩ := mem_findings_scan.1 hscan
  rfl

theorem excludedBy_append (es patterns : List String) (path : String) :
    excludedBy (es ++ patterns) path = (excludedBy es path || excludedBy patterns path) :=
  List.any_append

/-- The same rules with more patterns. -/
structure Excluding (patterns : List String) (r s : Rules) : Prop where
  table : s.table = r.table
  exclude : s.exclude = r.exclude ++ patterns

section
variable (h : Excluding patterns r s)
include h

/-- What more patterns leave of the findings in a source: all of them or none. -/
theorem findings_outcome_excluding (hfile : w.file? c.path = v.file? c.path) :
    (outcome v s reportAll c).findings =
      (outcome w r reportAll c).findings.filter (!excludedBy patterns ·.filePath) := by
  -- all findings in a source carry the same path
  have hkept : (outcome w r reportAll c).findings.filter (!excludedBy patterns ·.filePath) =
      (outcome w r reportAll c).findings.filter fun _ => !excludedBy patterns c.shown :=
    List.filter_congr fun f hf => by rw [filePath_of_mem_findings_outcome hf]
  have hsource : sourceText? v c.path = sourceText? w c.path := by
    rw [sourceText?, sourceText?, hfile]
  rw [hkept, outcome, outcome, h.exclude, h.table, excludedBy_append, hsource]
  cases excludedBy r.exclude c.shown with
  | true => rfl
  | false =>
    cases excludedBy patterns c.shown with
    | true => exact (List.filter_false _).symm
    | false => exact (List.filter_true _).symm

theorem findings_reportOn_excluding {cs : List Candidate}
    (hfile : ∀ c ∈ cs, w.file? c.path = v.file? c.path) :
    (reportOn s.table (cs.map (outcome v s reportAll))).findings =
      (reportOn r.table (cs.map (outcome w r reportAll))).findings.filter
        (!excludedBy patterns ·.filePath) := by
  simp only [reportOn, List.flatMap_map, List.filter_flatMap]
  exact List.flatMap_congr fun c hc => findings_outcome_excluding h (hfile c hc)

end

/-! ## Configurations -/

/-- The configuration at a path: where there is no file, it says nothing. -/
def configAt (w : Workspace) (path : Path) : Except RulesFault Config :=
  match w.file? path with
  | none => .ok {}
  | some bytes => configOfBytes w.setting bytes

/-- A run is decided by a configuration: it is read from the file with the rules, and this file is
    there if it is asked for. -/
structure Request.GoesBy (w : Workspace) (q : Request) (c : Config) : Prop where
  found : q.rules.isSome = true → w.isFile (Rules.pathFor q.project q.rules) = true
  config : configAt w (Rules.pathFor q.project q.rules) = .ok c

theorem ofFile_of_configAt {path : Path} {c : Config} (h : configAt w path = .ok c) :
    ∃ r, Rules.ofFile w path = .ok r ∧ r.table = c.table ∧ r.exclude = c.exclude := by
  unfold configAt at h
  unfold Rules.ofFile
  cases hw : w.file? path with
  | none =>
    rw [hw] at h
    obtain rfl := Except.ok.inj h
    exact ⟨.builtin, rfl, rfl, rfl⟩
  | some bytes =>
    rw [hw] at h
    exact ⟨.ofConfig path c, congrArg (Except.map _) h, rfl, rfl⟩

theorem Request.GoesBy.loadRules {c : Config} (h : q.GoesBy w c) :
    ∃ r, q.loadRules w = .ok r ∧ r.table = c.table ∧ r.exclude = c.exclude := by
  obtain ⟨r, hr, hc⟩ := ofFile_of_configAt h.config
  refine ⟨r, ?_, hc⟩
  have hfound : ¬ (q.rules.isSome && !w.isFile (Rules.pathFor q.project q.rules)) = true := by
    simpa using h.found
  rw [Request.loadRules, if_neg hfound, hr]
  rfl

/-! ## Sources -/

/-- In two workspaces a run comes across the same sources, with the same bytes. -/
structure SameSources (w v : Workspace) (project : Path) (ps : List Path) : Prop where
  candidates : candidates w project ps = candidates v project ps
  file? : ∀ c ∈ Project.candidates w project ps, w.file? c.path = v.file? c.path

/-- A change to what is no source by its name leaves the sources as they are. -/
theorem sameSources_of_differAt (h : DifferAt l w v) (hl : endsAsSource (l.getLastD "") = false)
    (project : Path) (ps : List Path) : SameSources w v project ps := by
  -- no source is at `l`, so the sources at other places are all of them
  have hall : ∀ u : Workspace, (candidates u project ps).filter (!u.leadsTo l ·.path) =
      candidates u project ps := fun u => List.filter_eq_self.2 fun c hc => by
    simpa using place?_ne_of_mem_candidates hl hc
  have hsame := h.candidates_eq project ps
  rw [hall w, hall v] at hsame
  refine ⟨hsame, fun c hc => ?_⟩
  exact h.file?_eq (place?_ne_of_mem_candidates hl hc) (place?_ne_of_mem_candidates hl (hsame ▸ hc))

/-! ## Runs -/

theorem findings_runBy_excluding (h : Excluding patterns r s)
    (hsources : SameSources w v q.project q.paths) (asked : Option Path) :
    (runBy v { q with rules := asked } s).report.findings =
      (runBy w q r).report.findings.filter (!excludedBy patterns ·.filePath) := by
  simp only [runBy, Request.outcomes, ← hsources.candidates]
  exact findings_reportOn_excluding h hsources.file?

/-- **More patterns.**  Of two runs over the same sources, by configurations that differ in that the
    second one has more patterns, the second run finds the same as the first, in the same order,
    but for the findings with a path that one of these patterns matches; and the rules are the
    same, with the same warnings.  The sources stay the same when a file is written that is no
    source by its name, as the one with the rules of a project. -/
theorem run_excluding_more :
    (∀ (w v : Workspace) (q : Request) (asked : Option Path) (c : Config) (patterns : List String),
      SameSources w v q.project q.paths → q.GoesBy w c →
      { q with rules := asked }.GoesBy v { c with exclude := c.exclude ++ patterns } →
      ∃ first second, run w q = .ok first ∧ run v { q with rules := asked } = .ok second ∧
        second.report.findings =
          first.report.findings.filter (!excludedBy patterns ·.filePath) ∧
        (∀ f, f ∈ second.report.findings ↔ f ∈ first.report.findings ∧ ∀ pattern ∈ patterns,
          ¬ Wildcard.Matches (Wildcard.parse pattern.toList) f.filePath.toList) ∧
        second.report.rulesLoaded = first.report.rulesLoaded ∧
        second.warnings = first.warnings) ∧
    ∀ (w : Workspace) (l : Location) (bytes : List UInt8) (project : Path) (ps : List Path),
      w.tree.isDirectory l = false → endsAsSource (l.getLastD "") = false →
      SameSources w (w.replaceAt l bytes) project ps ∧
        SameSources w (w.insertAt l bytes) project ps := by
  constructor
  · intro w v q asked c patterns hsources hfirst hsecond
    obtain ⟨r, hr, htable, hexclude⟩ := hfirst.loadRules
    obtain ⟨s, hs, htable', hexclude'⟩ := hsecond.loadRules
    have hmore : Excluding patterns r s := ⟨htable'.trans htable.symm, by rw [hexclude', hexclude]⟩
    have hfindings := findings_runBy_excluding hmore hsources asked
    refine ⟨_, _, run_of_loadRules hr, run_of_loadRules hs, hfindings, fun f => ?_, ?_, ?_⟩
    · rw [hfindings, List.mem_filter, Bool.not_eq_true', excludedBy_eq_false_iff]
    · exact congrArg (fun t : Table => (t.size : Int)) hmore.table
    · exact congrArg Table.warnings hmore.table
  · intro w l bytes project ps hdir hname
    exact ⟨sameSources_of_differAt (differAt_replace hdir bytes) hname project ps,
      sameSources_of_differAt (differAt_insert hdir bytes) hname project ps⟩

/-- Two sources with a finding each, and rules that leave something else out. -/
def withPatterns : Workspace :=
  .ofTexts [("annotation-order.yml", "version: 1\nexclude: ['C*']"),
    ("A.java", "@TargetApi @RestrictTo class A \x7b \x7d"),
    ("B.java", "@TargetApi @RestrictTo class B \x7b \x7d")]

/-- Rules that leave out one of the sources as well. -/
def withMorePatterns : Workspace :=
  withPatterns.replaceAt ["annotation-order.yml"]
    (asciiBytes "version: 1\nexclude: ['C*', '[!B]*']")

/-- A request to look at two sources. -/
def lookAtBoth : Request where
  project := .ofText "."
  paths := [.ofText "A.java", .ofText "B.java"]

theorem run_excluding_more_withPatterns : ∃ first second,
    run withPatterns lookAtBoth = .ok first ∧ run withMorePatterns lookAtBoth = .ok second ∧
    first.report.findings.map (·.filePath) = ["A.java", "B.java"] ∧
    second.report.findings = first.report.findings.filter (!excludedBy ["[!B]*"] ·.filePath) ∧
    second.report.rulesLoaded = first.report.rulesLoaded ∧ second.warnings = first.warnings := by
  have hfirst : (configAt withPatterns (Rules.pathFor (.ofText ".") none)).toOption =
      some { exclude := ["C*"] } := by
    decide +kernel
  have hsecond : (configAt withMorePatterns (Rules.pathFor (.ofText ".") none)).toOption =
      some { exclude := ["C*", "[!B]*"] } := by
    decide +kernel
  have hsources : SameSources withPatterns withMorePatterns lookAtBoth.project lookAtBoth.paths :=
    (run_excluding_more.2 _ _ _ _ _ (by decide +kernel) (by decide +kernel)).1
  have hnone : ¬ lookAtBoth.rules.isSome = true := Bool.false_ne_true
  obtain ⟨first, second, hw, hv, hfindings, -, hsame⟩ := run_excluding_more.1 _ _ lookAtBoth none
    { exclude := ["C*"] } ["[!B]*"] hsources ⟨(absurd · hnone), eq_ok_of_toOption hfirst⟩
    ⟨(absurd · hnone), eq_ok_of_toOption hsecond⟩
  have hpaths : ((run withPatterns lookAtBoth).toOption.map fun r =>
      r.report.findings.map (·.filePath)) = some ["A.java", "B.java"] := by
    decide +kernel
  rw [hw] at hpaths
  exact ⟨first, second, hw, hv, Option.some.inj hpaths, hfindings, hsame⟩

end AnnotationOrder.Lint
