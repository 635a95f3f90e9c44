/-
  Runs over several paths.

  A run looks at one path after the other, and at a source in one way only, whether it is found
  below a directory or is given itself.

  * `reportOn_visited`: what is left out does not matter for a report;
  * `run_adds_up`: runs over a path and over all that is found there find the same, and a run over
    more paths finds what the runs over some of them and over the others find.
-/
import AnnotationOrder.Proofs.Lint.Parts
import AnnotationOrder.Proofs.Project.Candidates

namespace AnnotationOrder.Lint

open Project Rule

variable {w : Workspace} {q : Request} {r : Rules}

/-- The reports on all that a run comes across, and on what it visits. -/
theorem reportOn_visited (t : Table) : reportOn t (q.outcomes w r) =
    reportOn t ((visited w q.project q.paths r.exclude).map (outcome w r q.reportAll)) := by
  refine (reportOn_map_filter t fun c _ hkeep => ?_).symm
  exact isScanned_of_excludedBy (by simpa using hkeep)

/-- The reports on what is found at a path, and on the files found there when they are given one by
    one. -/
theorem reportOn_walk {root : Path} (hq : q.paths = [root])
    (hne : walk w q.project root r.exclude ≠ [])
    (hfiles : ∀ p ∈ walk w q.project root r.exclude, w.isFile p = true ∧ p.name ≠ sourceEnding) :
    reportOn r.table (({ q with paths := walk w q.project root r.exclude }).outcomes w r) =
      reportOn r.table (q.outcomes w r) := by
  rw [reportOn_visited (q := q), Request.outcomes, candidates_walk hne hfiles, hq]

/-- **Runs over paths add up.**  A run over a path, as long as what is found there are files with
    something in front of the ending of sources, finds the same as a run over these files; and a run
    over more paths finds what a run over some of them and then one over the others find. -/
theorem run_adds_up :
    (∀ (w : Workspace) (q : Request) (root : Path) (r : Rules), q.loadRules w = .ok r →
      walk w q.project root r.exclude ≠ [] →
      (∀ p ∈ walk w q.project root r.exclude, w.isFile p = true ∧ p.name ≠ sourceEnding) →
      ∃ whole single, run w { q with paths := [root] } = .ok whole ∧
        run w { q with paths := walk w q.project root r.exclude } = .ok single ∧
        single.results = whole.results) ∧
    ∀ (w : Workspace) (q : Request) (ps ps' : List Path), ps ≠ [] → ps' ≠ [] →
      (∃ first second whole, run w { q with paths := ps } = .ok first ∧
        run w { q with paths := ps' } = .ok second ∧
        run w { q with paths := ps ++ ps' } = .ok whole ∧
        whole.report.IsSum first.report second.report ∧
        whole.warnings = first.warnings ∧ whole.warnings = second.warnings) ∨
      ∃ e, run w { q with paths := ps } = .error e ∧ run w { q with paths := ps' } = .error e ∧
        run w { q with paths := ps ++ ps' } = .error e := by
  constructor
  · intro w q root r hr hne hfiles
    refine ⟨_, _, run_of_loadRules hr, run_of_loadRules hr, ?_⟩
    exact Prod.ext (reportOn_walk (q := { q with paths := [root] }) rfl hne hfiles) rfl
  · intro w q ps ps' hps hps'
    cases hr : q.loadRules w with
    | error e => exact .inr ⟨e, run_of_fault hr, run_of_fault hr, run_of_fault hr⟩
    | ok r =>
      refine .inl ⟨_, _, _, run_of_loadRules hr, run_of_loadRules hr, run_of_loadRules hr, ?_,
        rfl, rfl⟩
      simp only [runBy, Request.outcomes, candidates_append hps hps', List.map_append]
      exact reportOn_append _ _ _

/-- Sources in directories, one of them left out and one in a directory for built files. -/
def someSources : Workspace :=
  .ofTexts [("annotation-order.yml", "version: 1\nexclude: ['*C.java']"),
    ("src/D.java", "class D \x7b @Test @Override void f() \x7b \x7d \x7d"), ("src/a/A.java", ""),
    ("src/a/C.java", ""), ("src/build/B.java", "")]

/-- A request to look at paths. -/
def lookAt (paths : List String) : Request where
  project := .ofText "."
  paths := paths.map .ofText

theorem walk_someSources : walk someSources (.ofText ".") (.ofText "src") ["*C.java"] =
    [.ofText "src/D.java", .ofText "src/a/A.java"] := by
  have hp : someSources.place? (.ofText "src") = some ["src"] := by decide +kernel
  have hd : someSources.tree.isDirectory ["src"] = true := by decide +kernel
  have htaken : (someSources.below (.ofText "src")).filter isTaken =
      [["D.java"], ["a", "A.java"], ["a", "C.java"]] := by
    decide +kernel
  -- they are in order as they stand
  have hbelow : sourcesBelow someSources (.ofText "src") =
      [["D.java"], ["a", "A.java"], ["a", "C.java"]] := by
    rw [sourcesBelow, htaken]
    exact List.mergeSort_of_pairwise (by decide +kernel)
  rw [walk, visited, candidates_directory hp hd, hbelow]
  decide +kernel

theorem run_adds_up_someSources : ∃ whole single first both,
    run someSources (lookAt ["src"]) = .ok whole ∧
    run someSources (lookAt ["src/D.java", "src/a/A.java"]) = .ok single ∧
    single.results = whole.results ∧
    run someSources (lookAt ["src/build"]) = .ok first ∧
    run someSources (lookAt ["src/build", "src"]) = .ok both ∧
    both.report.IsSum first.report whole.report := by
  let q := lookAt ["src"]
  have hread : ((q.loadRules someSources).toOption.any (·.exclude == ["*C.java"])) = true := by
    decide +kernel
  have hfiles : ∀ p ∈ [Path.ofText "src/D.java", .ofText "src/a/A.java"],
      someSources.isFile p = true ∧ p.name ≠ sourceEnding := by
    decide +kernel
  obtain ⟨r, hr, hexclude⟩ := (Option.any_eq_true _ _).1 hread
  have hwalk := walk_someSources
  rw [← eq_of_beq hexclude] at hwalk
  have hr := eq_ok_of_toOption hr
  obtain ⟨whole, single, hwhole, hsingle, hsame⟩ :=
    run_adds_up.1 someSources q (.ofText "src") r hr (hwalk ▸ List.cons_ne_nil _ _) (hwalk ▸ hfiles)
  rw [show q.project = .ofText "." from rfl, hwalk] at hsingle
  rcases run_adds_up.2 someSources q [.ofText "src/build"] [.ofText "src"] (by simp) (by simp) with
    ⟨first, second, both, hfirst, hsecond, hboth, hsum, -⟩ | ⟨e, -, he, -⟩
  · obtain rfl := Except.ok.inj (hwhole.symm.trans hsecond)
    exact ⟨whole, single, first, both, hwhole, hsingle, hsame, hfirst, hboth, hsum⟩
  · cases hwhole.symm.trans he

end AnnotationOrder.Lint
