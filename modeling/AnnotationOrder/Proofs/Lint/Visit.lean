/-
  The sources that a run visits.

  * `visited_outcomes`: a run reads what it visits, one source after the other, and what
    else it comes across is left out;
  * `VisitsBelow`: what a run visits below a directory;
  * `visits_sources_below`: below every directory a run visits the sources that are not left
    out, and neither the way to the directory nor the one to an entry matters.
-/
import AnnotationOrder.Lint.Run
import AnnotationOrder.Proofs.Project.Walk

namespace AnnotationOrder.Lint

open Project Rule Text

/-! ## Outcomes -/

/-- The source was left out. -/
def Outcome.isExcluded : Outcome → Bool
  | excluded _ => true
  | _ => false

theorem isExcluded_outcome (w : Workspace) (r : Rules) (reportAll : Bool) (c : Candidate) :
    (outcome w r reportAll c).isExcluded = excludedBy r.exclude c.shown := by
  unfold outcome
  split_ifs with h
  · rw [h]
    rfl
  · rw [Bool.not_eq_true] at h
    rw [h]
    cases sourceText? w c.path with
    | none => rfl
    | some text => rfl

/-- What is read by a run is what it visits, in the same order. -/
theorem visited_outcomes (w : Workspace) (q : Request) (r : Rules) :
    (q.outcomes w r).filter (!·.isExcluded) =
      (visited w q.project q.paths r.exclude).map (outcome w r q.reportAll) := by
  rw [Request.outcomes, List.filter_map, visited]
  congr 2
  funext c
  exact congrArg (!·) (isExcluded_outcome w r q.reportAll c)

/-! ## Directories -/

/-- What a run visits below a directory: the sources there that no pattern leaves out, in the order
    of the names that lead to them, each by a path that leads to it. -/
structure VisitsBelow (w : Workspace) (project root : Path) (exclude : List String)
    (base : Location) : Prop where
  mem_iff : ∀ c, c ∈ visited w project [root] exclude ↔ ∃ rel, IsSource w.tree base rel ∧
    c.path = root.append rel ∧
    IsShown (project.location w.current) (base ++ rel) c.path c.shown ∧
    ∀ pattern ∈ exclude, ¬ Wildcard.Matches (Wildcard.parse pattern.toList) c.shown.toList
  increasing : (visited w project [root] exclude).Pairwise fun c d => c.path.names < d.path.names
  leads : ∀ rel, IsSource w.tree base rel → w.place? (root.append rel) = some (base ++ rel)

/-- **Sources below a directory.**  A run visits what has the ending of sources below a directory,
    with no directory in between that holds none, unless a pattern matches the path that reports
    show for it. Inside the project this is the same path from wherever an entry is reached, so it
    is left out always or never; and what is found below a directory does not depend on what leads
    to it.  These are the sources that a run reads. -/
theorem visits_sources_below (w : Workspace) (project root : Path) (exclude : List String) :
    (∀ base, w.place? root = some base → w.tree.isDirectory base = true →
      VisitsBelow w project root exclude base) ∧
    (∀ (paths paths' : List Path) (c c' : Candidate) (l m : Location),
      c ∈ candidates w project paths → c' ∈ candidates w project paths' →
      w.place? c.path = some l → w.place? c'.path = some l → l = project.location w.current ++ m →
      excludedBy exclude c.shown = excludedBy exclude c'.shown) ∧
    (∀ (w' : Workspace) (root' : Path), (∀ rel, rel ∈ w.below root ↔ rel ∈ w'.below root') →
      sourcesBelow w root = sourcesBelow w' root') ∧
    ∀ (q : Request) (r : Rules), q.project = project → q.paths = [root] → r.exclude = exclude →
      (q.outcomes w r).filter (!·.isExcluded) =
        (visited w project [root] exclude).map (outcome w r q.reportAll) := by
  refine ⟨fun base hp hd => ?_, ?_, fun w' root' h => sourcesBelow_congr h, ?_⟩
  · refine ⟨fun c => mem_visited_iff hp hd, pairwise_visited hp hd project exclude, ?_⟩
    intro rel h
    exact place?_append hp hd (Tree.mem_below_iff.2 ⟨h.ne_nil, h.entry⟩)
  · intro paths paths' c c' l m hc hc' hp hp' hl
    obtain ⟨p, -, rfl⟩ := List.mem_map.1 hc
    obtain ⟨p', -, rfl⟩ := List.mem_map.1 hc'
    exact congrArg (excludedBy exclude) (shown_eq_of_inside hp hp' hl)
  · rintro q r rfl hpaths rfl
    rw [visited_outcomes, hpaths]

/-- A directory for built files, with sources in it and one such directory more. -/
def insideBuild : Workspace :=
  [["build", "src", "A.java"], ["build", "src", "build", "B.java"], ["build", "src", "C.java", "D.java"]].foldl
    (fun w l => w.write (.ofLocation l) []) (.emptyAt [])

theorem visits_sources_below_insideBuild :
    insideBuild.place? (.ofText "build/src") = some ["build", "src"] ∧
      insideBuild.tree.isDirectory ["build", "src"] = true ∧
      VisitsBelow insideBuild (.ofText ".") (.ofText "build/src") ["*D.java"] ["build", "src"] := by
  have hp : insideBuild.place? (.ofText "build/src") = some ["build", "src"] := by decide +kernel
  have hd : insideBuild.tree.isDirectory ["build", "src"] = true := by decide +kernel
  exact ⟨hp, hd, (visits_sources_below _ _ _ _).1 _ hp hd⟩

end AnnotationOrder.Lint
