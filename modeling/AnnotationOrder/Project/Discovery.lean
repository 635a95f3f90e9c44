/-
  The sources that a run comes across.

  A file is taken as it is, if it is named as a source.  Below a directory every
  entry with the ending of sources is taken, in the order of its names, unless it
  is inside a directory that holds no sources of the project.  Directories above
  the scanned one do not matter.

  * `mem_sourcesBelow`: what is taken below a directory;
  * `candidates`: all that is taken, with the paths that reports show;
  * `excludedBy`: the exclusion patterns, which look at these shown paths.
-/
import AnnotationOrder.Project.Workspace
import AnnotationOrder.Text.Wildcard

namespace AnnotationOrder.Project

open Text

/-- Directories that hold no sources of the project. -/
def skippedDirectories : List String := [".git", ".gradle", ".idea", "build", "node_modules"]

/-- Whether an entry, by what leads to it from the scanned directory, is taken. -/
def isTaken (l : Location) : Bool :=
  endsAsSource (l.getLastD "") && !l.dropLast.any skippedDirectories.contains

/-- The order of locations, name by name. -/
def locationLe (a b : Location) : Bool := decide (¬ b < a)

/-- What is taken below a directory. -/
def sourcesBelow (w : Workspace) (root : Path) : List Location :=
  ((w.below root).filter isTaken).mergeSort locationLe

theorem mem_sourcesBelow {w : Workspace} {root : Path} {l : Location} :
    l ∈ sourcesBelow w root ↔ l ∈ w.below root ∧ isTaken l = true := by
  rw [sourcesBelow, List.mem_mergeSort, List.mem_filter]

/-- What is taken at a path. -/
def sourcesAt (w : Workspace) (root : Path) : List Path :=
  if w.isFile root then (if root.isSource then [root] else [])
  else (sourcesBelow w root).map root.append

/-- An entry that a run comes across. -/
structure Candidate where
  path : Path
  /-- The path that reports show. -/
  shown : String
  deriving DecidableEq, Repr

/-- Where a run looks: at the given paths, or else at the whole project. -/
def scanRoots (project : Path) (paths : List Path) : List Path :=
  if paths.isEmpty then [project] else paths

/-- All that a run comes across. -/
def candidates (w : Workspace) (project : Path) (paths : List Path) : List Candidate :=
  ((scanRoots project paths).flatMap (sourcesAt w)).map fun p =>
    ⟨p, Path.shown w.current project p⟩

/-- Whether one of the patterns matches a path. -/
def excludedBy (patterns : List String) (path : String) : Bool :=
  patterns.any (Wildcard.matches · path)

end AnnotationOrder.Project
