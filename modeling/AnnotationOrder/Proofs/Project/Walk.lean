/-
  What is found below a directory.

  * `IsSource`: what leads from a directory to a source below it, by the names on the way;
  * `mem_sourcesBelow_iff`, `pairwise_sourcesBelow`: just this is taken, in the order of
    the names, each once;
  * `sourcesBelow_congr`: nothing but what is below a directory says what is taken there;
  * `IsShown`: the path that reports show, for what stands inside the project and outside;
  * `visited`: what a run comes across and does not leave out, with `mem_visited_iff` and
    `pairwise_visited`.
-/
import Mathlib.Data.List.Sort
import AnnotationOrder.Project.Discovery
import AnnotationOrder.Proofs.Project.Place
import AnnotationOrder.Proofs.Text.Wildcard

namespace AnnotationOrder.Project

open Text

variable {w : Workspace} {base l m rel : Location} {p project root : Path} {name : String}
  {c : Candidate} {exclude : List String}

/-! ## Sources -/

theorem endsAsSource_iff : endsAsSource name = true ↔ ∃ stem : String, name = stem ++ ".java" := by
  rw [endsAsSource, ends_iff]
  constructor
  · rintro ⟨r, hr⟩
    refine ⟨.ofList r, String.toList_inj.1 ?_⟩
    rw [← hr, String.toList_append, String.toList_ofList]
    rfl
  · rintro ⟨stem, rfl⟩
    exact ⟨stem.toList, by rw [String.toList_append]; rfl⟩

/-- What leads from a directory to a source: there is an entry, strictly below, whose name ends like
    those of sources, and no directory on the way to it is one without sources. -/
structure IsSource (t : Tree) (base rel : Location) : Prop where
  entry : (t.entry? (base ++ rel)).isSome = true
  ending : ∃ stem : String, rel.getLast? = some (stem ++ ".java")
  kept : ∀ name ∈ rel.dropLast, name ∉ skippedDirectories

theorem IsSource.ne_nil {t : Tree} (h : IsSource t base rel) : rel ≠ [] := by
  rintro rfl
  obtain ⟨stem, hstem⟩ := h.ending
  cases hstem

theorem isTaken_iff (hne : rel ≠ []) : isTaken rel = true ↔
    (∃ stem : String, rel.getLast? = some (stem ++ ".java")) ∧
      ∀ name ∈ rel.dropLast, name ∉ skippedDirectories := by
  rw [isTaken, Bool.and_eq_true, endsAsSource_iff, List.getLastD_eq_getLast?,
    List.getLast?_eq_some_getLast hne]
  simp

theorem mem_sourcesBelow_iff (hp : w.place? root = some base) :
    rel ∈ sourcesBelow w root ↔ IsSource w.tree base rel := by
  rw [mem_sourcesBelow, below_of_place? hp, Tree.mem_below_iff]
  constructor
  · rintro ⟨⟨hne, hentry⟩, htaken⟩
    obtain ⟨hending, hkept⟩ := (isTaken_iff hne).1 htaken
    exact ⟨hentry, hending, hkept⟩
  · intro h
    exact ⟨⟨h.ne_nil, h.entry⟩, (isTaken_iff h.ne_nil).2 ⟨h.ending, h.kept⟩⟩

/-! ## The order of sources -/

theorem locationLe_trans (a b c : Location) (hab : locationLe a b = true)
    (hbc : locationLe b c = true) : locationLe a c = true := by
  simp only [locationLe, decide_eq_true_eq] at hab hbc ⊢
  exact List.le_trans hab hbc

theorem locationLe_total (a b : Location) : (locationLe a b || locationLe b a) = true := by
  simp only [locationLe, Bool.or_eq_true, decide_eq_true_eq]
  exact List.le_total a b

theorem nodup_below (t : Tree) (l : Location) : (t.below l).Nodup := by
  have hmap : t.entries.filterMap (fun e => Location.below? l e.1) =
      (t.entries.map (·.1)).filterMap (Location.below? l) := by
    rw [List.filterMap_map]
    rfl
  rw [Tree.below, hmap]
  refine (List.Nodup.filterMap (fun k k' r hk hk' => ?_) t.nodup).filter _
  rw [Location.below?_eq_some.1 hk, Location.below?_eq_some.1 hk']

theorem nodup_sourcesBelow (w : Workspace) (root : Path) : (sourcesBelow w root).Nodup := by
  rw [sourcesBelow, (List.mergeSort_perm _ _).nodup_iff, Workspace.below]
  cases w.place? root with
  | none => exact List.nodup_nil
  | some base => exact (nodup_below w.tree base).filter _

/-- Sources are taken in the order of the names that lead to them, each once. -/
theorem pairwise_sourcesBelow (w : Workspace) (root : Path) :
    (sourcesBelow w root).Pairwise (· < ·) := by
  have hle : (sourcesBelow w root).Pairwise fun a b => locationLe a b = true :=
    List.pairwise_mergeSort locationLe_trans locationLe_total _
  refine (hle.and (nodup_sourcesBelow w root)).imp fun {a b} h => ?_
  have hab : ¬ b < a := by simpa [locationLe] using h.1
  by_contra hba
  exact h.2 (List.le_antisymm hab hba)

/-- What is taken below a directory is told by what is below it alone, wherever the directory is. -/
theorem sourcesBelow_congr {w' : Workspace} {root' : Path}
    (h : ∀ rel, rel ∈ w.below root ↔ rel ∈ w'.below root') :
    sourcesBelow w root = sourcesBelow w' root' := by
  refine (pairwise_sourcesBelow w root).eq_of_mem_iff (pairwise_sourcesBelow w' root') fun rel => ?_
  rw [mem_sourcesBelow, mem_sourcesBelow, h]

/-! ## Shown paths -/

/-- The text that reports show for a path to a location: what leads to it from the project, if it is
    inside, and the path itself if it is outside. -/
structure IsShown (project l : Location) (p : Path) (shown : String) : Prop where
  inside : ∀ m, l = project ++ m → shown = m.relativeText
  outside : (∀ m, l ≠ project ++ m) → shown = p.text

theorem isShown_iff {current : Location} {s : String} :
    IsShown (project.location current) (p.location current) p s ↔ s = Path.shown current project p := by
  unfold Path.shown
  cases h : Location.below? (project.location current) (p.location current) with
  | none =>
    have hout : ∀ m, p.location current ≠ project.location current ++ m := by
      intro m hm
      rw [Location.below?_eq_some.2 hm] at h
      cases h
    exact ⟨fun hs => hs.outside hout, fun hs => ⟨fun m hm => absurd hm (hout m), fun _ => hs⟩⟩
  | some m =>
    have hin := Location.below?_eq_some.1 h
    refine ⟨fun hs => hs.inside m hin, fun hs => ⟨fun m' hm' => ?_, fun hout => ?_⟩⟩
    · rw [hin] at hm'
      rw [hs, List.append_cancel_left hm']
    · exact absurd hin (hout m)

/-- Inside the project, what reports show does not depend on the path. -/
theorem shown_eq_of_inside {p' : Path} (hp : w.place? p = some l) (hp' : w.place? p' = some l)
    (hl : l = project.location w.current ++ m) :
    Path.shown w.current project p = Path.shown w.current project p' := by
  have hs := isShown_iff.2 (rfl : Path.shown w.current project p = _)
  have hs' := isShown_iff.2 (rfl : Path.shown w.current project p' = _)
  rw [location_of_place? hp] at hs
  rw [location_of_place? hp'] at hs'
  rw [hs.inside m hl, hs'.inside m hl]

/-! ## What a run visits -/

/-- What a run comes across and does not leave out. -/
def visited (w : Workspace) (project : Path) (paths : List Path) (exclude : List String) :
    List Candidate :=
  (candidates w project paths).filter fun c => !excludedBy exclude c.shown

theorem excludedBy_eq_false_iff {s : String} : excludedBy exclude s = false ↔
    ∀ pattern ∈ exclude, ¬ Wildcard.Matches (Wildcard.parse pattern.toList) s.toList := by
  simp [excludedBy, ← Wildcard.matches_iff]

section
variable (hp : w.place? root = some base) (hd : w.tree.isDirectory base = true)
include hp hd

theorem sourcesAt_of_isDirectory : sourcesAt w root = (sourcesBelow w root).map root.append := by
  have hentry : w.tree.entry? base = some .directory := by
    simpa [Tree.isDirectory] using hd
  have hfile : w.isFile root = false := by
    simp [Workspace.isFile, Workspace.file?, hp, Tree.file?, hentry]
  rw [sourcesAt, if_neg (by simp [hfile])]

theorem candidates_directory (project : Path) : candidates w project [root] =
    (sourcesBelow w root).map fun rel =>
      ⟨root.append rel, Path.shown w.current project (root.append rel)⟩ := by
  simp [candidates, scanRoots, sourcesAt_of_isDirectory hp hd]

theorem location_append_of_isSource (h : IsSource w.tree base rel) :
    (root.append rel).location w.current = base ++ rel := by
  refine location_of_place? (place?_append hp hd ?_)
  exact Tree.mem_below_iff.2 ⟨h.ne_nil, h.entry⟩

/-- **What is visited below a directory.** -/
theorem mem_visited_iff : c ∈ visited w project [root] exclude ↔ ∃ rel, IsSource w.tree base rel ∧
    c.path = root.append rel ∧
    IsShown (project.location w.current) (base ++ rel) c.path c.shown ∧
    ∀ pattern ∈ exclude, ¬ Wildcard.Matches (Wildcard.parse pattern.toList) c.shown.toList := by
  rw [visited, List.mem_filter, Bool.not_eq_true', excludedBy_eq_false_iff,
    candidates_directory hp hd, List.mem_map]
  constructor
  · rintro ⟨⟨rel, hrel, rfl⟩, hkept⟩
    have hsource := (mem_sourcesBelow_iff hp).1 hrel
    refine ⟨rel, hsource, rfl, ?_, hkept⟩
    rw [← location_append_of_isSource hp hd hsource]
    exact isShown_iff.2 rfl
  · rintro ⟨rel, hsource, hpath, hshown, hkept⟩
    refine ⟨⟨rel, (mem_sourcesBelow_iff hp).2 hsource, ?_⟩, hkept⟩
    rw [← location_append_of_isSource hp hd hsource, hpath] at hshown
    obtain ⟨path, shown⟩ := c
    obtain rfl : path = root.append rel := hpath
    exact congrArg (Candidate.mk _) (isShown_iff.1 hshown).symm

/-- What is visited below a directory stands in the order of the names, each once. -/
theorem pairwise_visited (project : Path) (exclude : List String) :
    (visited w project [root] exclude).Pairwise fun c d => c.path.names < d.path.names := by
  rw [visited, candidates_directory hp hd]
  refine List.Pairwise.filter _ (List.pairwise_map.2 ?_)
  exact (pairwise_sourcesBelow w root).imp fun {a b} hab => List.append_left_lt hab

end

end AnnotationOrder.Project
