/-
  All that a run comes across.

  Every candidate is found at one of the paths that a run looks at, as the file there or below
  the directory there.  It has a name with the ending of sources, and so does the location that
  it leads to.

  * `mem_candidates`, `candidates_append`: the candidates at several paths;
  * `sourcesAt_of_not_isDirectory`: what is found where no directory stands;
  * `endsAsSource_of_mem_sourcesAt`: the names of what is found;
  * `walk`: what is found at a path and not left out, with `candidates_walk`: given one by one,
    files are found again.
-/
import AnnotationOrder.Proofs.Project.Walk

namespace AnnotationOrder.Project

variable {w : Workspace} {project root p : Path} {ps : List Path} {exclude : List String}
  {c : Candidate} {l base rel : Location}

/-! ## Several paths -/

theorem mem_candidates : c ∈ candidates w project ps ↔
    (∃ root ∈ scanRoots project ps, c.path ∈ sourcesAt w root) ∧
      c.shown = Path.shown w.current project c.path := by
  obtain ⟨path, shown⟩ := c
  simp only [candidates, List.mem_map, List.mem_flatMap, Candidate.mk.injEq]
  constructor
  · rintro ⟨p, hp, rfl, rfl⟩
    exact ⟨hp, rfl⟩
  · rintro ⟨hp, rfl⟩
    exact ⟨path, hp, rfl, rfl⟩

theorem candidates_append {ps' : List Path} (hps : ps ≠ []) (hps' : ps' ≠ []) :
    candidates w project (ps ++ ps') = candidates w project ps ++ candidates w project ps' := by
  simp [candidates, scanRoots, hps, hps']

/-! ## The sources at a path -/

theorem mem_below_iff_exists :
    rel ∈ w.below root ↔ ∃ base, w.place? root = some base ∧ rel ∈ w.tree.below base := by
  rw [Workspace.below]
  cases w.place? root with
  | none => simp
  | some base => simp

theorem sourcesAt_of_isFile (hfile : w.isFile p = true) (hsource : p.isSource = true) :
    sourcesAt w p = [p] := by
  rw [sourcesAt, if_pos hfile, if_pos hsource]

/-- Nothing is below a location without a directory. -/
theorem Tree.below_eq_nil {t : Tree} (h : t.isDirectory l = false) : t.below l = [] := by
  refine List.eq_nil_iff_forall_not_mem.2 fun rel hrel => ?_
  obtain ⟨hne, hmem⟩ := Tree.mem_below.1 hrel
  have hl : l ≠ [] := by
    rintro rfl
    cases h
  rw [Tree.isDirectory_of_mem (t.closed _ hmem rel hne l hl rfl)] at h
  cases h

/-- Where no directory stands, nothing is found but the file there. -/
theorem sourcesAt_of_not_isDirectory
    (h : ∀ base, w.place? root = some base → w.tree.isDirectory base = false) :
    sourcesAt w root = if w.isFile root && root.isSource then [root] else [] := by
  have hbelow : w.below root = [] := by
    refine List.eq_nil_iff_forall_not_mem.2 fun rel hrel => ?_
    obtain ⟨base, hp, hmem⟩ := mem_below_iff_exists.1 hrel
    rw [Tree.below_eq_nil (h base hp)] at hmem
    cases hmem
  rw [sourcesAt, sourcesBelow, hbelow]
  cases w.isFile root with
  | false => simp
  | true => rfl

/-! ## Names -/

theorem isProper_of_endsAsSource {name : String} (h : endsAsSource name = true) :
    isProper name = true := by
  obtain ⟨stem, rfl⟩ := endsAsSource_iff.1 h
  have hlast : (stem ++ ".java").toList.getLast? = some 'a' := by
    rw [String.toList_append, List.getLast?_append]
    rfl
  -- neither the empty name nor `.` nor `..` ends in this letter
  have hne : ∀ s : String, s.toList.getLast? ≠ some 'a' → stem ++ ".java" ≠ s := by
    rintro s hs rfl
    exact hs hlast
  rw [isProper_iff, isIdle, Bool.or_eq_false_iff]
  refine ⟨⟨?_, ?_⟩, hne _ (by decide)⟩
  · rw [Bool.eq_false_iff, ne_eq, String.isEmpty_iff]
    exact hne _ (by decide)
  · exact beq_eq_false_iff_ne.2 (hne _ (by decide))

/-- A path leads to a location with its own last name, if an entry can have this name. -/
theorem getLastD_of_place? (hp : w.place? p = some l) (h : isProper p.name = true) :
    l.getLastD "" = p.name := by
  obtain ⟨anchor, names⟩ := p
  rcases List.eq_nil_or_concat names with rfl | ⟨init, name, rfl⟩
  · cases h
  · have hname : (Path.mk anchor (init.concat name)).name = name := by
      simp [Path.name]
    rw [hname] at h ⊢
    rw [← location_of_place? hp, Path.location, List.concat_eq_append, List.foldl_append,
      List.foldl_cons, List.foldl_nil, Location.step_of_isProper h]
    simp

/-- What is found at a path has a name with the ending of sources. -/
theorem endsAsSource_of_mem_sourcesAt (h : p ∈ sourcesAt w root) : endsAsSource p.name = true := by
  unfold sourcesAt at h
  split_ifs at h with hfile hsource
  · obtain rfl := List.mem_singleton.1 h
    exact (Bool.and_eq_true_iff.1 hsource).1
  · cases h
  · obtain ⟨rel, hrel, rfl⟩ := List.mem_map.1 h
    obtain ⟨hbelow, htaken⟩ := mem_sourcesBelow.1 hrel
    obtain ⟨base, -, hmem⟩ := mem_below_iff_exists.1 hbelow
    have hname : (root.append rel).name = rel.getLastD "" := by
      rw [Path.name, Path.append, List.getLastD_eq_getLast?, List.getLastD_eq_getLast?,
        List.getLast?_append_of_ne_nil _ (Tree.mem_below.1 hmem).1]
    rw [hname]
    exact (Bool.and_eq_true_iff.1 htaken).1

theorem endsAsSource_of_mem_candidates (h : c ∈ candidates w project ps) :
    endsAsSource c.path.name = true := by
  obtain ⟨⟨root, -, hmem⟩, -⟩ := mem_candidates.1 h
  exact endsAsSource_of_mem_sourcesAt hmem

/-- Only locations with the ending of sources are come across. -/
theorem place?_ne_of_mem_candidates (hl : endsAsSource (l.getLastD "") = false)
    (h : c ∈ candidates w project ps) : w.place? c.path ≠ some l := by
  intro hp
  have hends := endsAsSource_of_mem_candidates h
  rw [getLastD_of_place? hp (isProper_of_endsAsSource hends), hends] at hl
  cases hl

/-! ## Paths one by one -/

/-- What is found at a path and not left out. -/
def walk (w : Workspace) (project root : Path) (exclude : List String) : List Path :=
  (visited w project [root] exclude).map (·.path)

/-- Files that are found at a path, when they are given one by one, are found again and nothing
    else. -/
theorem candidates_walk (hne : walk w project root exclude ≠ [])
    (hfiles : ∀ p ∈ walk w project root exclude, w.isFile p = true ∧ p.name ≠ sourceEnding) :
    candidates w project (walk w project root exclude) = visited w project [root] exclude := by
  have hroots : scanRoots project (walk w project root exclude) = walk w project root exclude := by
    rw [scanRoots, if_neg (by simpa using hne)]
  have hmem : ∀ c ∈ visited w project [root] exclude, c ∈ candidates w project [root] :=
    fun c hc => (List.mem_filter.1 hc).1
  have hsingle : (walk w project root exclude).flatMap (sourcesAt w) =
      (walk w project root exclude).flatMap fun p => [p] := by
    refine List.flatMap_congr fun p hp => ?_
    obtain ⟨hfile, hname⟩ := hfiles p hp
    obtain ⟨c, hc, rfl⟩ := List.mem_map.1 hp
    refine sourcesAt_of_isFile hfile ?_
    simp [Path.isSource, endsAsSource_of_mem_candidates (hmem c hc), hname]
  rw [candidates, hroots, hsingle, List.flatMap_singleton', walk, List.map_map]
  -- the shown path of a candidate is the one worked out again for its path
  refine (List.map_congr_left fun c hc => ?_).trans (List.map_id _)
  obtain ⟨path, shown⟩ := c
  obtain ⟨-, hshown⟩ := mem_candidates.1 (hmem _ hc)
  exact congrArg (Candidate.mk path) hshown.symm

end AnnotationOrder.Project
