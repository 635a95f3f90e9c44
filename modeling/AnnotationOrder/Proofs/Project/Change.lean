/-
  Workspaces that differ in one place.

  A file is rewritten, added or taken away.  Everything else stays in its place: the same paths
  lead there, and a run comes across the same sources, in the same order.

  * `DifferAt`: everything but what stands at one location is the same, and there is no
    directory at this location;
  * `differAt_replace`, `differAt_insert`, `differAt_erase`: the changes to one file;
  * `DifferAt.place?_eq`, `DifferAt.file?_eq`: what paths to other places lead to;
  * `DifferAt.candidates_eq`: the sources that a run comes across at other places.
-/
import AnnotationOrder.Proofs.Project.Candidates

namespace AnnotationOrder.Project

variable {w v : Workspace} {t : Tree} {l k m base rel : Location} {p project root : Path}
  {ps : List Path} {names : List String}

/-- Two workspaces have the same entries but at one location, where neither has a directory. -/
structure DifferAt (l : Location) (w v : Workspace) : Prop where
  current : w.current = v.current
  setting : w.setting = v.setting
  elsewhere : ∀ k, k ≠ l → w.tree.entry? k = v.tree.entry? k
  left : w.tree.isDirectory l = false
  right : v.tree.isDirectory l = false

/-- Whether a path leads to a location. -/
def Workspace.leadsTo (w : Workspace) (l : Location) (p : Path) : Bool := w.place? p == some l

@[simp] theorem Workspace.leadsTo_iff : w.leadsTo l p = true ↔ w.place? p = some l := by
  simp [Workspace.leadsTo]

@[simp] theorem Workspace.leadsTo_eq_false_iff : w.leadsTo l p = false ↔ w.place? p ≠ some l := by
  rw [← Bool.not_eq_true, Workspace.leadsTo_iff]

/-! ## Changes to one file -/

/-- Other bytes in the file at a location. -/
def Workspace.replaceAt (w : Workspace) (l : Location) (bytes : List UInt8) : Workspace :=
  { w with tree := w.tree.replace l bytes }

/-- Without the entry at a location. -/
def Workspace.eraseAt (w : Workspace) (l : Location) : Workspace :=
  { w with tree := w.tree.erase l }

/-- A new file at a location. -/
def Workspace.insertAt (w : Workspace) (l : Location) (bytes : List UInt8) : Workspace :=
  { w with tree := w.tree.insert l (.file bytes) }

theorem isDirectory_of_isSome_file? (h : (t.file? l).isSome = true) : t.isDirectory l = false := by
  unfold Tree.file? at h
  split at h
  · rename_i hentry
    rw [Tree.isDirectory, hentry]
    rfl
  · cases h

theorem isSome_entry?_of_isSome_file? (h : (t.file? l).isSome = true) :
    (t.entry? l).isSome = true := by
  unfold Tree.file? at h
  split at h
  · rename_i hentry
    rw [hentry]
    rfl
  · cases h

theorem ne_nil_of_isDirectory_eq_false (h : t.isDirectory l = false) : l ≠ [] := by
  rintro rfl
  cases h

theorem lookup_map_overwrite (l k : Location) (bytes : List UInt8)
    (es : List (Location × Entry)) : (es.map (Tree.overwrite l bytes)).lookup k =
      (es.lookup k).map fun x => (Tree.overwrite l bytes (k, x)).2 := by
  induction es with
  | nil => rfl
  | cons e es ih =>
    obtain ⟨m, x⟩ := e
    rw [List.map_cons, List.lookup_cons, List.lookup_cons, Tree.overwrite_fst]
    by_cases hm : k = m
    · subst hm
      simp
    · simp only [beq_eq_false_iff_ne.2 hm]
      exact ih

theorem overwrite_of_ne (hk : k ≠ l) (bytes : List UInt8) (x : Entry) :
    Tree.overwrite l bytes (k, x) = (k, x) := by
  cases x with
  | directory => rfl
  | file old => simp [Tree.overwrite, hk]

theorem entry?_of_ne_nil (hl : l ≠ []) : t.entry? l = t.entries.lookup l := by
  simp [Tree.entry?, hl]

namespace Tree

/-- Other bytes leave a directory where one is, and make none. -/
theorem isDirectory_replace (t : Tree) (l k : Location) (bytes : List UInt8) :
    (t.replace l bytes).isDirectory k = t.isDirectory k := by
  by_cases hk : k = []
  · subst hk
    rfl
  · have hiff : ∀ {u : Tree}, u.isDirectory k = true ↔ (k, Entry.directory) ∈ u.entries :=
      fun {u} => ⟨fun h => mem_of_isDirectory h hk, isDirectory_of_mem⟩
    rw [Bool.eq_iff_iff, hiff, hiff]
    simp only [replace, List.mem_map]
    constructor
    · rintro ⟨⟨m, x⟩, hmem, heq⟩
      cases x with
      | directory => exact heq ▸ hmem
      | file old => cases heq
    · intro h
      exact ⟨_, h, rfl⟩

/-- A file that is rewritten holds the new bytes. -/
theorem file?_replace_self (t : Tree) (l : Location) (bytes : List UInt8) :
    (t.replace l bytes).file? l = (t.file? l).map fun _ => bytes := by
  by_cases hl : l = []
  · subst hl
    rfl
  · have hlookup := lookup_map_overwrite l l bytes t.entries
    rw [file?, file?, entry?_of_ne_nil hl, entry?_of_ne_nil hl, replace, hlookup]
    cases t.entries.lookup l with
    | none => rfl
    | some x =>
      cases x with
      | directory => rfl
      | file old => simp [overwrite]

theorem file?_erase_self (t : Tree) (l : Location) : (t.erase l).file? l = none := by
  by_cases hl : l = []
  · subst hl
    rfl
  · have hlookup := lookup_filter_fst (fun m => !l.isPrefixOf m) l t.entries
    have hself : l.isPrefixOf l = true := List.isPrefixOf_iff_prefix.2 (List.prefix_refl l)
    rw [file?, entry?_of_ne_nil hl, erase, hlookup, hself]
    rfl

end Tree

theorem differAt_replace (hl : w.tree.isDirectory l = false) (bytes : List UInt8) :
    DifferAt l w (w.replaceAt l bytes) where
  current := rfl
  setting := rfl
  elsewhere k hk := by
    by_cases hne : k = []
    · subst hne
      rfl
    · have hlookup := lookup_map_overwrite l k bytes w.tree.entries
      simp only [overwrite_of_ne hk, Option.map_id'] at hlookup
      rw [entry?_of_ne_nil hne, entry?_of_ne_nil hne]
      exact hlookup.symm
  left := hl
  right := (w.tree.isDirectory_replace l l bytes).trans hl

theorem differAt_erase (hl : w.tree.isDirectory l = false) :
    DifferAt l w (w.eraseAt l) where
  current := rfl
  setting := rfl
  elsewhere k hk := by
    by_cases hne : k = []
    · subst hne
      rfl
    · have hlookup := lookup_filter_fst (fun m => !l.isPrefixOf m) k w.tree.entries
      rw [entry?_of_ne_nil hne, entry?_of_ne_nil hne, Workspace.eraseAt, Tree.erase, hlookup]
      split_ifs with hkeep
      · rfl
      · -- what is below a location that is no directory is not there
        obtain ⟨rel, rfl⟩ : l <+: k := by simpa using hkeep
        have hrel : rel ≠ [] := by
          rintro rfl
          simp at hk
        have hmem : rel ∉ w.tree.below l := by
          rw [Tree.below_eq_nil hl]
          exact List.not_mem_nil
        rw [Tree.mem_below_iff, entry?_of_ne_nil hne] at hmem
        exact Option.not_isSome_iff_eq_none.1 fun hsome => hmem ⟨hrel, hsome⟩
  left := hl
  right := by
    have hne := ne_nil_of_isDirectory_eq_false hl
    have hlookup := lookup_filter_fst (fun m => !l.isPrefixOf m) l w.tree.entries
    have hself : l.isPrefixOf l = true := List.isPrefixOf_iff_prefix.2 (List.prefix_refl l)
    rw [Tree.isDirectory, entry?_of_ne_nil hne, Workspace.eraseAt, Tree.erase, hlookup, hself]
    rfl

theorem differAt_insert (hl : w.tree.isDirectory l = false) (bytes : List UInt8) :
    DifferAt l w (w.insertAt l bytes) where
  current := rfl
  setting := rfl
  elsewhere k hk := by
    by_cases hne : k = []
    · subst hne
      rfl
    · rw [entry?_of_ne_nil hne, entry?_of_ne_nil hne, Workspace.insertAt, Tree.insert]
      split_ifs with h
      · simp [List.lookup_append, List.lookup_cons, beq_eq_false_iff_ne.2 hk]
      · rfl
  left := hl
  right := by
    have hne := ne_nil_of_isDirectory_eq_false hl
    rw [Workspace.insertAt, Tree.insert]
    split_ifs with h
    · have hnone : w.tree.entries.lookup l = none := by
        rw [← Option.not_isSome_iff_eq_none, ← Tree.mem_map_fst_iff]
        exact h.2.2.2
      simp [Tree.isDirectory, entry?_of_ne_nil hne, List.lookup_append, hnone]
    · exact hl

/-- What is found below a directory, at other places. -/
theorem filter_sourcesAt (hp : w.place? root = some base) (hd : w.tree.isDirectory base = true) :
    (sourcesAt w root).filter (!w.leadsTo l ·) =
      ((sourcesBelow w root).filter fun rel => base ++ rel != l).map root.append := by
  rw [sourcesAt_of_isDirectory hp hd, List.filter_map]
  congr 1
  refine List.filter_congr fun rel hrel => ?_
  have hmem : rel ∈ w.tree.below base := by
    rw [← below_of_place? hp]
    exact (mem_sourcesBelow.1 hrel).1
  simp [Workspace.leadsTo, place?_append hp hd hmem, bne]

namespace DifferAt

variable (h : DifferAt l w v)
include h

theorem symm : DifferAt l v w :=
  ⟨h.current.symm, h.setting.symm, fun k hk => (h.elsewhere k hk).symm, h.right, h.left⟩

theorem trans {u : Workspace} (h' : DifferAt l v u) : DifferAt l w u :=
  ⟨h.current.trans h'.current, h.setting.trans h'.setting,
    fun k hk => (h.elsewhere k hk).trans (h'.elsewhere k hk), h.left, h'.right⟩

theorem isDirectory_eq (k : Location) : w.tree.isDirectory k = v.tree.isDirectory k := by
  by_cases hk : k = l
  · rw [hk, h.left, h.right]
  · rw [Tree.isDirectory, Tree.isDirectory, h.elsewhere k hk]

/-! ## Paths to other places -/

/-- The way to another place does not lead over the location: there is no directory to go on from.
    And what leads to the location leads there still, as long as something is there. -/
theorem reach?_eq (hr : w.tree.reach? k names = some m)
    (hm : m = l → (v.tree.entry? l).isSome = true) : v.tree.reach? k names = some m := by
  induction names generalizing k with
  | nil => exact hr
  | cons name names ih =>
    rw [Tree.reach?] at hr ⊢
    split_ifs at hr with hstep
    obtain ⟨hd, hentry⟩ := Bool.and_eq_true_iff.1 hstep
    have hentry' : (v.tree.entry? (k.step name)).isSome = true := by
      by_cases hl : k.step name = l
      · -- this was the last name, as there is no directory to go on from
        rw [hl] at hr ⊢
        cases names with
        | nil => exact hm (Option.some.inj hr).symm
        | cons name' names =>
          rw [Tree.reach?, h.left] at hr
          cases hr
      · rw [← h.elsewhere _ hl, hentry]
    rw [← h.isDirectory_eq, hd, hentry', Bool.and_self, if_pos rfl]
    exact ih hr

theorem place?_eq_of (hp : w.place? p = some m)
    (hm : m = l → (v.tree.entry? l).isSome = true) : v.place? p = some m := by
  rw [Workspace.place?, ← h.current]
  exact h.reach?_eq hp hm

theorem place?_eq (hp : w.place? p = some m) (hm : m ≠ l) : v.place? p = some m :=
  h.place?_eq_of hp fun hl => absurd hl hm

theorem place?_eq_or (p : Path) : w.place? p = v.place? p ∨
    (w.place? p = some l ∧ v.place? p = none) ∨ (w.place? p = none ∧ v.place? p = some l) := by
  cases hw : w.place? p with
  | some m =>
    by_cases hm : m = l
    · subst hm
      cases hv : v.place? p with
      | none => exact .inr (.inl ⟨rfl, rfl⟩)
      | some k =>
        by_cases hk : k = m
        · exact .inl (by rw [hk])
        · exact .inl ((hw.symm.trans (h.symm.place?_eq hv hk)))
    · exact .inl (h.place?_eq hw hm).symm
  | none =>
    cases hv : v.place? p with
    | none => exact .inl rfl
    | some k =>
      by_cases hk : k = l
      · exact .inr (.inr ⟨rfl, by rw [hk]⟩)
      · rw [h.symm.place?_eq hv hk] at hw
        cases hw

/-- What a path to another place leads to. -/
theorem file?_eq (hw : w.place? p ≠ some l) (hv : v.place? p ≠ some l) : w.file? p = v.file? p := by
  rcases h.place?_eq_or p with heq | ⟨hl, -⟩ | ⟨-, hl⟩
  · rw [Workspace.file?, Workspace.file?, ← heq]
    cases hp : w.place? p with
    | none => rfl
    | some m =>
      have hm : m ≠ l := by
        rintro rfl
        exact hw hp
      simp only [Option.bind_some, Tree.file?, h.elsewhere m hm]
  · exact absurd hl hw
  · exact absurd hl hv

theorem isFile_eq (p : Path) :
    (w.isFile p && !w.leadsTo l p) = (v.isFile p && !v.leadsTo l p) := by
  rcases h.place?_eq_or p with heq | ⟨hw, hv⟩ | ⟨hw, hv⟩
  · by_cases hl : w.place? p = some l
    · simp [Workspace.leadsTo, hl, ← heq]
    · rw [Workspace.isFile, Workspace.isFile, h.file?_eq hl (heq ▸ hl), Workspace.leadsTo,
        Workspace.leadsTo, heq]
  · simp [Workspace.isFile, Workspace.file?, Workspace.leadsTo, hw, hv]
  · simp [Workspace.isFile, Workspace.file?, Workspace.leadsTo, hw, hv]

/-! ## Sources at other places -/

theorem sourcesBelow_eq (hp : w.place? root = some base) (hd : w.tree.isDirectory base = true) :
    (sourcesBelow w root).filter (fun rel => base ++ rel != l) =
      (sourcesBelow v root).filter (fun rel => base ++ rel != l) := by
  have hbase : base ≠ l := by
    rintro rfl
    rw [h.left] at hd
    cases hd
  -- both are in the order of names, so it is enough that they have the same members
  refine ((pairwise_sourcesBelow w root).filter _).eq_of_mem_iff
    ((pairwise_sourcesBelow v root).filter _) fun rel => ?_
  rw [List.mem_filter, List.mem_filter, mem_sourcesBelow_iff hp,
    mem_sourcesBelow_iff (h.place?_eq hp hbase)]
  refine and_congr_left fun hne => ?_
  have hentry := h.elsewhere (base ++ rel) (bne_iff_ne.1 hne)
  exact ⟨fun ⟨he, hends, hkept⟩ => ⟨hentry ▸ he, hends, hkept⟩,
    fun ⟨he, hends, hkept⟩ => ⟨hentry ▸ he, hends, hkept⟩⟩

/-- At every path the same sources are found at other places. -/
theorem sourcesAt_eq (root : Path) : (sourcesAt w root).filter (!w.leadsTo l ·) =
    (sourcesAt v root).filter (!v.leadsTo l ·) := by
  by_cases hdir : ∃ base, w.place? root = some base ∧ w.tree.isDirectory base = true
  · obtain ⟨base, hp, hd⟩ := hdir
    have hbase : base ≠ l := by
      rintro rfl
      rw [h.left] at hd
      cases hd
    rw [filter_sourcesAt hp hd, h.sourcesBelow_eq hp hd,
      filter_sourcesAt (h.place?_eq hp hbase) (h.isDirectory_eq base ▸ hd)]
  · -- there is no directory in either, and the file there is another one or left out in both
    have hw : ∀ base, w.place? root = some base → w.tree.isDirectory base = false :=
      fun base hp => Bool.eq_false_iff.2 fun hd => hdir ⟨base, hp, hd⟩
    have hv : ∀ base, v.place? root = some base → v.tree.isDirectory base = false := by
      intro base hp
      rw [← h.isDirectory_eq]
      by_cases hbase : base = l
      · rw [hbase, h.left]
      · exact hw base (h.symm.place?_eq hp hbase)
    have hsingle : ∀ (u : Workspace), (if u.isFile root && root.isSource then [root] else []).filter
        (!u.leadsTo l ·) =
          if u.isFile root && !u.leadsTo l root && root.isSource then [root] else [] := by
      intro u
      cases u.isFile root <;> cases root.isSource <;> cases hleads : u.leadsTo l root <;>
        simp [hleads]
    rw [sourcesAt_of_not_isDirectory hw, sourcesAt_of_not_isDirectory hv, hsingle, hsingle,
      h.isFile_eq]

/-- **The sources at other places.**  What a run comes across and does not find at the location is
    the same, in the same order. -/
theorem candidates_eq (project : Path) (ps : List Path) :
    (candidates w project ps).filter (!w.leadsTo l ·.path) =
      (candidates v project ps).filter (!v.leadsTo l ·.path) := by
  simp only [candidates, List.filter_map, List.filter_flatMap, ← h.current]
  congr 2
  funext root
  exact h.sourcesAt_eq root

end DifferAt

end AnnotationOrder.Project
