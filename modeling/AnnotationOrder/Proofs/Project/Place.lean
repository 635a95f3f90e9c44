/-
  Where paths lead in a tree.

  A path is followed name by name and has to find a directory at every step, while its
  location is worked out from its names alone.  Both come to the same place.

  * `Location.step_of_isProper`: a name that an entry can have leads down;
  * `location_of_place?`: what a path leads to stands at the location of the path;
  * `Tree.reach?_of_mem_below`: every entry below a directory can be reached from it;
  * `place?_append`: and so a path to a directory can be followed on to it;
  * `Workspace.ofTexts`: a workspace by the texts of its files.
-/
import Mathlib.Data.List.Nodup
import AnnotationOrder.Project.Workspace

namespace AnnotationOrder.Project

variable {t : Tree} {w : Workspace} {base l m : Location} {p : Path} {names : List String}
  {name : String}

/-! ## Names -/

theorem isProper_iff : isProper name = true ↔ isIdle name = false ∧ name ≠ ".." := by
  simp [isProper]

theorem Location.step_of_isProper (h : isProper name = true) (l : Location) :
    l.step name = l ++ [name] := by
  obtain ⟨hidle, hup⟩ := isProper_iff.1 h
  simp [Location.step, hidle, hup]

/-! ## Entries -/

/-- What is looked up by a key that is kept is found among what is kept. -/
theorem lookup_filter_fst {α β : Type} [BEq α] [LawfulBEq α] (keep : α → Bool) (k : α)
    (es : List (α × β)) :
    (es.filter fun e => keep e.1).lookup k = if keep k then es.lookup k else none := by
  induction es with
  | nil => simp
  | cons e es ih =>
    obtain ⟨l, x⟩ := e
    by_cases hk : k = l
    · subst hk
      by_cases hkeep : keep k = true
      · simp [hkeep]
      · simp [hkeep, ih]
    · have hne : (k == l) = false := beq_eq_false_iff_ne.2 hk
      by_cases hkeep : keep l = true
      · simp [hkeep, List.lookup_cons, hne, ih]
      · simp [hkeep, List.lookup_cons, hne, ih]

namespace Tree

theorem mem_map_fst_iff (es : List (Location × Entry)) (l : Location) :
    l ∈ es.map (·.1) ↔ (es.lookup l).isSome = true := by
  rw [← Option.not_isNone, Bool.not_eq_true', ← Bool.not_eq_true, Option.isNone_iff_eq_none,
    List.lookup_eq_none_iff]
  simp

theorem isSome_entry?_iff (hl : l ≠ []) :
    (t.entry? l).isSome = true ↔ l ∈ t.entries.map (·.1) := by
  rw [Tree.entry?, if_neg (by simpa using hl), mem_map_fst_iff]

/-- What is strictly below a location, told by looking it up. -/
theorem mem_below_iff {rel : Location} :
    rel ∈ t.below base ↔ rel ≠ [] ∧ (t.entry? (base ++ rel)).isSome = true := by
  rw [mem_below]
  refine and_congr_right fun hne => ?_
  rw [isSome_entry?_iff (by simp [hne])]

theorem isDirectory_of_mem (h : (l, .directory) ∈ t.entries) : t.isDirectory l = true := by
  by_cases hl : l = []
  · simp [isDirectory, entry?, hl]
  · have hsome := (mem_map_fst_iff t.entries l).1 (List.mem_map.2 ⟨_, h, rfl⟩)
    obtain ⟨e, he⟩ := Option.isSome_iff_exists.1 hsome
    -- no two entries stand at one location
    have heq : (l, e) = (l, Entry.directory) :=
      List.inj_on_of_nodup_map t.nodup (mem_entries_of_lookup he) h rfl
    simp [isDirectory, entry?, hl, he, (Prod.mk.inj heq).2]

theorem isProper_of_mem_below {rel : Location} (h : rel ∈ t.below base) :
    ∀ name ∈ rel, isProper name = true :=
  fun name hname => t.proper _ (mem_below.1 h).2 name (List.mem_append_right _ hname)

/-! ## Reaching entries -/

theorem eq_of_reach? (h : t.reach? l names = some m) : m = names.foldl Location.step l := by
  induction names generalizing l with
  | nil => exact (Option.some.inj h).symm
  | cons name names ih =>
    rw [reach?] at h
    split at h
    · exact ih h
    · cases h

theorem reach?_append (t : Tree) (l : Location) (xs ys : List String) :
    t.reach? l (xs ++ ys) = (t.reach? l xs).bind (t.reach? · ys) := by
  induction xs generalizing l with
  | nil => rfl
  | cons x xs ih =>
    rw [List.cons_append, reach?, reach?]
    split
    · exact ih _
    · rfl

/-- Every entry below a directory can be reached from it. -/
theorem reach?_of_mem_below {rel : Location} (hd : t.isDirectory base = true)
    (h : rel ∈ t.below base) : t.reach? base rel = some (base ++ rel) := by
  have hproper := isProper_of_mem_below h
  obtain ⟨hne, hentry⟩ := mem_below.1 h
  clear h
  induction rel generalizing base with
  | nil => exact absurd rfl hne
  | cons name rel ih =>
    rw [List.forall_mem_cons] at hproper
    have hstep : base.step name = base ++ [name] := Location.step_of_isProper hproper.1 base
    by_cases hrel : rel = []
    · subst hrel
      have hsome : (t.entry? (base ++ [name])).isSome = true :=
        (isSome_entry?_iff (by simp)).2 hentry
      simp [reach?, hd, hstep, hsome]
    · -- what has an entry below it is a directory
      have hsplit : base ++ name :: rel = base ++ [name] ++ rel := by simp
      have hdir : (base ++ [name], Entry.directory) ∈ t.entries :=
        t.closed _ hentry rel hrel _ (by simp) hsplit
      have hsome : (t.entry? (base ++ [name])).isSome = true :=
        (isSome_entry?_iff (by simp)).2 (List.mem_map.2 ⟨_, hdir, rfl⟩)
      rw [reach?, hd, hstep, hsome, Bool.and_self, if_pos rfl,
        ih (isDirectory_of_mem hdir) hproper.2 hrel (hsplit ▸ hentry), hsplit]

end Tree

/-! ## Paths -/

/-- What a path leads to stands at the location of the path. -/
theorem location_of_place? (h : w.place? p = some l) : p.location w.current = l :=
  (Tree.eq_of_reach? h).symm

theorem below_of_place? (h : w.place? p = some base) : w.below p = w.tree.below base := by
  simp [Workspace.below, h]

/-- A path to a directory leads on to everything below it. -/
theorem place?_append (h : w.place? p = some base) (hd : w.tree.isDirectory base = true)
    {rel : Location} (hrel : rel ∈ w.tree.below base) :
    w.place? (p.append rel) = some (base ++ rel) := by
  have happ : w.place? (p.append rel) = (w.place? p).bind (w.tree.reach? · rel) :=
    w.tree.reach?_append (p.start w.current) p.names rel
  rw [happ, h, Option.bind_some, Tree.reach?_of_mem_below hd hrel]

/-! ## Files with texts -/

/-- The bytes of a text with ASCII characters only. -/
def asciiBytes (text : String) : List UInt8 := text.toList.map fun c => c.toNat.toUInt8

/-- A workspace with files that hold such texts, one written after the other. -/
def Workspace.ofTexts (files : List (String × String)) : Workspace :=
  files.foldl (fun w file => w.write (.ofText file.1) (asciiBytes file.2)) (.emptyAt [])

end AnnotationOrder.Project
