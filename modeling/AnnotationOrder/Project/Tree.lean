/-
  Trees of directories and files.

  A tree is a list of entries, each at its own location, with every entry below
  another one standing in a directory and names that a path can go down by.  The
  root is not listed.  The order of the entries says nothing.

  Trees have no symbolic links and no permissions: an entry is a directory or a file,
  each at one place, and all that exists can be looked up, listed and read.

  * `Tree.makeDirectories`, `Tree.write`, `Tree.erase`: the changes;
  * `Tree.entry?`: what stands at a location;
  * `mem_below`: `Tree.below` lists just what extends a location;
  * `below_replace`: other bytes in a file leave every entry in its place.
-/
import AnnotationOrder.Project.Path

namespace AnnotationOrder.Project

/-- What stands at a location. -/
inductive Entry
  | directory
  | file (bytes : List UInt8)
  deriving DecidableEq, Repr, Inhabited

/-- Whether every location below another one stands in a directory. -/
def Closed (entries : List (Location × Entry)) : Prop :=
  ∀ l ∈ entries.map (·.1), ∀ names, names ≠ [] → ∀ top, top ≠ [] → l = top ++ names →
    (top, .directory) ∈ entries

/-- A tree of directories and files. -/
structure Tree where
  entries : List (Location × Entry)
  /-- No two entries at one location. -/
  nodup : (entries.map (·.1)).Nodup
  /-- What is below a location stands in a directory. -/
  closed : Closed entries
  /-- Every entry is named by what leads to it. -/
  proper : ∀ l ∈ entries.map (·.1), ∀ name ∈ l, isProper name = true

namespace Tree

/-- The tree that has only its root. -/
def empty : Tree := ⟨[], .nil, fun _ h => by simp at h, fun _ h => by simp at h⟩

instance : Inhabited Tree := ⟨empty⟩

/-- The entry at a location; the root is a directory. -/
def entry? (t : Tree) (l : Location) : Option Entry :=
  if l.isEmpty then some .directory else t.entries.lookup l

/-- Whether a directory stands at a location. -/
def isDirectory (t : Tree) (l : Location) : Bool := t.entry? l == some .directory

/-- The bytes of the file at a location. -/
def file? (t : Tree) (l : Location) : Option (List UInt8) :=
  match t.entry? l with
  | some (.file bytes) => some bytes
  | _ => none

/-- What leads from a location to the entries strictly below it. -/
def below (t : Tree) (l : Location) : List Location :=
  (t.entries.filterMap fun e => Location.below? l e.1).filter (!·.isEmpty)

/-! ## Look-up -/

/-- What is looked up is an entry. -/
theorem mem_entries_of_lookup {α β : Type} [BEq α] [LawfulBEq α] {es : List (α × β)} {l : α} {e : β}
    (h : es.lookup l = some e) : (l, e) ∈ es := by
  induction es with
  | nil => cases h
  | cons x xs ih =>
    obtain ⟨k, v⟩ := x
    rw [List.lookup_cons] at h
    split at h
    · rename_i hk
      cases h
      rw [eq_of_beq hk]
      exact .head _
    · exact .tail _ (ih h)

theorem mem_of_isDirectory {t : Tree} {l : Location} (h : t.isDirectory l = true) (hl : l ≠ []) :
    (l, .directory) ∈ t.entries := by
  have : t.entries.lookup l = some .directory := by
    simpa [isDirectory, entry?, hl] using h
  exact mem_entries_of_lookup this

/-- **What is below.**  The entries strictly below a location are those whose location extends
    it. -/
theorem mem_below {t : Tree} {l r : Location} :
    r ∈ t.below l ↔ r ≠ [] ∧ l ++ r ∈ t.entries.map (·.1) := by
  simp only [below, List.mem_filter, List.mem_filterMap, Location.below?_eq_some, List.mem_map]
  constructor
  · rintro ⟨⟨e, he, rfl'⟩, hr⟩
    exact ⟨by simpa using hr, e, he, rfl'⟩
  · rintro ⟨hr, e, he, h⟩
    exact ⟨⟨e, he, h⟩, by simpa using hr⟩

/-! ## Changes -/

/-- A new entry in a directory; nothing changes if there is no directory to hold it, its name is none,
    or the location is taken. -/
def insert (t : Tree) (l : Location) (e : Entry) : Tree :=
  if h : l ≠ [] ∧ t.isDirectory l.dropLast = true ∧ isProper (l.getLastD "") = true ∧
      l ∉ t.entries.map (·.1) then
    { entries := t.entries ++ [(l, e)]
      nodup := by
        rw [List.map_append, List.nodup_append]
        refine ⟨t.nodup, by simp, ?_⟩
        rintro a ha b hb rfl
        simp at hb
        exact h.2.2.2 (hb ▸ ha)
      closed := by
        intro k hk names hn top ht hkt
        rw [List.map_append, List.mem_append] at hk
        apply List.mem_append_left
        rcases hk with hk | hk
        · exact t.closed k hk names hn top ht hkt
        · have hkl : k = l := by simpa using hk
          subst hkl
          have hd : k.dropLast = top ++ names.dropLast := by
            rw [hkt, List.dropLast_append_of_ne_nil hn]
          by_cases hne : names.dropLast = []
          · rw [hne, List.append_nil] at hd
            have := mem_of_isDirectory h.2.1 (hd ▸ ht)
            rwa [hd] at this
          · have hdne : k.dropLast ≠ [] := by
              rw [hd]
              intro h'
              exact ht (List.append_eq_nil_iff.1 h').1
            have hmem := mem_of_isDirectory h.2.1 hdne
            exact t.closed k.dropLast (List.mem_map.2 ⟨_, hmem, rfl⟩) _ hne top ht hd
      proper := by
        intro k hk name hname
        rw [List.map_append, List.mem_append] at hk
        rcases hk with hk | hk
        · exact t.proper k hk name hname
        · have hkl : k = l := by simpa using hk
          subst hkl
          rw [← List.dropLast_concat_getLast h.1, List.mem_append, List.mem_singleton] at hname
          rcases hname with hname | rfl
          · have hmem := mem_of_isDirectory h.2.1 (List.ne_nil_of_mem hname)
            exact t.proper _ (List.mem_map.2 ⟨_, hmem, rfl⟩) name hname
          · have hlast := h.2.2.1
            rwa [List.getLastD_eq_getLast?, List.getLast?_eq_some_getLast h.1] at hlast }
  else t

/-- A directory at a location, with the directories on the way to it. -/
def makeDirectories (t : Tree) (l : Location) : Tree :=
  (List.range l.length).foldl (fun t n => t.insert (l.take (n + 1)) .directory) t

/-- An entry with the bytes of the file at a location replaced. -/
def overwrite (l : Location) (bytes : List UInt8) : Location × Entry → Location × Entry
  | (k, .file old) => (k, .file (if k = l then bytes else old))
  | (k, .directory) => (k, .directory)

theorem overwrite_fst (l : Location) (bytes : List UInt8) (e : Location × Entry) :
    (overwrite l bytes e).1 = e.1 := by
  rcases e with ⟨k, _ | _⟩ <;> rfl

theorem map_overwrite_fst (l : Location) (bytes : List UInt8) (es : List (Location × Entry)) :
    (es.map (overwrite l bytes)).map (·.1) = es.map (·.1) := by
  simp [overwrite_fst]

/-- Other bytes in the file at a location. -/
def replace (t : Tree) (l : Location) (bytes : List UInt8) : Tree where
  entries := t.entries.map (overwrite l bytes)
  nodup := by rw [map_overwrite_fst]; exact t.nodup
  closed := by
    intro k hk names hn top ht hkt
    rw [map_overwrite_fst] at hk
    exact List.mem_map.2 ⟨_, t.closed k hk names hn top ht hkt, rfl⟩
  proper := by rw [map_overwrite_fst]; exact t.proper

/-- Other bytes leave every entry in its place. -/
theorem below_replace (t : Tree) (l k : Location) (bytes : List UInt8) :
    (t.replace l bytes).below k = t.below k := by
  have same : ((fun e : Location × Entry => Location.below? k e.1) ∘ overwrite l bytes)
      = fun e => Location.below? k e.1 := by
    funext e
    exact congrArg (Location.below? k) (overwrite_fst l bytes e)
  simp only [below, replace, List.filterMap_map, same]

/-- A file at a location, new or in place of the one there. -/
def write (t : Tree) (l : Location) (bytes : List UInt8) : Tree :=
  if (t.file? l).isSome then t.replace l bytes
  else (t.makeDirectories l.dropLast).insert l (.file bytes)

/-- A location without its entry and all below. -/
def erase (t : Tree) (l : Location) : Tree where
  entries := t.entries.filter fun e => !l.isPrefixOf e.1
  nodup := t.nodup.sublist (List.filter_sublist.map _)
  closed := by
    intro k hk names hn top ht hkt
    obtain ⟨e, he, rfl⟩ := List.mem_map.1 hk
    obtain ⟨he, hle⟩ := List.mem_filter.1 he
    refine List.mem_filter.2 ⟨t.closed e.1 (List.mem_map.2 ⟨e, he, rfl⟩) names hn top ht hkt, ?_⟩
    simp only [Bool.not_eq_true', ← Bool.not_eq_true, List.isPrefixOf_iff_prefix] at hle ⊢
    exact fun hp => hle (hkt ▸ hp.trans (List.prefix_append top names))
  proper := by
    intro k hk
    exact t.proper k ((List.filter_sublist.map _).subset hk)

end Tree

end AnnotationOrder.Project
