/-
  Lines for scripts are read back.

  * `splitLast`: characters between the last places of a separator, in front of which the
    separator may stand as it likes;
  * `Entry`, `Entry.ofLine?`: what a line says, read from the line;
  * `Finding.Separable`: a finding whose path holds no line end, and whose names hold none of
    the separators;
  * `ofLine?_porcelain`: a line says what the finding has;
  * `formatPorcelain_entries`: a report has a line for each finding, and two reports that say
    different things are printed differently, unless a number in them is too long to be written.
-/
import AnnotationOrder.Proofs.Report.Limit
import AnnotationOrder.Proofs.Report.Scalar
import Mathlib.Data.List.DropRight

namespace AnnotationOrder.Report

variable {c : Char} {xs ys : List Char} {f : Finding} {r : Report}

/-! ## Separators -/

/-- The characters between the last places of a separator, at most a number of them. -/
def splitLast (c : Char) : Nat → List Char → List (List Char)
  | 0, cs => [cs]
  | n + 1, cs =>
    if c ∈ cs then
      splitLast c n (cs.rdropWhile (· != c)).dropLast ++ [cs.rtakeWhile (· != c)]
    else [cs]

/-- What follows the last place of a separator is split off. -/
theorem splitLast_append (n : Nat) (xs : List Char) (hys : c ∉ ys) :
    splitLast c (n + 1) (xs ++ c :: ys) = splitLast c n xs ++ [ys] := by
  have hother : ∀ d ∈ ys.reverse, (d != c) = true := by
    intro d hd
    rw [bne_iff_ne]
    rintro rfl
    exact hys (List.mem_reverse.1 hd)
  have hreverse : (xs ++ c :: ys).reverse = ys.reverse ++ c :: xs.reverse := by simp
  have hdrop : (xs ++ c :: ys).rdropWhile (· != c) = xs ++ [c] := by
    rw [List.rdropWhile, hreverse, List.dropWhile_append_of_pos hother]
    simp
  have htake : (xs ++ c :: ys).rtakeWhile (· != c) = ys := by
    rw [List.rtakeWhile, hreverse, List.takeWhile_append_of_pos hother]
    simp
  rw [splitLast, if_pos (by simp), hdrop, htake, List.dropLast_concat]

/-! ## Reading -/

/-- The lines of an output: none of an empty one. -/
def outputLines (s : String) : List (List Char) :=
  if s.isEmpty then [] else s.toList.splitOn '\n'

/-- An integer by its digits. -/
def integer? (cs : List Char) : Option Int :=
  match Json.word? cs with
  | some (.number n 0) => some n
  | _ => none

/-- A column, or nothing where it is missing. -/
def columnField? (cs : List Char) : Option (Option Int) :=
  if cs.isEmpty then some none else (integer? cs).map some

/-- The name behind an at sign. -/
def atName? : List Char → Option String
  | '@' :: name => some (String.ofList name)
  | _ => none

/-- The names behind at signs, with spaces between them. -/
def atNames (cs : List Char) : List String := (cs.splitOn ' ').filterMap atName?

/-- What a line says of a finding. -/
structure Entry where
  filePath : String
  line : Int
  column? : Option Int
  issue : String
  expectedOrder : List String
  deriving DecidableEq, Repr

/-- What a line says, by its last four colons. -/
def Entry.ofLine? (line : List Char) : Option Entry :=
  match splitLast ':' 4 line with
  | [path, line, column, issue, order] => do
    let line ← integer? line
    let column? ← columnField? column
    some ⟨String.ofList path, line, column?, String.ofList issue, atNames order⟩
  | _ => none

/-- What a line is to say of a finding. -/
def Finding.entry (f : Finding) : Entry :=
  ⟨f.filePath, f.line, f.column?, issueId, f.violation.expectedOrder⟩

/-- The separators can be told from what stands between them. -/
def Finding.Separable (f : Finding) : Prop :=
  '\n' ∉ f.filePath.toList ∧ ∀ name ∈ f.violation.expectedOrder,
    '\n' ∉ name.toList ∧ ' ' ∉ name.toList ∧ ':' ∉ name.toList

instance (f : Finding) : Decidable f.Separable := inferInstanceAs (Decidable (_ ∧ _))

/-! ## Fields -/

theorem not_mem_integer {n : Int} (hc : Json.isNumberChar c = false) : c ∉ (toString n).toList := by
  intro h
  rw [Json.isNumberChar_of_mem_integer h] at hc
  cases hc

theorem integer?_toString (n : Int) : integer? (toString n).toList = some n := by
  rw [integer?, Json.word?_integer]
  rfl

theorem columnField?_toString (column? : Option Int) :
    columnField? ((column?.map toString).getD "").toList = some column? := by
  cases column? with
  | none => rfl
  | some n =>
    have hne : (toString n).toList ≠ [] := by
      intro h
      have hread := integer?_toString n
      rw [h] at hread
      cases hread
    rw [Option.map_some, Option.getD_some, columnField?, List.isEmpty_eq_false_iff.2 hne,
      integer?_toString]
    rfl

theorem not_mem_column {column? : Option Int} (hc : Json.isNumberChar c = false) :
    c ∉ ((column?.map toString).getD "").toList := by
  cases column? with
  | none => exact List.not_mem_nil
  | some n => exact not_mem_integer hc

theorem toList_order (names : List String) :
    (" ".intercalate (names.map ("@" ++ ·))).toList =
      [' '].intercalate (names.map fun name => '@' :: name.toList) := by
  rw [String.toList_intercalate, List.map_map]
  congr 1
  apply List.map_congr_left
  intro name _
  exact String.toList_append

theorem atNames_order {names : List String} (h : ∀ name ∈ names, ' ' ∉ name.toList) :
    atNames (" ".intercalate (names.map ("@" ++ ·))).toList = names := by
  rw [toList_order, atNames]
  cases names with
  | nil => rfl
  | cons name names =>
    have hspace : ∀ token ∈ (name :: names).map (fun name => '@' :: name.toList), ' ' ∉ token := by
      simpa using h
    have hread : (atName? ∘ fun name => '@' :: name.toList) = some := by
      funext name
      exact congrArg some String.ofList_toList
    rw [List.splitOn_intercalate ' ' hspace (by simp), List.filterMap_map, hread,
      List.filterMap_some]

theorem not_mem_intercalate {d : Char} (hd : c ≠ d) : ∀ {ls : List (List Char)},
    (∀ l ∈ ls, c ∉ l) → c ∉ [d].intercalate ls
  | [], _ => List.not_mem_nil
  | [l], h => by
    rw [List.intercalate_singleton]
    exact h l List.mem_cons_self
  | l :: m :: ls, h => by
    have hrest := not_mem_intercalate hd fun k hk => h k (List.mem_cons_of_mem l hk)
    rw [List.intercalate_cons_cons, List.mem_append, List.mem_append, List.mem_singleton]
    rintro ((hl | rfl) | hm)
    · exact h l List.mem_cons_self hl
    · exact hd rfl
    · exact hrest hm

theorem not_mem_order {names : List String} (hspace : c ≠ ' ') (hat : c ≠ '@')
    (h : ∀ name ∈ names, c ∉ name.toList) :
    c ∉ (" ".intercalate (names.map ("@" ++ ·))).toList := by
  rw [toList_order]
  apply not_mem_intercalate hspace
  simpa [hat] using h

/-! ## Lines -/

/-- The fields of a line, from the last one to the first. -/
theorem Finding.toList_porcelain (f : Finding) : f.porcelain.toList =
    (((f.filePath.toList ++ ':' :: (toString f.line).toList) ++
      ':' :: ((f.column?.map toString).getD "").toList) ++ ':' :: issueId.toList) ++
      ':' :: (" ".intercalate (f.violation.expectedOrder.map ("@" ++ ·))).toList := by
  rw [porcelain, String.toList_intercalate]
  simp [List.intercalate_cons_cons, -String.toList_intercalate]

/-- A line says what the finding has. -/
theorem Finding.ofLine?_porcelain (h : f.Separable) :
    Entry.ofLine? f.porcelain.toList = some f.entry := by
  have hcolon : Json.isNumberChar ':' = false := rfl
  have hsplit : splitLast ':' 4 f.porcelain.toList = [f.filePath.toList, (toString f.line).toList,
      ((f.column?.map toString).getD "").toList, issueId.toList,
      (" ".intercalate (f.violation.expectedOrder.map ("@" ++ ·))).toList] := by
    rw [toList_porcelain, splitLast_append, splitLast_append, splitLast_append, splitLast_append]
    · rfl
    · exact not_mem_integer hcolon
    · exact not_mem_column hcolon
    · decide
    · exact not_mem_order (by decide) (by decide) fun name hname => (h.2 name hname).2.2
  simp only [Entry.ofLine?, hsplit, integer?_toString, columnField?_toString, Option.bind_eq_bind,
    Option.bind_some, String.ofList_toList, atNames_order fun name hname => (h.2 name hname).2.1]
  rfl

theorem Finding.newline_not_mem_porcelain (h : f.Separable) : '\n' ∉ f.porcelain.toList := by
  have hnewline : Json.isNumberChar '\n' = false := rfl
  have horder : '\n' ∉ (" ".intercalate (f.violation.expectedOrder.map ("@" ++ ·))).toList :=
    not_mem_order (by decide) (by decide) fun name hname => (h.2 name hname).1
  have hissue : '\n' ∉ issueId.toList := by decide
  simp only [toList_porcelain, List.mem_append, List.mem_cons, not_or]
  exact ⟨⟨⟨⟨h.1, by decide, not_mem_integer hnewline⟩, by decide, not_mem_column hnewline⟩,
    by decide, hissue⟩, by decide, horder⟩

/-- Each finding is printed as one line, in order. -/
theorem outputLines_porcelain (h : ∀ f ∈ r.findings, f.Separable) :
    outputLines r.porcelain = r.findings.map fun f => f.porcelain.toList := by
  rcases hr : r.findings with - | ⟨f, fs⟩
  · rw [porcelain, hr]
    rfl
  · have hlines : ∀ l ∈ r.findings.map (fun f => f.porcelain.toList), '\n' ∉ l := by
      simpa using fun f hf => Finding.newline_not_mem_porcelain (h f hf)
    have hsplit : r.porcelain.toList.splitOn '\n' = r.findings.map fun f => f.porcelain.toList := by
      rw [porcelain, String.toList_intercalate, List.map_map]
      exact List.splitOn_intercalate '\n' hlines (by simp [hr])
    -- a line has colons at least
    have hne : r.porcelain.isEmpty = false := by
      rw [Bool.eq_false_iff]
      intro hempty
      rw [String.isEmpty_iff.1 hempty, hr] at hsplit
      have hhead : [] = f.porcelain.toList := (List.cons.inj hsplit).1
      simp [Finding.toList_porcelain] at hhead
    rw [outputLines, hne, if_neg Bool.false_ne_true, hsplit, hr]

theorem map_ofLine?_porcelain (h : ∀ f ∈ r.findings, f.Separable) :
    (outputLines r.porcelain).map Entry.ofLine? = (r.findings.map Finding.entry).map some := by
  rw [outputLines_porcelain h, List.map_map, List.map_map]
  exact List.map_congr_left fun f hf => Finding.ofLine?_porcelain (h f hf)

/-! ## Reports -/

theorem formatPorcelain_eq (r : Report) : r.formatPorcelain =
    if ∀ f ∈ r.findings, ∀ n ∈ f.numbers, Number.isShort n = true then .ok r.porcelain
    else .error .tooLong := by
  have hall : r.findings.all Finding.isShort = true ↔
      ∀ f ∈ r.findings, ∀ n ∈ f.numbers, Number.isShort n = true := by
    simp only [List.all_eq_true, Finding.isShort_eq]
  rw [formatPorcelain]
  simp only [hall]

theorem formatPorcelain_of_long {r : Report}
    (h : ∃ f ∈ r.findings, ∃ n ∈ f.numbers, Number.isShort n = false) :
    r.formatPorcelain = .error .tooLong := by
  rw [formatPorcelain_eq, if_neg (by simpa using h)]

/-- A report without too long a number is printed as one line for each finding, in order, which
says what the finding has; and two reports that have different things to say are printed
differently.  No other report is printed. -/
theorem formatPorcelain_entries (r : Report) (h : ∀ f ∈ r.findings, f.Separable) :
    ((∀ f ∈ r.findings, ∀ n ∈ f.numbers, Number.isShort n = true) →
      ∃ s, r.formatPorcelain = .ok s ∧
        (outputLines s).map Entry.ofLine? = (r.findings.map Finding.entry).map some ∧
        ∀ r' : Report, (∀ f ∈ r'.findings, f.Separable) →
          r'.findings.map Finding.entry ≠ r.findings.map Finding.entry →
          r'.formatPorcelain ≠ .ok s) ∧
    ((∃ f ∈ r.findings, ∃ n ∈ f.numbers, Number.isShort n = false) →
      r.formatPorcelain = .error .tooLong) := by
  refine ⟨fun hshort => ⟨r.porcelain, ?_, map_ofLine?_porcelain h, fun r' h' hne heq => hne ?_⟩,
    formatPorcelain_of_long⟩
  · rw [formatPorcelain_eq, if_pos hshort]
  · rw [formatPorcelain_eq] at heq
    split_ifs at heq
    have hentries := map_ofLine?_porcelain h'
    rw [Except.ok.inj heq, map_ofLine?_porcelain h] at hentries
    exact (List.map_injective_iff.2 (fun _ _ => Option.some.inj) hentries).symm

/-- A finding in a file whose path is like the line itself, and without a place. -/
def colonFinding : Finding where
  filePath := "C:/a:1:2:b.java"
  subject := ⟨"class", some "A", -3⟩
  violation := ⟨⟨"B", none⟩, 1, ⟨"A", none⟩, 0, default, ["B", "", "@A"]⟩
  sourceLine := ""

/-- A finding at a place, without a proposed order. -/
def placedFinding : Finding where
  filePath := ""
  subject := ⟨"class", none, 3⟩
  violation := ⟨⟨"B", some ⟨4, 0, 2⟩⟩, 1, ⟨"A", none⟩, 0, default, []⟩
  sourceLine := ""

theorem formatPorcelain_entries_colons :
    ∃ s, formatPorcelain { findings := [colonFinding, placedFinding] } = .ok s ∧
      (outputLines s).map Entry.ofLine? =
        [some ⟨"C:/a:1:2:b.java", -3, none, "WrongAnnotationOrder", ["B", "", "@A"]⟩,
          some ⟨"", 4, some 1, "WrongAnnotationOrder", []⟩] ∧
      formatPorcelain {} ≠ .ok s := by
  obtain ⟨s, hs, hlines, hother⟩ :=
    (formatPorcelain_entries { findings := [colonFinding, placedFinding] } (by decide)).1
      (by decide +kernel)
  exact ⟨s, hs, hlines, hother {} (by decide) (by decide)⟩

/-- A column with too many digits is not printed. -/
theorem formatPorcelain_farFinding :
    farFinding.Separable ∧ formatPorcelain { findings := [farFinding] } = .error .tooLong :=
  ⟨by decide, formatPorcelain_of_long ⟨_, List.mem_cons_self, exists_long_farFinding⟩⟩

end AnnotationOrder.Report
