/-
  Where a place in a text stands among its lines and its rows.

  Lines and rows number a place by the line ends in front of it, but they do not
  count the same ends: a row ends at `\n` alone.

  * `getElem?_lines`, `getElem?_rows`: the line of a place is the one whose number is the
    count of the line ends in front of the place, and so with rows;
  * `countP_isLineEnd`: in front of a place the lines outnumber the rows by the line
    ends that end no row;
  * `return_not_mem_unifyNewlines`: `\r` is gone once line ends are unified.
-/
import Mathlib.Data.List.DropRight
import AnnotationOrder.Text.Lines

namespace AnnotationOrder.Text

variable {before rest cs current : List Char}

/-! ## Line ends -/

/-- A line end that does not end a row. -/
def isForeignEnd (c : Char) : Bool := isLineEnd c && c != '\n'

/-- What stands behind the last line end. -/
def lastLine (cs : List Char) : List Char := cs.rtakeWhile (!isLineEnd ·)

/-- What stands behind the last `\n`. -/
def lastRow (cs : List Char) : List Char := cs.rtakeWhile (· != '\n')

theorem isLineEnd_newline : isLineEnd '\n' = true := by decide

/-- The line ends are those of the rows and the foreign ones. -/
theorem countP_isLineEnd (cs : List Char) :
    cs.countP isLineEnd = cs.count '\n' + cs.countP isForeignEnd := by
  induction cs with
  | nil => rfl
  | cons c cs ih =>
    simp only [List.countP_cons, List.count_cons, ih, isForeignEnd]
    by_cases hc : c = '\n'
    · subst hc
      simp [isLineEnd_newline]
      omega
    · by_cases he : isLineEnd c = true
      · simp [hc, he]
        omega
      · simp [hc, he]

/-- Lines and rows count alike exactly where there are no foreign ends. -/
theorem count_newline_eq_iff (cs : List Char) :
    cs.count '\n' = cs.countP isLineEnd ↔ ∀ c ∈ cs, isForeignEnd c = false := by
  rw [countP_isLineEnd, Nat.left_eq_add, List.countP_eq_zero]
  simp only [Bool.not_eq_true]

theorem isLineEnd_eq_of_not_isForeignEnd {c : Char} (h : isForeignEnd c = false) :
    isLineEnd c = (c == '\n') := by
  by_cases hc : c = '\n'
  · rw [hc]
    rfl
  · rw [isForeignEnd, bne_iff_ne.2 hc, Bool.and_true] at h
    rw [h, beq_eq_false_iff_ne.2 hc]

theorem lastLine_eq_lastRow (h : ∀ c ∈ cs, isForeignEnd c = false) : lastLine cs = lastRow cs := by
  induction cs using List.reverseRecOn with
  | nil => rfl
  | append_singleton cs c ih =>
    have hc := isLineEnd_eq_of_not_isForeignEnd (h c (by simp))
    have hcs := ih fun d hd => h d (by simp [hd])
    rw [lastLine, lastRow] at hcs ⊢
    by_cases he : c = '\n'
    · rw [List.rtakeWhile_concat_neg _ _ _ (by simp [he, isLineEnd_newline]),
        List.rtakeWhile_concat_neg _ _ _ (by simp [he])]
    · rw [List.rtakeWhile_concat_pos _ _ _ (by simp [hc, he]),
        List.rtakeWhile_concat_pos _ _ _ (by simp [he]), hcs]

/-! ## Lines -/

theorem linesFrom_cons {c : Char} (hc : c ≠ '\r') :
    linesFrom current (c :: cs) =
      if isLineEnd c then String.ofList current.reverse :: linesFrom [] cs
      else linesFrom (c :: current) cs := by
  rw [linesFrom]
  exact fun _ h _ => hc h

/-- The first line, when something of it has been read. -/
theorem head?_linesFrom (hcr : '\r' ∉ cs) (hne : current ≠ []) :
    (linesFrom current cs)[0]? =
      some (String.ofList (current.reverse ++ cs.takeWhile (!isLineEnd ·))) := by
  induction cs generalizing current with
  | nil => simp [linesFrom, hne]
  | cons c cs ih =>
    simp only [List.mem_cons, not_or] at hcr
    rw [linesFrom_cons (Ne.symm hcr.1)]
    by_cases hc : isLineEnd c = true
    · simp [hc]
    · simp only [Bool.not_eq_true] at hc
      simp only [hc, Bool.false_eq_true, if_false]
      rw [ih hcr.2 (List.cons_ne_nil _ _)]
      simp [hc]

/-- Line ends in front of a place do not matter for the line end behind them. -/
theorem rtakeWhile_append_cons {p : Char → Bool} {c : Char} (hc : p c = false) (xs ys : List Char) :
    (xs ++ c :: ys).rtakeWhile p = ys.rtakeWhile p := by
  induction ys using List.reverseRecOn with
  | nil => simp [hc]
  | append_singleton ys d ih =>
    rw [← List.cons_append, ← List.append_assoc, List.rtakeWhile_concat, List.rtakeWhile_concat, ih]

theorem getElem?_linesFrom (hcr : '\r' ∉ before ++ rest)
    (hrest : ∃ c ∈ rest.head?, isLineEnd c = false) (hcur : ∀ c ∈ current, isLineEnd c = false) :
    (linesFrom current (before ++ rest))[before.countP isLineEnd]? =
      some (String.ofList (lastLine (current.reverse ++ before) ++
        rest.takeWhile (!isLineEnd ·))) := by
  induction before generalizing current with
  | nil =>
    obtain ⟨c, hc, he⟩ := hrest
    obtain ⟨rest, rfl⟩ : ∃ cs, rest = c :: cs := List.head?_eq_some_iff.1 hc
    simp only [List.nil_append, List.mem_cons, not_or] at hcr
    have hlast : lastLine current.reverse = current.reverse := by
      rw [lastLine, List.rtakeWhile_eq_self_iff]
      simpa using hcur
    simp only [List.nil_append, List.countP_nil, List.append_nil, hlast]
    rw [linesFrom_cons (Ne.symm hcr.1), he, if_neg Bool.false_ne_true,
      head?_linesFrom hcr.2 (List.cons_ne_nil _ _)]
    simp [he]
  | cons c before ih =>
    simp only [List.cons_append, List.mem_cons, not_or] at hcr
    rw [List.cons_append, linesFrom_cons (Ne.symm hcr.1)]
    by_cases he : isLineEnd c = true
    · rw [if_pos he, List.countP_cons_of_pos he, List.getElem?_cons_succ, ih hcr.2 (by simp)]
      rw [lastLine, lastLine, rtakeWhile_append_cons (by simp [he])]
      rfl
    · rw [Bool.not_eq_true] at he
      have hcur' : ∀ d ∈ c :: current, isLineEnd d = false := List.forall_mem_cons.2 ⟨he, hcur⟩
      rw [if_neg (by simp [he]), List.countP_cons_of_neg (by simp [he]), ih hcr.2 hcur']
      simp

/-- **The line of a place.**  Its number is the count of the line ends in front of the place, and it
    reaches from the last of these to the next one. -/
theorem getElem?_lines {s : String} (hs : s.toList = before ++ rest) (hcr : '\r' ∉ s.toList)
    (hrest : ∃ c ∈ rest.head?, isLineEnd c = false) :
    (lines s)[before.countP isLineEnd]? =
      some (String.ofList (lastLine before ++ rest.takeWhile (!isLineEnd ·))) := by
  rw [hs] at hcr
  rw [lines, hs, getElem?_linesFrom hcr hrest (by simp)]
  rfl

/-! ## Rows -/

theorem head?_rowsFrom (current cs : List Char) :
    (rowsFrom current cs)[0]? = some (current.reverse ++ cs.takeWhile (· != '\n')) := by
  induction cs generalizing current with
  | nil => simp [rowsFrom]
  | cons c cs ih =>
    rw [rowsFrom]
    by_cases hc : c = '\n'
    · simp [hc]
    · rw [if_neg hc, ih]
      simp [hc]

theorem getElem?_rowsFrom (hcur : '\n' ∉ current) :
    (rowsFrom current (before ++ rest))[before.count '\n']? =
      some (lastRow (current.reverse ++ before) ++ rest.takeWhile (· != '\n')) := by
  induction before generalizing current with
  | nil =>
    have hlast : lastRow current.reverse = current.reverse := by
      rw [lastRow, List.rtakeWhile_eq_self_iff]
      intro c hc
      exact bne_iff_ne.2 fun h => hcur (h ▸ List.mem_reverse.1 hc)
    rw [List.nil_append, List.count_nil, List.append_nil, hlast, head?_rowsFrom]
  | cons c before ih =>
    rw [List.cons_append, rowsFrom]
    by_cases hc : c = '\n'
    · rw [if_pos hc, hc, List.count_cons_self, List.getElem?_cons_succ, ih List.not_mem_nil]
      rw [lastRow, lastRow, rtakeWhile_append_cons (by simp)]
      rfl
    · have hcur' : '\n' ∉ c :: current := List.not_mem_cons_of_ne_of_not_mem (Ne.symm hc) hcur
      rw [if_neg hc, List.count_cons_of_ne hc, ih hcur']
      simp

/-- **The row of a place.**  Its number is the count of the row ends in front of the place, and it
    reaches from the last of these to the next one. -/
theorem getElem?_rows {s : String} (hs : s.toList = before ++ rest) :
    (rows s)[before.count '\n']? = some (lastRow before ++ rest.takeWhile (· != '\n')) := by
  rw [rows, hs, getElem?_rowsFrom List.not_mem_nil]
  rfl

/-! ## Unified line ends -/

theorem return_not_mem_unifyNewlinesFrom (b : Bool) (cs : List Char) :
    '\r' ∉ unifyNewlinesFrom b cs := by
  induction cs generalizing b with
  | nil => simp [unifyNewlinesFrom]
  | cons c cs ih =>
    rw [unifyNewlinesFrom]
    split_ifs with h₁ h₂
    · simp [ih]
    · exact ih _
    · simp [ih, Ne.symm h₁]

theorem return_not_mem_unifyNewlines (s : String) : '\r' ∉ (unifyNewlines s).toList := by
  rw [unifyNewlines, String.toList_ofList]
  exact return_not_mem_unifyNewlinesFrom _ _

end AnnotationOrder.Text
