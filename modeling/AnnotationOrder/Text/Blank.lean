/-
  Blank characters and blank text.

  * `isBlank_of_isWhitespace`: the usual ASCII blanks are blank;
  * `blank_iff`: a text is blank when all its characters are.
-/
namespace AnnotationOrder.Text

/-- A blank: the ASCII blanks and separators, the next-line control, and the Unicode spaces and
    separators. -/
def isBlank (c : Char) : Bool :=
  let n := c.toNat
  (9 ≤ n && n ≤ 13) || (0x1c ≤ n && n ≤ 0x20) || n == 0x85 || n == 0xa0 || n == 0x1680
    || (0x2000 ≤ n && n ≤ 0x200a) || n == 0x2028 || n == 0x2029 || n == 0x202f || n == 0x205f
    || n == 0x3000

/-- A text without any character that is not blank. -/
def blank (s : String) : Bool := s.toList.all isBlank

/-- The text without the blanks at its two ends. -/
def trimBlanks (p : Char → Bool) (cs : List Char) : List Char :=
  ((cs.dropWhile p).reverse.dropWhile p).reverse

theorem isBlank_of_isWhitespace {c : Char} (h : c.isWhitespace) : isBlank c = true := by
  simp only [Char.isWhitespace, Bool.or_eq_true, decide_eq_true_eq] at h
  rcases h with ((h | h) | h) | h <;> subst h <;> decide

theorem blank_iff {s : String} : blank s = true ↔ ∀ c ∈ s.toList, isBlank c = true := by
  simp [blank]

end AnnotationOrder.Text
