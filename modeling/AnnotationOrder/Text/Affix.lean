/-
  How a text begins and ends.

  A text is compared as its sequence of characters: `begins s t` when `t` starts
  with `s`, `ends s t` when it finishes with `s`.

  * `begins_iff` and `ends_iff`: both say that the rest of `t` is some text.
-/
namespace AnnotationOrder.Text

/-- The text `t` starts with `s`. -/
def begins (s t : String) : Bool := s.toList.isPrefixOf t.toList

/-- The text `t` finishes with `s`. -/
def ends (s t : String) : Bool := s.toList.isSuffixOf t.toList

theorem begins_iff {s t : String} : begins s t = true ↔ ∃ r, s.toList ++ r = t.toList := by
  simp [begins, List.isPrefixOf_iff_prefix, List.IsPrefix]

theorem ends_iff {s t : String} : ends s t = true ↔ ∃ r, r ++ s.toList = t.toList := by
  simp [ends, List.isSuffixOf_iff_suffix, List.IsSuffix]

end AnnotationOrder.Text
